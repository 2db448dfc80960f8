import Mathlib.Data.List.Basic
import Mathlib.Data.List.Nodup
import Kirino.Rbac.Permission
/-!
# PermissionMacro — what `hierarchical_permission!` generates (`kirino-macro/src/lib.rs`)

A declaration is a list of domains with their actions; the compiler refuses two domains, or two actions of one domain, of
one identifier.  The generated type has a point for each, named in snake case, and looks paths and domains up arm by arm.
Two points can share a name (`Read` and `READ`): where none do, a name leads back to its point and a pattern selects
the point of that path or the points of that domain (`generated_lookups`).
-/
namespace Kirino
namespace Rbac

/-- The case of characters and text beyond ASCII. -/
structure Casing where
  isUppercase : Char → Bool
  toLowercase : String → String

/-- Among ASCII, the upper-case letters are the ASCII ones. -/
structure Casing.Lawful (casing : Casing) : Prop where
  upper : ∀ c : Char, c.toNat < 128 → casing.isUppercase c = c.isUpper

def Casing.ascii : Casing := ⟨Char.isUpper, fun s => String.ofList (s.toList.map Char.toLower)⟩

theorem Casing.ascii_lawful : Casing.ascii.Lawful := ⟨fun _ _ => rfl⟩

namespace Casing

/-- The first letter of an identifier goes without an underscore. -/
def domainSnake (casing : Casing) (name : String) : String :=
  String.ofList (name.toList.zipIdx.flatMap (fun x =>
    if casing.isUppercase x.1 then (if x.2 > 0 then ['_', x.1.toLower] else [x.1.toLower]) else [x.1]))

def actionSnake (casing : Casing) (name : String) : String := casing.toLowercase name

/-- The catalog's snake case is that of ASCII. -/
theorem domainSnake_ascii (name : String) : ascii.domainSnake name = Rbac.domainSnake name := rfl

theorem actionSnake_ascii (name : String) : ascii.actionSnake name = Rbac.actionSnake name := rfl

end Casing

/-- A point of the generated type: an inner enum's variant under its domain. -/
structure Point where
  domainIdent : String
  actionIdent : String
deriving DecidableEq, Repr

namespace Point
variable (casing : Casing) (v : Point)

def domain : String := casing.domainSnake v.domainIdent

def name : String := v.domain casing ++ "." ++ casing.actionSnake v.actionIdent

def pathSegments : List String := [v.domain casing, casing.actionSnake v.actionIdent]

def ancestryNames : List String := [v.domain casing, v.name casing]

def matchesPattern (pattern : String) : Bool := pattern == v.domain casing || pattern == v.name casing

theorem matchesPattern_iff (pattern : String) : v.matchesPattern casing pattern = true ↔ pattern ∈ v.ancestryNames casing := by
  simp [matchesPattern, ancestryNames]

end Point

/-- A declaration that compiles.  Identifiers have no dot. -/
structure PermissionEnum where
  domains : List DomainEntry
  distinct : (domains.map DomainEntry.name).Nodup
  distinctActions : ∀ entry ∈ domains, entry.actions.Nodup
  identifiers : ∀ entry ∈ domains, '.' ∉ entry.name.toList

namespace PermissionEnum

def pointsOf (entry : DomainEntry) : List Point := entry.actions.map (Point.mk entry.name)

variable (casing : Casing) (decl : PermissionEnum)

def all : List Point := decl.domains.flatMap pointsOf

def allDomains : List String := decl.domains.map (fun entry => casing.domainSnake entry.name)

/-- The arms are tried in the order of the declaration. -/
def fromPath (path : String) : Option Point := decl.all.find? (fun v => v.name casing == path)

def expandDomain (domainStr : String) : List Point :=
  match decl.domains.find? (fun entry => casing.domainSnake entry.name == domainStr) with
  | some entry => pointsOf entry
  | none => []

variable {casing decl}

theorem mem_all_iff {v : Point} :
    v ∈ decl.all ↔ ∃ entry ∈ decl.domains, v.domainIdent = entry.name ∧ v.actionIdent ∈ entry.actions := by
  unfold all pointsOf
  rw [List.mem_flatMap]
  refine exists_congr (fun entry => and_congr_right (fun _ => ?_))
  rw [List.mem_map]
  constructor
  · rintro ⟨action, haction, rfl⟩
    exact ⟨rfl, haction⟩
  · rintro ⟨hdomain, haction⟩
    exact ⟨v.actionIdent, haction, by rw [← hdomain]⟩

end PermissionEnum

/-! ## Snake case -/

theorem isUpper_iff (c : Char) : c.isUpper = true ↔ 65 ≤ c.toNat ∧ c.toNat ≤ 90 := decide_eq_true_iff

theorem isLower_iff (c : Char) : c.isLower = true ↔ 97 ≤ c.toNat ∧ c.toNat ≤ 122 := by
  unfold Char.isLower
  rw [Bool.and_eq_true, decide_eq_true_iff, decide_eq_true_iff]
  exact Iff.rfl

theorem isDigit_iff (c : Char) : c.isDigit = true ↔ 48 ≤ c.toNat ∧ c.toNat ≤ 57 := by
  unfold Char.isDigit
  rw [Bool.and_eq_true, decide_eq_true_iff, decide_eq_true_iff]
  exact Iff.rfl

theorem toNat_toLower (c : Char) : c.toLower.toNat = if c.isUpper then c.toNat + 32 else c.toNat := by
  have hrange := isUpper_iff c
  unfold Char.toLower
  split
  · rename_i h
    have hupper : c.isUpper = true := hrange.2 h
    rw [if_pos hupper]
    show (c.val + 32).toNat = c.val.toNat + 32
    have hlt : c.val.toNat ≤ 90 := h.2
    rw [UInt32.toNat_add]
    exact Nat.mod_eq_of_lt (show c.val.toNat + 32 < 2 ^ 32 by omega)
  · rename_i h
    rw [if_neg (fun hupper => h (hrange.1 hupper))]

theorem toLower_eq_dot {c : Char} (h : c.toLower = '.') : c = '.' := by
  have hval : (if c.isUpper then c.toNat + 32 else c.toNat) = 46 := (toNat_toLower c).symm.trans (congrArg Char.toNat h)
  split at hval
  · rename_i hupper
    have := (isUpper_iff c).1 hupper
    omega
  · exact Char.toNat_inj.1 hval

theorem toLower_upper_inj {c c' : Char} (hc : c.isUpper = true) (hc' : c'.isUpper = true) (h : c.toLower = c'.toLower) :
    c = c' := by
  have hval := congrArg Char.toNat h
  rw [toNat_toLower, toNat_toLower, if_pos hc, if_pos hc'] at hval
  exact Char.toNat_inj.1 (Nat.add_right_cancel hval)

/-- An identifier as the style of the language has it: an upper-case letter, then letters and digits. -/
def UpperCamel (name : String) : Prop :=
  name.toList.head?.any Char.isUpper = true ∧ name.toList.tail.all Char.isAlphanum = true

instance (name : String) : Decidable (UpperCamel name) := inferInstanceAs (Decidable (_ ∧ _))

theorem UpperCamel.exists_cons {name : String} (h : UpperCamel name) :
    ∃ c cs, name.toList = c :: cs ∧ c.isUpper = true ∧ ∀ x ∈ cs, x.isAlphanum = true := by
  obtain ⟨hhead, htail⟩ := h
  cases hname : name.toList with
  | nil => simp [hname] at hhead
  | cons c cs =>
    rw [hname] at hhead htail
    exact ⟨c, cs, rfl, by simpa using hhead, by simpa using htail⟩

theorem lt_of_isAlphanum {c : Char} (h : c.isAlphanum = true) : c.toNat < 128 := by
  unfold Char.isAlphanum Char.isAlpha at h
  rw [Bool.or_eq_true, Bool.or_eq_true, isUpper_iff, isLower_iff, isDigit_iff] at h
  omega

/-- The letters after the first, in snake case. -/
def snakeTail (cs : List Char) : List Char := cs.flatMap (fun c => if c.isUpper then ['_', c.toLower] else [c])

theorem snakeTail_cons (c : Char) (cs : List Char) :
    snakeTail (c :: cs) = (if c.isUpper then ['_', c.toLower] else [c]) ++ snakeTail cs := List.flatMap_cons

section Snake
variable {casing : Casing}

theorem flatMap_zipIdx_tail (hlawful : casing.Lawful) : ∀ (cs : List Char) (k : Nat), (∀ c ∈ cs, c.isAlphanum = true) →
    (cs.zipIdx (k + 1)).flatMap (fun x =>
      if casing.isUppercase x.1 then (if x.2 > 0 then ['_', x.1.toLower] else [x.1.toLower]) else [x.1]) = snakeTail cs
  | [], _, _ => rfl
  | c :: cs, k, h => by
    have hc : casing.isUppercase c = c.isUpper := hlawful.upper c (lt_of_isAlphanum (h c List.mem_cons_self))
    have hcs := flatMap_zipIdx_tail hlawful cs (k + 1) (fun x hx => h x (List.mem_cons_of_mem c hx))
    rw [List.zipIdx_cons, List.flatMap_cons, hcs, snakeTail_cons]
    simp only [hc, if_pos (Nat.succ_pos k)]

theorem toList_domainSnake (hlawful : casing.Lawful) {name : String} {c : Char} {cs : List Char}
    (hname : name.toList = c :: cs) (hc : c.isUpper = true) (hcs : ∀ x ∈ cs, x.isAlphanum = true) :
    (casing.domainSnake name).toList = c.toLower :: snakeTail cs := by
  have hupper : casing.isUppercase c = true := by
    rw [hlawful.upper c (by have := (isUpper_iff c).1 hc; omega), hc]
  unfold Casing.domainSnake
  rw [String.toList_ofList, hname, List.zipIdx_cons, List.flatMap_cons, flatMap_zipIdx_tail hlawful cs 0 hcs]
  simp [hupper]

theorem snakeTail_inj : ∀ {cs cs' : List Char}, (∀ c ∈ cs, c.isAlphanum = true) → (∀ c ∈ cs', c.isAlphanum = true) →
    snakeTail cs = snakeTail cs' → cs = cs'
  | [], [], _, _, _ => rfl
  | [], c :: cs, _, _, h => by
    rw [snakeTail_cons] at h
    split at h <;> cases h
  | c :: cs, [], _, _, h => by
    rw [snakeTail_cons] at h
    split at h <;> cases h
  | c :: cs, c' :: cs', hcs, hcs', h => by
    have hunder : ('_' : Char).isAlphanum = false := by decide
    have hrest := @snakeTail_inj cs cs' (fun x hx => hcs x (List.mem_cons_of_mem c hx))
      (fun x hx => hcs' x (List.mem_cons_of_mem c' hx))
    have hc := hcs c List.mem_cons_self
    have hc' := hcs' c' List.mem_cons_self
    rw [snakeTail_cons, snakeTail_cons] at h
    -- an underscore stands before the upper-case letters and nowhere else
    by_cases hup : c.isUpper = true <;> by_cases hup' : c'.isUpper = true
    · rw [if_pos hup, if_pos hup'] at h
      obtain ⟨hlower, htail⟩ := List.cons.inj (List.cons.inj h).2
      rw [toLower_upper_inj hup hup' hlower, hrest htail]
    · rw [if_pos hup, if_neg hup'] at h
      obtain ⟨rfl, -⟩ := List.cons.inj h
      rw [hunder] at hc'
      cases hc'
    · rw [if_neg hup, if_pos hup'] at h
      obtain ⟨rfl, -⟩ := List.cons.inj h
      rw [hunder] at hc
      cases hc
    · rw [if_neg hup, if_neg hup'] at h
      obtain ⟨rfl, htail⟩ := List.cons.inj h
      rw [hrest htail]

/-- **Camel case is read back from snake case.** -/
theorem domainSnake_inj (hlawful : casing.Lawful) {name name' : String} (hname : UpperCamel name)
    (hname' : UpperCamel name') (h : casing.domainSnake name = casing.domainSnake name') : name = name' := by
  obtain ⟨c, cs, hcons, hc, hcs⟩ := hname.exists_cons
  obtain ⟨c', cs', hcons', hc', hcs'⟩ := hname'.exists_cons
  have hlist := congrArg String.toList h
  rw [toList_domainSnake hlawful hcons hc hcs, toList_domainSnake hlawful hcons' hc' hcs'] at hlist
  obtain ⟨hhead, htail⟩ := List.cons.inj hlist
  refine String.toList_injective ?_
  rw [hcons, hcons', toLower_upper_inj hc hc' hhead, snakeTail_inj hcs hcs' htail]

/-- Snake case makes no dot. -/
theorem dot_not_mem_domainSnake {name : String} (h : '.' ∉ name.toList) : '.' ∉ (casing.domainSnake name).toList := by
  unfold Casing.domainSnake
  rw [String.toList_ofList]
  intro hdot
  obtain ⟨⟨c, i⟩, hc, hdot⟩ := List.mem_flatMap.1 hdot
  have hmem : c ∈ name.toList := List.fst_mem_of_mem_zipIdx hc
  have hlower : '.' = c.toLower → False := fun he => h (toLower_eq_dot he.symm ▸ hmem)
  have hself : '.' = c → False := fun he => h (he ▸ hmem)
  dsimp only at hdot
  split at hdot
  · split at hdot
    · simp only [List.mem_cons, List.not_mem_nil, or_false] at hdot
      exact hdot.elim (by decide) hlower
    · exact hlower (List.mem_singleton.1 hdot)
  · exact hself (List.mem_singleton.1 hdot)

end Snake

/-! ## The lookups -/

/-- What stands before the first of a mark, and what stands after it. -/
theorem append_mark_inj {α : Type} {a : α} : ∀ {xs xs' ys ys' : List α}, a ∉ xs → a ∉ xs' →
    xs ++ a :: ys = xs' ++ a :: ys' → xs = xs' ∧ ys = ys'
  | [], [], _, _, _, _, h => ⟨rfl, (List.cons.inj h).2⟩
  | [], x :: xs', _, _, _, hxs', h => absurd ((List.cons.inj h).1 ▸ List.mem_cons_self) hxs'
  | x :: xs, [], _, _, hxs, _, h => absurd ((List.cons.inj h).1 ▸ List.mem_cons_self) hxs
  | x :: xs, x' :: xs', _, _, hxs, hxs', h => by
    obtain ⟨rfl, htail⟩ := List.cons.inj h
    obtain ⟨rfl, hys⟩ := append_mark_inj (fun hm => hxs (List.mem_cons_of_mem x hm))
      (fun hm => hxs' (List.mem_cons_of_mem x hm)) htail
    exact ⟨rfl, hys⟩

section Lookups
variable {casing : Casing} {decl : PermissionEnum} {v v' : Point}

open PermissionEnum (pointsOf mem_all_iff)

theorem Point.dot_not_mem_domain (casing : Casing) (h : v ∈ decl.all) : '.' ∉ (v.domain casing).toList := by
  obtain ⟨entry, hentry, hdomain, -⟩ := mem_all_iff.1 h
  refine dot_not_mem_domainSnake ?_
  rw [hdomain]
  exact decl.identifiers entry hentry

theorem Point.dot_mem_name (v : Point) : '.' ∈ (v.name casing).toList := by
  simp [Point.name, String.toList_append]

/-- **A name is its segments**: the first dot parts them. -/
theorem Point.name_eq_iff (h : v ∈ decl.all) (h' : v' ∈ decl.all) :
    v.name casing = v'.name casing ↔ v.pathSegments casing = v'.pathSegments casing := by
  simp only [Point.pathSegments, List.cons.injEq, and_true]
  constructor
  · intro hname
    have hlist := congrArg String.toList hname
    simp only [Point.name, String.toList_append, List.append_assoc] at hlist
    obtain ⟨hdomain, haction⟩ := append_mark_inj (Point.dot_not_mem_domain casing h) (Point.dot_not_mem_domain casing h') hlist
    exact ⟨String.toList_injective hdomain, String.toList_injective haction⟩
  · rintro ⟨hdomain, haction⟩
    unfold Point.name
    rw [hdomain, haction]

/-- **In camel case, points share a name when they are actions of one domain alike in lower case.** -/
theorem Point.name_eq_iff_of_camel (hlawful : casing.Lawful) (hcamel : ∀ entry ∈ decl.domains, UpperCamel entry.name)
    (h : v ∈ decl.all) (h' : v' ∈ decl.all) :
    v.name casing = v'.name casing ↔
      v.domainIdent = v'.domainIdent ∧ casing.actionSnake v.actionIdent = casing.actionSnake v'.actionIdent := by
  rw [Point.name_eq_iff h h']
  simp only [Point.pathSegments, List.cons.injEq, and_true]
  refine and_congr_left (fun _ => ⟨fun hdomain => ?_, fun hdomain => congrArg casing.domainSnake hdomain⟩)
  obtain ⟨entry, hentry, hident, -⟩ := mem_all_iff.1 h
  obtain ⟨entry', hentry', hident', -⟩ := mem_all_iff.1 h'
  unfold Point.domain at hdomain
  rw [hident, hident'] at hdomain ⊢
  exact domainSnake_inj hlawful (hcamel entry hentry) (hcamel entry' hentry') hdomain

namespace PermissionEnum

theorem nodup_all (decl : PermissionEnum) : decl.all.Nodup := by
  unfold all
  refine List.nodup_flatMap.2 ⟨fun entry hentry => ?_, ?_⟩
  · exact (decl.distinctActions entry hentry).map (fun a b h => (Point.mk.inj h).2)
  · refine (List.pairwise_map.1 decl.distinct).imp (fun {entry entry'} hne => ?_)
    intro v hv hv'
    obtain ⟨action, -, rfl⟩ := List.mem_map.1 hv
    obtain ⟨action', -, he⟩ := List.mem_map.1 hv'
    exact hne (Point.mk.inj he).1.symm

theorem fromPath_eq_some {path : String} (h : decl.fromPath casing path = some v) : v ∈ decl.all ∧ v.name casing = path :=
  ⟨List.mem_of_find?_eq_some h, by simpa using List.find?_some h⟩

/-- A point's name leads to a point of that name, the first one. -/
theorem exists_fromPath (casing : Casing) (h : v ∈ decl.all) :
    ∃ v', decl.fromPath casing (v.name casing) = some v' ∧ v' ∈ decl.all ∧ v'.name casing = v.name casing := by
  cases hfind : decl.fromPath casing (v.name casing) with
  | none => exact absurd (beq_self_eq_true _) (List.find?_eq_none.1 hfind v h)
  | some v' => exact ⟨v', rfl, fromPath_eq_some hfind⟩

/-- **Every name leads back to its point exactly when no two points share one.** -/
theorem fromPath_name_iff : (∀ v ∈ decl.all, decl.fromPath casing (v.name casing) = some v) ↔
    ∀ v ∈ decl.all, ∀ v' ∈ decl.all, v.name casing = v'.name casing → v = v' := by
  constructor
  · intro hback v hv v' hv' hname
    have hfind := hback v hv
    rw [hname, hback v' hv'] at hfind
    exact (Option.some.inj hfind).symm
  · intro hdistinct v hv
    obtain ⟨v', hfind, hv', hname⟩ := exists_fromPath casing hv
    rw [hfind, hdistinct v' hv' v hv hname]

/-- **In camel case, no two points share a name when no domain has two actions alike in lower case.** -/
theorem names_distinct_iff (hlawful : casing.Lawful) (hcamel : ∀ entry ∈ decl.domains, UpperCamel entry.name) :
    (∀ v ∈ decl.all, ∀ v' ∈ decl.all, v.name casing = v'.name casing → v = v') ↔
      ∀ entry ∈ decl.domains, (entry.actions.map casing.actionSnake).Nodup := by
  constructor
  · intro hdistinct entry hentry
    refine (decl.distinctActions entry hentry).map_on (fun a ha b hb hab => ?_)
    have hv : Point.mk entry.name a ∈ decl.all := mem_all_iff.2 ⟨entry, hentry, rfl, ha⟩
    have hv' : Point.mk entry.name b ∈ decl.all := mem_all_iff.2 ⟨entry, hentry, rfl, hb⟩
    have hname := (Point.name_eq_iff_of_camel hlawful hcamel hv hv').2 ⟨rfl, hab⟩
    exact (Point.mk.inj (hdistinct _ hv _ hv' hname)).2
  · intro hnodup v hv v' hv' hname
    obtain ⟨hdomain, haction⟩ := (Point.name_eq_iff_of_camel hlawful hcamel hv hv').1 hname
    obtain ⟨entry, hentry, hident, hmem⟩ := mem_all_iff.1 hv
    obtain ⟨entry', hentry', hident', hmem'⟩ := mem_all_iff.1 hv'
    obtain rfl : entry = entry' :=
      List.inj_on_of_nodup_map decl.distinct hentry hentry' (hident.symm.trans (hdomain.trans hident'))
    have hsame := List.inj_on_of_nodup_map (hnodup entry hentry) hmem hmem' haction
    cases v
    cases v'
    exact (Point.mk.injEq _ _ _ _).mpr ⟨hdomain, hsame⟩

/-- The first domain of a name has all its points, where the names differ. -/
theorem expand_eq_filter (domainStr : String) : ∀ entries : List DomainEntry,
    (entries.map (fun entry => casing.domainSnake entry.name)).Nodup →
      (match entries.find? (fun entry => casing.domainSnake entry.name == domainStr) with
        | some entry => pointsOf entry
        | none => []) = (entries.flatMap pointsOf).filter (fun v => v.domain casing == domainStr)
  | [], _ => rfl
  | entry :: entries, hnodup => by
    rw [List.map_cons, List.nodup_cons] at hnodup
    have ih := expand_eq_filter domainStr entries hnodup.2
    have hdomain : ∀ v ∈ pointsOf entry, v.domain casing = casing.domainSnake entry.name := by
      intro v hv
      obtain ⟨action, -, rfl⟩ := List.mem_map.1 hv
      rfl
    rw [List.flatMap_cons, List.filter_append, List.find?_cons]
    by_cases hhere : casing.domainSnake entry.name = domainStr
    · have hrest : (entries.flatMap pointsOf).filter (fun v => v.domain casing == domainStr) = [] := by
        refine List.filter_eq_nil_iff.2 (fun v hv hsame => hnodup.1 ?_)
        obtain ⟨other, hother, hv⟩ := List.mem_flatMap.1 hv
        obtain ⟨action, -, rfl⟩ := List.mem_map.1 hv
        exact List.mem_map.2 ⟨other, hother, (beq_iff_eq.1 hsame).trans hhere.symm⟩
      have hall : (pointsOf entry).filter (fun v => v.domain casing == domainStr) = pointsOf entry :=
        List.filter_eq_self.2 (fun v hv => beq_iff_eq.2 ((hdomain v hv).trans hhere))
      rw [hrest, hall, beq_iff_eq.2 hhere, List.append_nil]
    · have hnone : (pointsOf entry).filter (fun v => v.domain casing == domainStr) = [] :=
        List.filter_eq_nil_iff.2 (fun v hv hsame => hhere ((hdomain v hv).symm.trans (beq_iff_eq.1 hsame)))
      rw [hnone, beq_eq_false_iff_ne.2 hhere, List.nil_append]
      exact ih

theorem nodup_allDomains (hlawful : casing.Lawful) (hcamel : ∀ entry ∈ decl.domains, UpperCamel entry.name) :
    (decl.allDomains casing).Nodup := by
  refine (List.Nodup.of_map _ decl.distinct).map_on (fun a ha b hb hab => ?_)
  exact List.inj_on_of_nodup_map decl.distinct ha hb (domainSnake_inj hlawful (hcamel a ha) (hcamel b hb) hab)

/-- **A domain expands to its points.** -/
theorem expandDomain_eq (hlawful : casing.Lawful) (hcamel : ∀ entry ∈ decl.domains, UpperCamel entry.name)
    (domainStr : String) :
    decl.expandDomain casing domainStr = decl.all.filter (fun v => v.domain casing == domainStr) :=
  expand_eq_filter domainStr decl.domains (nodup_allDomains hlawful hcamel)

/-- Where names differ, the points of a name are the one its path leads to. -/
theorem filter_name_eq (hdistinct : ∀ v ∈ decl.all, ∀ v' ∈ decl.all, v.name casing = v'.name casing → v = v')
    (path : String) : decl.all.filter (fun v => v.name casing == path) = (decl.fromPath casing path).toList := by
  cases hfind : decl.fromPath casing path with
  | none => exact List.filter_eq_nil_iff.2 (List.find?_eq_none.1 hfind)
  | some v =>
    obtain ⟨hv, hname⟩ := fromPath_eq_some hfind
    have hsame : ∀ v' ∈ decl.all, (v'.name casing == path) = (v' == v) := by
      intro v' hv'
      by_cases he : v' = v
      · rw [he, hname, beq_self_eq_true, beq_self_eq_true]
      · rw [beq_eq_false_iff_ne.2 he, beq_eq_false_iff_ne.2 (fun hn => he (hdistinct v' hv' v hv (hn.trans hname.symm)))]
    rw [List.filter_congr hsame, List.filter_beq, List.count_eq_one_of_mem decl.nodup_all hv]
    rfl

/-- **A pattern selects the point of that path or the points of that domain.** -/
theorem filter_matchesPattern (hlawful : casing.Lawful) (hcamel : ∀ entry ∈ decl.domains, UpperCamel entry.name)
    (hdistinct : ∀ v ∈ decl.all, ∀ v' ∈ decl.all, v.name casing = v'.name casing → v = v') (pattern : String) :
    decl.all.filter (fun v => v.matchesPattern casing pattern) =
      (decl.fromPath casing pattern).toList ++ decl.expandDomain casing pattern := by
  rw [expandDomain_eq hlawful hcamel, ← filter_name_eq hdistinct]
  by_cases hdot : '.' ∈ pattern.toList
  · -- no domain has a dot
    have hdomain : ∀ v ∈ decl.all, (v.domain casing == pattern) = false := fun v hv =>
      beq_eq_false_iff_ne.2 (fun he => Point.dot_not_mem_domain casing hv (he ▸ hdot))
    have hmatch : ∀ v ∈ decl.all, v.matchesPattern casing pattern = (v.name casing == pattern) := by
      intro v hv
      have hne : pattern ≠ v.domain casing := Ne.symm (beq_eq_false_iff_ne.1 (hdomain v hv))
      rw [Bool.eq_iff_iff, Point.matchesPattern_iff, beq_iff_eq]
      simp [Point.ancestryNames, hne, eq_comm]
    rw [List.filter_congr hmatch, List.filter_congr hdomain, List.filter_false, List.append_nil]
  · -- every name has one
    have hname : ∀ v ∈ decl.all, (v.name casing == pattern) = false := fun v _ =>
      beq_eq_false_iff_ne.2 (fun he => hdot (he ▸ v.dot_mem_name))
    have hmatch : ∀ v ∈ decl.all, v.matchesPattern casing pattern = (v.domain casing == pattern) := by
      intro v hv
      have hne : pattern ≠ v.name casing := Ne.symm (beq_eq_false_iff_ne.1 (hname v hv))
      rw [Bool.eq_iff_iff, Point.matchesPattern_iff, beq_iff_eq]
      simp [Point.ancestryNames, hne, eq_comm]
    rw [List.filter_congr hmatch, List.filter_congr hname, List.filter_false, List.nil_append]

end PermissionEnum

end Lookups

/-- **The generated lookups agree**: in camel case, each point's name leads back to it exactly when no domain has two
actions alike in lower case; a domain expands to its points; and where names lead back, a pattern selects the point of that
path or the points of that domain. -/
theorem generated_lookups (casing : Casing) (hlawful : casing.Lawful) (decl : PermissionEnum)
    (hcamel : ∀ entry ∈ decl.domains, UpperCamel entry.name) :
    ((∀ v ∈ decl.all, decl.fromPath casing (v.name casing) = some v) ↔
        ∀ entry ∈ decl.domains, (entry.actions.map casing.actionSnake).Nodup) ∧
      (∀ domainStr, decl.expandDomain casing domainStr = decl.all.filter (fun v => v.domain casing == domainStr)) ∧
      ((∀ v ∈ decl.all, decl.fromPath casing (v.name casing) = some v) →
        ∀ pattern, decl.all.filter (fun v => v.matchesPattern casing pattern) =
          (decl.fromPath casing pattern).toList ++ decl.expandDomain casing pattern) := by
  refine ⟨?_, PermissionEnum.expandDomain_eq hlawful hcamel, fun hback pattern => ?_⟩
  · rw [PermissionEnum.fromPath_name_iff]
    exact PermissionEnum.names_distinct_iff hlawful hcamel
  · exact PermissionEnum.filter_matchesPattern hlawful hcamel (PermissionEnum.fromPath_name_iff.1 hback) pattern

/-! ## The catalog by its names -/

/-- A point as the catalog has it, by its names alone. -/
def Point.leaf (v : Point) : LeafData := ⟨v.domain .ascii, Casing.ascii.actionSnake v.actionIdent⟩

def PermissionEnum.catalog (decl : PermissionEnum) : HierarchicalPermission := ⟨decl.domains⟩

theorem PermissionEnum.leavesOf_eq (entry : DomainEntry) :
    HierarchicalPermission.leavesOf entry = (pointsOf entry).map Point.leaf := by
  unfold HierarchicalPermission.leavesOf pointsOf
  rw [List.map_map]
  rfl

theorem PermissionEnum.catalog_all (decl : PermissionEnum) : decl.catalog.all = decl.all.map Point.leaf := by
  unfold HierarchicalPermission.all PermissionEnum.all
  rw [List.map_flatMap]
  exact List.flatMap_congr (fun entry _ => leavesOf_eq entry)

/-- **The catalog resolves paths as the generated type does.** -/
theorem PermissionEnum.catalog_fromPath (decl : PermissionEnum) (path : String) :
    decl.catalog.fromPath path = (decl.fromPath .ascii path).map Point.leaf := by
  unfold HierarchicalPermission.fromPath PermissionEnum.fromPath
  rw [catalog_all, List.find?_map]
  rfl

theorem PermissionEnum.catalog_expandDomain (decl : PermissionEnum) (domainStr : String) :
    decl.catalog.expandDomain domainStr = (decl.expandDomain .ascii domainStr).map Point.leaf := by
  unfold HierarchicalPermission.expandDomain PermissionEnum.expandDomain
  show (match decl.domains.find? (fun entry => Casing.ascii.domainSnake entry.name == domainStr) with
    | some entry => HierarchicalPermission.leavesOf entry
    | none => []) = _
  cases decl.domains.find? (fun entry => Casing.ascii.domainSnake entry.name == domainStr) with
  | none => rfl
  | some entry => exact leavesOf_eq entry

/-- The crate's own declaration. -/
def permissionEnum : PermissionEnum :=
  ⟨permissionCatalog.domains, by decide, by decide, by decide⟩

theorem generated_lookups_catalog : (∀ v ∈ permissionEnum.all, permissionEnum.fromPath .ascii (v.name .ascii) = some v) ∧
    permissionEnum.all.filter (fun v => v.matchesPattern .ascii "plugin") =
      [⟨"Plugin", "Read"⟩, ⟨"Plugin", "Install"⟩, ⟨"Plugin", "Publish"⟩, ⟨"Plugin", "Manage"⟩] := by
  obtain ⟨hback, -, hpattern⟩ := generated_lookups .ascii Casing.ascii_lawful permissionEnum (by decide)
  have hnames := hback.2 (by decide)
  exact ⟨hnames, (hpattern hnames "plugin").trans (by decide)⟩

end Rbac
end Kirino
