import Mathlib.Data.List.Sort
import Mathlib.Data.Prod.Lex
import Kirino.Lib.HashMap
import Kirino.Lib.Least
import Kirino.Rbac.Permission
/-!
# GrantResolution — grant rows folded into a permission set (`rbac/grant_resolution.rs`)

Every default and every visible flat row gives verdicts on names: a tier, and whether it grants.  Verdicts are ordered
by tier, a deny before a grant of the same tier, and the fold keeps each name's least verdict (`leastOf_foldTiered`); a
name is in the result when its least verdict grants.  So the result depends on the set of verdicts alone.
-/
namespace Kirino
namespace Rbac

open Lib (HashMap LeastOf)

def isOpaquePermissionPath (s : String) : Bool :=
  !s.toList.isEmpty && s.toList.head?.any Char.isLower &&
    (s.toList.splitOn '.').all (fun seg =>
      !seg.isEmpty && seg.all (fun c => c.isLower || c.isDigit || c == '_' || c == '-'))

def scopeTier (scope : String) : Nat :=
  if scope = "user" then 0
  else if scope = "group" then 1
  else 2

def foldTiered (decision : Option (Nat × Bool)) (tier : Nat) (granted : Bool) : Option (Nat × Bool) :=
  match decision with
  | some (t, v) =>
    if t < tier then decision
    else if t = tier then (if v then some (tier, granted) else decision)
    else some (tier, granted)
  | none => some (tier, granted)

def expandGrantPermission (raw : String) : List String :=
  if (permissionCatalog.fromPath raw).isSome then [raw]
  else
    let expanded := (permissionCatalog.expandDomain raw).map LeafData.leafName
    if !expanded.isEmpty then expanded
    else if isOpaquePermissionPath raw then [raw]
    else []

structure GrantRow where
  scope : String
  permission : String
  granted : Bool
  resourceId : Option String
  expiresAt : Option Int
deriving DecidableEq, Repr

def isVisibleAt (row : GrantRow) (now : Int) : Bool :=
  match row.expiresAt with
  | none => true
  | some deadline => decide (now < deadline)

/-- The decisions so far: a name's pending verdict. -/
abbrev Decisions := HashMap String (Option (Nat × Bool))

/-- One name of a row's expansion, folded into the decisions. -/
def foldPerm (tier : Nat) (granted : Bool) (decisions : Decisions) (perm : String) : Decisions :=
  let decision := (decisions.get? perm).join
  let decision := if decision.isNone then some (tier, granted) else foldTiered decision tier granted
  match decision with
  | some d => (decisions.remove perm).insert perm (some d)
  | none => decisions.remove perm

def foldRow (now : Int) (decisions : Decisions) (grant : GrantRow) : Decisions :=
  if grant.resourceId.isSome || !isVisibleAt grant now then decisions
  else (expandGrantPermission grant.permission).foldl (foldPerm (scopeTier grant.scope) grant.granted) decisions

def seedDecisions (defaults : List String) : Decisions :=
  HashMap.ofList (defaults.map (fun p => (p, some (scopeTier "group", true))))

def resolveGrantRowsAt (defaults : List String) (grants : List GrantRow) (now : Int) : List String :=
  let decisions := grants.foldl (foldRow now) (seedDecisions defaults)
  let effective := (decisions.entries.filter (fun e => e.2.any Prod.snd)).map Prod.fst
  effective.mergeSort (fun a b => decide (a ≤ b))

/-! ## The least verdict -/

/-- A verdict, ordered by tier and a deny before a grant. -/
abbrev Verdict := Nat ×ₗ Bool

/-- The pending decision, as a verdict. -/
def asVerdict (decision : Option (Nat × Bool)) : Option Verdict := decision.map toLex

/-- **One fold step keeps the least verdict.** -/
theorem leastOf_foldTiered {V : Set Verdict} {decision : Option (Nat × Bool)} (tier : Nat) (granted : Bool)
    (h : LeastOf V (asVerdict decision)) :
    LeastOf (insert (toLex (tier, granted)) V) (asVerdict (foldTiered decision tier granted)) := by
  unfold foldTiered
  cases decision with
  | none => exact h.insert_none _
  | some d =>
    obtain ⟨t, v⟩ := d
    have hpending : LeastOf V (some (toLex (t, v))) := h
    dsimp only
    by_cases hlt : t < tier
    · rw [if_pos hlt]
      exact hpending.insert_of_le (le_of_lt (Prod.Lex.toLex_lt_toLex.2 (Or.inl hlt)))
    · rw [if_neg hlt]
      by_cases heq : t = tier
      · subst heq
        rw [if_pos rfl]
        cases v with
        | false => exact hpending.insert_of_le (Prod.Lex.toLex_le_toLex.2 (Or.inr ⟨rfl, Bool.false_le granted⟩))
        | true =>
          cases granted with
          | true => exact hpending.insert_of_le (le_refl _)
          | false => exact hpending.insert_of_lt (Prod.Lex.toLex_lt_toLex.2 (Or.inr ⟨rfl, Bool.false_lt_true⟩))
      · rw [if_neg heq]
        exact hpending.insert_of_lt (Prod.Lex.toLex_lt_toLex.2 (Or.inl (by omega)))

theorem decision_eq (decision : Option (Nat × Bool)) (tier : Nat) (granted : Bool) :
    (if decision.isNone then some (tier, granted) else foldTiered decision tier granted) =
      foldTiered decision tier granted := by
  cases decision <;> rfl

theorem foldTiered_isSome (decision : Option (Nat × Bool)) (tier : Nat) (granted : Bool) :
    ∃ d, foldTiered decision tier granted = some d := by
  unfold foldTiered
  cases decision with
  | none => exact ⟨_, rfl⟩
  | some d =>
    dsimp only
    split
    · exact ⟨_, rfl⟩
    · split
      · split <;> exact ⟨_, rfl⟩
      · exact ⟨_, rfl⟩

/-- **A fold step decides one name.** -/
theorem get?_foldPerm (tier : Nat) (granted : Bool) (decisions : Decisions) (perm p : String) :
    ((foldPerm tier granted decisions perm).get? p).join =
      if p = perm then foldTiered (decisions.get? perm).join tier granted else (decisions.get? p).join := by
  obtain ⟨d, hd⟩ := foldTiered_isSome (decisions.get? perm).join tier granted
  unfold foldPerm
  dsimp only
  rw [decision_eq, hd]
  dsimp only
  rw [HashMap.insert_remove, HashMap.get?_insert]
  by_cases hp : p = perm <;> simp [hp]

/-! ## The specification -/

/-- The verdicts on a name: every default grants at the group tier, and every visible row without a resource decides,
at the tier of its scope, each name its permission field expands to. -/
def VerdictOn (defaults : List String) (grants : List GrantRow) (now : Int) (p : String) (tier : Nat) (granted : Bool) :
    Prop :=
  (p ∈ defaults ∧ tier = scopeTier "group" ∧ granted = true) ∨
    ∃ grant ∈ grants, grant.resourceId = none ∧ isVisibleAt grant now = true ∧
      p ∈ expandGrantPermission grant.permission ∧ tier = scopeTier grant.scope ∧ granted = grant.granted

/-- **The specification**: the most specific tier with a verdict on the name grants it and does not deny it. -/
def Effective (defaults : List String) (grants : List GrantRow) (now : Int) (p : String) : Prop :=
  ∃ tier, VerdictOn defaults grants now p tier true ∧ ¬ VerdictOn defaults grants now p tier false ∧
    ∀ tier' granted, VerdictOn defaults grants now p tier' granted → tier ≤ tier'

/-- The verdicts on a name, as a set. -/
def verdictsOn (defaults : List String) (grants : List GrantRow) (now : Int) (p : String) : Set Verdict :=
  {v | VerdictOn defaults grants now p (ofLex v).1 (ofLex v).2}

/-- **A name is effective when its least verdict grants.** -/
theorem effective_iff_least {defaults : List String} {grants : List GrantRow} {now : Int} {p : String}
    {decision : Option (Nat × Bool)} (h : LeastOf (verdictsOn defaults grants now p) (asVerdict decision)) :
    Effective defaults grants now p ↔ decision.any Prod.snd = true := by
  constructor
  · rintro ⟨tier, hgrant, hdeny, hleast⟩
    have hd : LeastOf (verdictsOn defaults grants now p) (some (toLex (tier, true))) := by
      refine ⟨hgrant, fun v hv => ?_⟩
      obtain ⟨⟨t, b⟩, rfl⟩ := toLex.surjective v
      have hv' : VerdictOn defaults grants now p t b := hv
      rw [Prod.Lex.toLex_le_toLex]
      rcases lt_or_eq_of_le (hleast t b hv') with hlt | rfl
      · exact Or.inl hlt
      · cases b with
        | true => exact Or.inr ⟨rfl, le_refl true⟩
        | false => exact absurd hv' hdeny
    have heq := h.unique hd
    obtain ⟨d, rfl, hd'⟩ := Option.map_eq_some_iff.1 heq
    rw [toLex.injective hd']
    rfl
  · intro hany
    cases decision with
    | none => cases hany
    | some d =>
      obtain ⟨tier, granted⟩ := d
      obtain rfl : granted = true := hany
      have hmin : IsLeast (verdictsOn defaults grants now p) (toLex (tier, true)) := h
      refine ⟨tier, hmin.1, fun hdeny => ?_, fun tier' granted hv => ?_⟩
      · have hle := hmin.2 (show toLex (tier, false) ∈ verdictsOn defaults grants now p from hdeny)
        rw [Prod.Lex.toLex_le_toLex] at hle
        rcases hle with hlt | ⟨-, hle⟩
        · exact absurd hlt (Nat.lt_irrefl tier)
        · exact Bool.noConfusion (hle rfl)
      · have hle := hmin.2 (show toLex (tier', granted) ∈ verdictsOn defaults grants now p from hv)
        rw [Prod.Lex.toLex_le_toLex] at hle
        rcases hle with hlt | ⟨heq, -⟩
        · exact le_of_lt hlt
        · exact le_of_eq heq

/-! ## The fold -/

/-- Decisions that hold each name's least verdict. -/
def Settled (V : String → Set Verdict) (decisions : Decisions) : Prop :=
  ∀ p, LeastOf (V p) (asVerdict (decisions.get? p).join)

theorem settled_foldPerm {V : String → Set Verdict} {decisions : Decisions} (h : Settled V decisions) (tier : Nat)
    (granted : Bool) (perm : String) :
    Settled (fun p => V p ∪ {v | v = toLex (tier, granted) ∧ p = perm}) (foldPerm tier granted decisions perm) := by
  intro p
  dsimp only
  rw [get?_foldPerm]
  by_cases hp : p = perm
  · subst hp
    rw [if_pos rfl]
    convert leastOf_foldTiered tier granted (h p) using 1
    ext v
    simp [or_comm]
  · rw [if_neg hp]
    simpa [hp] using h p

/-- **A row's expansion adds its verdict to each of its names.** -/
theorem settled_foldl_foldPerm (tier : Nat) (granted : Bool) : ∀ (perms : List String) {V : String → Set Verdict}
    {decisions : Decisions}, Settled V decisions →
    Settled (fun p => V p ∪ {v | v = toLex (tier, granted) ∧ p ∈ perms})
      (perms.foldl (foldPerm tier granted) decisions)
  | [], V, decisions, h => by
    intro p
    simpa using h p
  | perm :: perms, V, decisions, h => by
    intro p
    have ih := settled_foldl_foldPerm tier granted perms (settled_foldPerm h tier granted perm) p
    rw [List.foldl_cons]
    convert ih using 1
    ext v
    simp only [Set.mem_union, Set.mem_ofPred_eq, List.mem_cons]
    tauto

/-- A row that is pinned to a resource or not visible gives no verdict. -/
theorem verdictsOn_skip {grant : GrantRow} {now : Int} (h : (grant.resourceId.isSome || !isVisibleAt grant now) = true)
    (defaults : List String) (grants : List GrantRow) (p : String) :
    verdictsOn defaults (grants ++ [grant]) now p = verdictsOn defaults grants now p := by
  ext v
  constructor
  · rintro (hd | ⟨g, hg, hflat, hvisible, hexpands, heq⟩)
    · exact Or.inl hd
    · rcases List.mem_append.1 hg with hg | hg
      · exact Or.inr ⟨g, hg, hflat, hvisible, hexpands, heq⟩
      · obtain rfl := List.mem_singleton.1 hg
        simp [hflat, hvisible] at h
  · rintro (hd | ⟨g, hg, hflat, hvisible, hexpands, heq⟩)
    · exact Or.inl hd
    · exact Or.inr ⟨g, List.mem_append_left _ hg, hflat, hvisible, hexpands, heq⟩

theorem verdictsOn_row {grant : GrantRow} {now : Int} (h : (grant.resourceId.isSome || !isVisibleAt grant now) = false)
    (defaults : List String) (grants : List GrantRow) (p : String) :
    verdictsOn defaults (grants ++ [grant]) now p = verdictsOn defaults grants now p ∪
      {v | v = toLex (scopeTier grant.scope, grant.granted) ∧ p ∈ expandGrantPermission grant.permission} := by
  rw [Bool.or_eq_false_iff, Bool.not_eq_false'] at h
  obtain ⟨hflat, hvisible⟩ := h
  have hflat : grant.resourceId = none := by simpa using hflat
  ext v
  constructor
  · rintro (hd | ⟨g, hg, hg', hvisible', hexpands, heq⟩)
    · exact Or.inl (Or.inl hd)
    · rcases List.mem_append.1 hg with hg | hg
      · exact Or.inl (Or.inr ⟨g, hg, hg', hvisible', hexpands, heq⟩)
      · obtain rfl := List.mem_singleton.1 hg
        exact Or.inr ⟨congrArg toLex (Prod.ext heq.1 heq.2), hexpands⟩
  · rintro ((hd | ⟨g, hg, hrest⟩) | ⟨rfl, hexpands⟩)
    · exact Or.inl hd
    · exact Or.inr ⟨g, List.mem_append_left _ hg, hrest⟩
    · exact Or.inr ⟨grant, List.mem_append_right _ List.mem_cons_self, hflat, hvisible, hexpands, rfl, rfl⟩

/-- **One row folded in settles the names on one more row.** -/
theorem settled_foldRow {defaults : List String} {grants : List GrantRow} {now : Int} {decisions : Decisions}
    (h : Settled (verdictsOn defaults grants now) decisions) (grant : GrantRow) :
    Settled (verdictsOn defaults (grants ++ [grant]) now) (foldRow now decisions grant) := by
  unfold foldRow
  intro p
  cases hskip : (grant.resourceId.isSome || !isVisibleAt grant now) with
  | true =>
    rw [if_pos rfl, verdictsOn_skip hskip]
    exact h p
  | false =>
    rw [if_neg (by decide), verdictsOn_row hskip]
    exact settled_foldl_foldPerm _ _ _ h p

theorem get?_seedDecisions (defaults : List String) (p : String) :
    ((seedDecisions defaults).get? p).join = if p ∈ defaults then some (scopeTier "group", true) else none := by
  have hfold : ∀ (l : List String) (m : Decisions),
      (((l.map (fun p => (p, some (scopeTier "group", true)))).foldl (fun m e => m.insert e.1 e.2) m).get? p).join =
        if p ∈ l then some (scopeTier "group", true) else (m.get? p).join := by
    intro l
    induction l with
    | nil => intro m; simp
    | cons x l ih =>
      intro m
      rw [List.map_cons, List.foldl_cons, ih, HashMap.get?_insert]
      by_cases hl : p ∈ l
      · simp [hl]
      · by_cases hx : p = x <;> simp [hl, hx]
  exact hfold defaults HashMap.empty

theorem settled_seed (defaults : List String) (now : Int) :
    Settled (verdictsOn defaults [] now) (seedDecisions defaults) := by
  intro p
  rw [get?_seedDecisions]
  by_cases hp : p ∈ defaults
  · rw [if_pos hp]
    refine ⟨Or.inl ⟨hp, rfl, rfl⟩, ?_⟩
    rintro v (⟨-, ht, hg⟩ | ⟨grant, hgrant, -⟩)
    · exact le_of_eq (congrArg toLex (Prod.ext ht hg)).symm
    · cases hgrant
  · rw [if_neg hp]
    refine Set.eq_empty_of_forall_notMem ?_
    rintro v (⟨hp', -⟩ | ⟨grant, hgrant, -⟩)
    · exact hp hp'
    · cases hgrant

/-- **The whole fold settles every name on all the rows.** -/
theorem settled_foldl_foldRow (defaults : List String) (now : Int) : ∀ (grants pre : List GrantRow) {decisions : Decisions},
    Settled (verdictsOn defaults pre now) decisions →
    Settled (verdictsOn defaults (pre ++ grants) now) (grants.foldl (foldRow now) decisions)
  | [], pre, decisions, h => by simpa using h
  | grant :: grants, pre, decisions, h => by
    have ih := settled_foldl_foldRow defaults now grants (pre ++ [grant]) (settled_foldRow h grant)
    simpa using ih

/-! ## The result -/

theorem mem_granted_iff (decisions : Decisions) (p : String) :
    p ∈ (decisions.entries.filter (fun e => e.2.any Prod.snd)).map Prod.fst ↔
      (decisions.get? p).join.any Prod.snd = true := by
  constructor
  · intro h
    obtain ⟨e, he, rfl⟩ := List.mem_map.1 h
    obtain ⟨hmem, hany⟩ := List.mem_filter.1 he
    rw [(decisions.get?_eq_some_iff e.1 e.2).2 hmem]
    exact hany
  · intro h
    cases hget : decisions.get? p with
    | none =>
      rw [hget] at h
      cases h
    | some verdict =>
      rw [hget] at h
      exact List.mem_map.2 ⟨(p, verdict), List.mem_filter.2 ⟨(decisions.get?_eq_some_iff p verdict).1 hget, h⟩, rfl⟩

theorem mem_resolveGrantRowsAt (defaults : List String) (grants : List GrantRow) (now : Int) (p : String) :
    p ∈ resolveGrantRowsAt defaults grants now ↔ Effective defaults grants now p := by
  have hsettled := settled_foldl_foldRow defaults now grants [] (settled_seed defaults now) p
  unfold resolveGrantRowsAt
  dsimp only
  rw [List.mem_mergeSort, mem_granted_iff]
  exact (effective_iff_least hsettled).symm

theorem resolveGrantRowsAt_sorted (defaults : List String) (grants : List GrantRow) (now : Int) :
    (resolveGrantRowsAt defaults grants now).Pairwise (· < ·) := by
  unfold resolveGrantRowsAt
  dsimp only
  generalize grants.foldl (foldRow now) (seedDecisions defaults) = decisions
  have hnodup : ((decisions.entries.filter (fun e => e.2.any Prod.snd)).map Prod.fst).Nodup := decisions.nodup_filter _
  generalize (decisions.entries.filter (fun e => e.2.any Prod.snd)).map Prod.fst = names at hnodup
  have hsorted : (names.mergeSort (fun a b => decide (a ≤ b))).Pairwise (fun a b => decide (a ≤ b) = true) := by
    apply List.pairwise_mergeSort
    · intro a b c hab hbc
      exact decide_eq_true (le_trans (of_decide_eq_true hab) (of_decide_eq_true hbc))
    · intro a b
      simpa using le_total a b
  have hne : (names.mergeSort (fun a b => decide (a ≤ b))).Pairwise (· ≠ ·) :=
    (List.mergeSort_perm names _).nodup_iff.2 hnodup
  exact (hsorted.and hne).imp (fun h => lt_of_le_of_ne (of_decide_eq_true h.1) h.2)

theorem effective_congr {defaults defaults' : List String} {grants grants' : List GrantRow} {now : Int}
    (hd : ∀ p, p ∈ defaults' ↔ p ∈ defaults)
    (hg : ∀ grant : GrantRow, grant.resourceId = none → isVisibleAt grant now = true → (grant ∈ grants' ↔ grant ∈ grants))
    (p : String) : Effective defaults' grants' now p ↔ Effective defaults grants now p := by
  have hverdict : ∀ tier granted, VerdictOn defaults' grants' now p tier granted ↔
      VerdictOn defaults grants now p tier granted := by
    intro tier granted
    unfold VerdictOn
    rw [hd p]
    refine or_congr_right (exists_congr (fun grant => ?_))
    constructor
    · rintro ⟨hmem, hflat, hvisible, hrest⟩
      exact ⟨(hg grant hflat hvisible).1 hmem, hflat, hvisible, hrest⟩
    · rintro ⟨hmem, hflat, hvisible, hrest⟩
      exact ⟨(hg grant hflat hvisible).2 hmem, hflat, hvisible, hrest⟩
  unfold Effective
  simp only [hverdict]

/-- **The fold is its specification and reads its lists as sets**: the result is the sorted, duplicate-free list of the
effective names, and it stays the same when the defaults are any list of the same names and the rows any list with the
same visible flat rows, whatever their order, their number and the expired or pinned rows among them. -/
theorem resolveGrantRowsAt_spec (defaults : List String) (grants : List GrantRow) (now : Int) :
    (resolveGrantRowsAt defaults grants now).Pairwise (· < ·) ∧
      (∀ p, p ∈ resolveGrantRowsAt defaults grants now ↔ Effective defaults grants now p) ∧
      ∀ (defaults' : List String) (grants' : List GrantRow), (∀ p, p ∈ defaults' ↔ p ∈ defaults) →
        (∀ grant : GrantRow, grant.resourceId = none → isVisibleAt grant now = true →
          (grant ∈ grants' ↔ grant ∈ grants)) →
        resolveGrantRowsAt defaults' grants' now = resolveGrantRowsAt defaults grants now := by
  refine ⟨resolveGrantRowsAt_sorted defaults grants now, mem_resolveGrantRowsAt defaults grants now, ?_⟩
  intro defaults' grants' hd hg
  refine List.Pairwise.eq_of_mem_iff (resolveGrantRowsAt_sorted defaults' grants' now)
    (resolveGrantRowsAt_sorted defaults grants now) (fun p => ?_)
  rw [mem_resolveGrantRowsAt, mem_resolveGrantRowsAt]
  exact effective_congr hd hg p

end Rbac
end Kirino
