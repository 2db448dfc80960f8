import Kirino.Lib.HashMap
import Kirino.Lib.MachineInt
/-!
# Records — keys on record with an instant, and the sweeps of such a map

A map from keys to instants is a register of what happened when.  `Recorded` says that a key is on record with one of a
set of instants; an insertion keeps it when it inserts one of them, a sweep keeps it unless it drops one.  A sweep whose
test may panic stops at the first entry that does (`tryRetain`); a bounded register sweeps what is older than a cutoff
when an insertion takes it over its cap (`insertSweep`).
-/
namespace Kirino
namespace Lib
namespace HashMap

section TryRetain
variable {K V : Type}

/-- The elements the test accepts, up to the first at which it panics, and what the walk did not reach. -/
def tryFilter {α : Type} (f : α → Option Bool) : List α → List α
  | [] => []
  | a :: l =>
    match f a with
    | some true => a :: tryFilter f l
    | some false => tryFilter f l
    | none => a :: l

theorem tryFilter_sublist {α : Type} (f : α → Option Bool) : ∀ l : List α, (tryFilter f l).Sublist l
  | [] => List.Sublist.refl []
  | a :: l => by
    unfold tryFilter
    split
    · exact (tryFilter_sublist f l).cons_cons a
    · exact (tryFilter_sublist f l).cons a
    · exact List.Sublist.refl _

theorem mem_tryFilter {α : Type} {f : α → Option Bool} {a : α} (hf : f a ≠ some false) :
    ∀ {l : List α}, a ∈ l → a ∈ tryFilter f l
  | b :: l, h => by
    unfold tryFilter
    rcases List.mem_cons.1 h with rfl | h
    · split
      · exact List.mem_cons_self
      · exact absurd ‹_› hf
      · exact List.mem_cons_self
    · split
      · exact List.mem_cons_of_mem b (mem_tryFilter hf h)
      · exact mem_tryFilter hf h
      · exact List.mem_cons_of_mem b h

/-- A sweep whose test may panic; the first answer is `none` when it did. -/
def tryRetain (m : HashMap K V) (f : K → V → Option Bool) : Option Unit × HashMap K V :=
  (if m.entries.all (fun e => (f e.1 e.2).isSome) then some () else none,
    ⟨tryFilter (fun e => f e.1 e.2) m.entries, m.nodup.sublist ((tryFilter_sublist _ _).map Prod.fst)⟩)

variable [DecidableEq K]

/-- A sweep drops only what its test rejects. -/
theorem get?_tryRetain {m : HashMap K V} {f : K → V → Option Bool} {k : K} {v : V} (h : m.get? k = some v)
    (hf : f k v ≠ some false) : (m.tryRetain f).2.get? k = some v := by
  rw [get?_eq_some_iff] at h ⊢
  exact mem_tryFilter (a := (k, v)) hf h

end TryRetain

section Recorded
variable {K : Type} [DecidableEq K] {m : HashMap K Int} {k k' : K} {floor x : Int} {S : Int → Prop} {P : Prop}

/-- The key is on record with one of the instants. -/
def Recorded (m : HashMap K Int) (k : K) (S : Int → Prop) : Prop := ∃ x, m.get? k = some x ∧ S x

/-- The key is on record with an instant not before the floor. -/
abbrev RecordedFrom (m : HashMap K Int) (k : K) (floor : Int) : Prop := m.Recorded k (fun x => floor ≤ x)

theorem recorded_insert_self (h : S x) : (m.insert k x).Recorded k S := ⟨x, get?_insert_self m k x, h⟩

theorem recorded_insert (h : k = k' → S x) (hm : m.Recorded k S) : (m.insert k' x).Recorded k S := by
  by_cases hk : k = k'
  · subst hk
    exact recorded_insert_self (h rfl)
  · obtain ⟨y, hy, hS⟩ := hm
    exact ⟨y, by rw [get?_insert_of_ne m x hk, hy], hS⟩

/-- **A sweep keeps a record, unless it drops one of the instants.** -/
theorem recorded_retain {f : K → Int → Bool} (hf : ∀ x, m.get? k = some x → S x → f k x = false → P)
    (hm : m.Recorded k S) : (m.retain f).Recorded k S ∨ P := by
  obtain ⟨x, hx, hS⟩ := hm
  cases hfx : f k x with
  | true => exact Or.inl ⟨x, (get?_retain_eq_some m f k x).2 ⟨hx, hfx⟩, hS⟩
  | false => exact Or.inr (hf x hx hS hfx)

theorem recorded_tryRetain {f : K → Int → Option Bool} (hf : ∀ x, S x → f k x = some false → P)
    (hm : m.Recorded k S) : (m.tryRetain f).2.Recorded k S ∨ P := by
  obtain ⟨x, hx, hS⟩ := hm
  by_cases hfx : f k x = some false
  · exact Or.inr (hf x hS hfx)
  · exact Or.inl ⟨x, get?_tryRetain hx hfx, hS⟩

/-- An insertion at an instant, and above the cap a sweep of what is older than the cutoff; the cutoff is `none` when its
computation panics. -/
def insertSweep (m : HashMap K Int) (cap : Nat) (k : K) (now : Int) (cutoff : Option Int) :
    Option Unit × HashMap K Int :=
  let map := m.insert k now
  if map.len > cap then
    match cutoff with
    | some cutoff => (some (), map.retain (fun _ x => decide (x ≥ cutoff)))
    | none => (none, map)
  else (some (), map)

variable {cap : Nat} {now : Int} {cutoff : Option Int}

theorem insertSweep_of_le (h : (m.insert k now).len ≤ cap) :
    m.insertSweep cap k now cutoff = (some (), m.insert k now) :=
  if_neg (Nat.not_lt.2 h)

/-- **A bounded insertion keeps a record, unless its sweep drops one of the instants.** -/
theorem recorded_insertSweep
    (hdrop : ∀ x limit, (m.insert k' now).get? k = some x → S x → cap < (m.insert k' now).len → cutoff = some limit →
      x < limit → P)
    (hm : (m.insert k' now).Recorded k S) : (m.insertSweep cap k' now cutoff).2.Recorded k S ∨ P := by
  unfold insertSweep
  dsimp only
  split
  · rename_i hcap
    cases hcut : cutoff with
    | none => exact Or.inl hm
    | some limit =>
      refine recorded_retain (fun x hx hS h => ?_) hm
      exact hdrop x limit hx hS hcap hcut (Int.not_le.1 (of_decide_eq_false h))
  · exact Or.inl hm

/-- The key inserted survives the sweep, the cutoff being no later than the insertion. -/
theorem recorded_insertSweep_self (hcut : ∀ limit, cutoff = some limit → limit ≤ now) :
    (m.insertSweep cap k now cutoff).2.Recorded k (fun x => x = now) := by
  have hins : (m.insert k now).Recorded k (fun x => x = now) := recorded_insert_self rfl
  refine (recorded_insertSweep (P := False) (fun x limit _ hx _ hlimit hlt => ?_) hins).resolve_right id
  have := hcut limit hlimit
  omega

end Recorded

end HashMap
end Lib
end Kirino
