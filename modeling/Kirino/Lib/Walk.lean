import Mathlib.Data.List.Basic
import Mathlib.Data.List.DropRight
/-!
# Walk — paths in a tree, and their text

A path is walked leg by leg from a place, and climbing at the root stays there (`walk`).  What a path amounts to is read
from its last leg back: how far it climbs above where it starts, and which names stand below that (`net`); the walk drops
the first many names of the place and adds the second (`walk_eq`).  The second part is about the text of a list of names
joined by a separator: splitting it gives the names back, and one text with a separator behind it starts another exactly
when the names of the second strictly extend those of the first.
-/
namespace Kirino
namespace Lib

section Walk
variable {N : Type}

inductive Leg (N : Type) where
  | stay
  | up
  | down (name : N)
deriving DecidableEq, Repr

/-- The place one leg leads to; above the root there is nothing. -/
def Leg.go (place : List N) : Leg N → List N
  | .stay => place
  | .up => place.dropLast
  | .down name => place ++ [name]

def walk (start : List N) (legs : List (Leg N)) : List N := legs.foldl Leg.go start

/-- How many places the path climbs above its start, and the names it then goes down. -/
def net : List (Leg N) → Nat × List N
  | [] => (0, [])
  | .stay :: legs => net legs
  | .up :: legs => ((net legs).1 + 1, (net legs).2)
  | .down name :: legs =>
    match net legs with
    | (0, names) => (0, name :: names)
    | (n + 1, names) => (n, names)

/-- **A walk is what its path amounts to**: it loses as many names of its start as it climbs, then gains the net names. -/
theorem walk_eq (start : List N) (legs : List (Leg N)) : walk start legs = start.rdrop (net legs).1 ++ (net legs).2 := by
  induction legs generalizing start with
  | nil => simp [walk, net]
  | cons leg legs ih =>
    have hstep : walk start (leg :: legs) = walk (leg.go start) legs := rfl
    rw [hstep, ih]
    cases leg with
    | stay => rfl
    | up =>
      have hdrop : start.dropLast.rdrop (net legs).1 = start.rdrop ((net legs).1 + 1) := by
        simp only [List.rdrop, List.dropLast_eq_take, List.take_take, List.length_take]
        congr 1
        omega
      simp only [Leg.go, net, hdrop]
    | down name =>
      simp only [Leg.go, net]
      split
      · next names hnet => simp [hnet]
      · next n names hnet => simp [hnet, List.rdrop_concat_succ]

/-- From the root nothing can be lost. -/
theorem walk_root (legs : List (Leg N)) : walk [] legs = (net legs).2 := by
  rw [walk_eq, List.rdrop_nil, List.nil_append]

/-- The net names are names of the path. -/
theorem down_mem_of_mem_net {legs : List (Leg N)} {name : N} (h : name ∈ (net legs).2) : Leg.down name ∈ legs := by
  induction legs with
  | nil => simp [net] at h
  | cons leg legs ih =>
    cases leg with
    | stay => exact List.mem_cons_of_mem _ (ih h)
    | up => exact List.mem_cons_of_mem _ (ih h)
    | down other =>
      simp only [net] at h
      split at h
      · next names hnet =>
        rcases List.mem_cons.1 h with rfl | hmem
        · exact List.mem_cons_self
        · exact List.mem_cons_of_mem _ (ih (by rw [hnet]; exact hmem))
      · next n names hnet => exact List.mem_cons_of_mem _ (ih (by rw [hnet]; exact h))

/-- A path that only goes down amounts to its names. -/
theorem net_map_down (names : List N) : net (names.map Leg.down) = (0, names) := by
  induction names with
  | nil => rfl
  | cons name names ih => simp only [List.map_cons, net, ih]

end Walk

section Text
variable {α : Type} {separator : α}

theorem intercalate_append {names rest : List (List α)} (hne : names ≠ []) (hrest : rest ≠ []) :
    [separator].intercalate (names ++ rest) = [separator].intercalate names ++ separator :: [separator].intercalate rest := by
  induction names with
  | nil => exact absurd rfl hne
  | cons name names ih =>
    cases names with
    | nil => simp [List.intercalate_cons_of_ne_nil hrest]
    | cons next names =>
      rw [List.cons_append, List.cons_append, List.intercalate_cons_cons, List.intercalate_cons_cons, ← List.cons_append,
        ih (by simp)]
      simp

variable [DecidableEq α]

theorem not_mem_of_mem_splitOn {xs part : List α} (h : part ∈ xs.splitOn separator) : separator ∉ part := by
  induction xs generalizing part with
  | nil =>
    rw [List.splitOn_nil, List.mem_singleton] at h
    simp [h]
  | cons x xs ih =>
    rw [List.splitOn_cons_eq_if_modifyHead] at h
    obtain ⟨first, rest, hsplit⟩ := List.exists_cons_of_ne_nil (List.splitOn_ne_nil separator xs)
    rw [hsplit] at h ih
    split at h
    · rcases List.mem_cons.1 h with rfl | hmem
      · simp
      · exact ih hmem
    · next hx =>
      rcases List.mem_cons.1 h with rfl | hmem
      · have hfirst := ih (List.mem_cons_self)
        have hne : separator ≠ x := fun heq => hx (by simp [heq])
        simp [hne, hfirst]
      · exact ih (List.mem_cons_of_mem _ hmem)

/-- A text has two parts exactly when the separator is in it once, between them. -/
theorem splitOn_eq_pair_iff {xs front back : List α} :
    xs.splitOn separator = [front, back] ↔ xs = front ++ separator :: back ∧ separator ∉ front ∧ separator ∉ back := by
  constructor
  · intro h
    have hjoin : [separator].intercalate (xs.splitOn separator) = xs := List.intercalate_splitOn separator
    have hfront : front ∈ xs.splitOn separator := by simp [h]
    have hback : back ∈ xs.splitOn separator := by simp [h]
    rw [h, List.intercalate_cons_cons, List.intercalate_singleton] at hjoin
    exact ⟨by simpa using hjoin.symm, not_mem_of_mem_splitOn hfront, not_mem_of_mem_splitOn hback⟩
  · rintro ⟨rfl, hfront, hback⟩
    rw [List.splitOn_append_cons_self_of_not_mem hfront, List.splitOn_eq_singleton hback]

/-- Splitting a joined list and what follows the separator behind it. -/
theorem splitOn_intercalate_append {names : List (List α)} (hnames : ∀ name ∈ names, separator ∉ name) (hne : names ≠ [])
    (rest : List α) :
    ([separator].intercalate names ++ separator :: rest).splitOn separator = names ++ rest.splitOn separator := by
  rw [List.splitOn_append_cons_self, List.splitOn_intercalate separator hnames hne]

/-- **One text starts the other exactly when its names are strictly extended**: the separator behind the first is what
keeps a longer name apart from a further name. -/
theorem joined_start_iff {names others : List (List α)} (hnames : ∀ name ∈ names, separator ∉ name) (hne : names ≠ [])
    (hothers : ∀ name ∈ others, separator ∉ name) :
    [separator].intercalate names ++ [separator] <+: [separator].intercalate others ↔
      ∃ rest, rest ≠ [] ∧ others = names ++ rest := by
  constructor
  · rintro ⟨rest, hrest⟩
    rw [List.append_assoc, List.singleton_append] at hrest
    have hsplit := splitOn_intercalate_append hnames hne rest
    have hothersNe : others ≠ [] := by
      rintro rfl
      simp [List.intercalate_nil] at hrest
    rw [hrest, List.splitOn_intercalate separator hothers hothersNe] at hsplit
    exact ⟨rest.splitOn separator, List.splitOn_ne_nil separator rest, hsplit⟩
  · rintro ⟨rest, hrest, rfl⟩
    refine ⟨[separator].intercalate rest, ?_⟩
    rw [intercalate_append hne hrest]
    simp

end Text

end Lib
end Kirino
