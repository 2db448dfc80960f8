import Mathlib.Tactic.TypeStar
/-!
# Fallible — what a successful computation went through

A call that returned a value passed each of its steps: the rules for taking apart a sequence of fallible steps, and a
step whose error is rewritten on the way out.
-/
namespace Kirino
namespace Lib

variable {α β ε ε' : Type*}

theorem ok_of_bind {x : Except ε α} {f : α → Except ε β} {b : β} (h : x.bind f = .ok b) : ∃ a, x = .ok a ∧ f a = .ok b := by
  cases x with
  | error e => cases h
  | ok a => exact ⟨a, rfl, h⟩

theorem ok_of_mapError {x : Except ε α} {g : ε → ε'} {a : α} (h : x.mapError g = .ok a) : x = .ok a := by
  cases x with
  | error e => cases h
  | ok b => exact congrArg Except.ok (Except.ok.inj h)

theorem ok_of_map {x : Except ε α} {g : α → β} {b : β} (h : x.map g = .ok b) : ∃ a, x = .ok a ∧ g a = b := by
  cases x with
  | error e => cases h
  | ok a => exact ⟨a, rfl, Except.ok.inj h⟩

theorem toOption_eq_some_iff {x : Except ε α} {a : α} : x.toOption = some a ↔ x = .ok a := by
  cases x with
  | error e => simp [Except.toOption]
  | ok b => simp [Except.toOption]

/-- A sequence fails when its first step does, or a later one after it. -/
theorem bind_eq_error_iff {x : Except ε α} {f : α → Except ε β} {e : ε} :
    x.bind f = .error e ↔ x = .error e ∨ ∃ a, x = .ok a ∧ f a = .error e := by
  cases x with
  | error e' => simp [Except.bind]
  | ok a => simp [Except.bind]

/-- **Checks made one after the other succeed exactly when each does.** -/
theorem forM_eq_ok_iff {f : α → Except ε PUnit} : ∀ l : List α, l.forM f = .ok ⟨⟩ ↔ ∀ x ∈ l, f x = .ok ⟨⟩
  | [] => by simp [List.forM, pure, Except.pure]
  | x :: l => by
    have hcons : (x :: l).forM f = (f x).bind (fun _ => l.forM f) := rfl
    rw [hcons, List.forall_mem_cons, ← forM_eq_ok_iff l]
    cases f x with
    | error e => simp [Except.bind]
    | ok u => simp [Except.bind]

end Lib
end Kirino
