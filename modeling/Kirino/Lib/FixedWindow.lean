import Mathlib.Data.Nat.Basic
/-!
# FixedWindow — a counter with a fixed window and a lockout

A window opens at its first attempt and counts the attempts that it admits.  A full window refuses until the lockout is
over; one with room left ends with its window, and the next attempt opens another.  Starts are a window apart, so that an
interval of the length of a window meets two of them at most (`Within`).
-/
namespace Kirino
namespace Lib

/-- The most attempts of a window, its length, and the time from its start to the end of a lockout. -/
structure WindowPolicy where
  max : Nat
  window : Nat
  total : Nat
  one_le_max : 1 ≤ max
  window_le_total : window ≤ total

/-- A window that was opened, and the attempts that it admitted. -/
structure Window where
  start : Nat
  count : Nat
deriving DecidableEq, Repr

namespace WindowPolicy
variable (p : WindowPolicy)

/-- What is left of a lockout. -/
def refuses (w : Option Window) (now : Nat) : Option Nat :=
  match w with
  | none => none
  | some w => if p.max ≤ w.count ∧ now < w.start + p.total then some (w.start + p.total - now) else none

/-- The window after an attempt. -/
def next (w : Option Window) (now : Nat) : Window :=
  match w with
  | none => ⟨now, 1⟩
  | some w =>
    if p.max ≤ w.count then (if now < w.start + p.total then w else ⟨now, 1⟩)
    else if now ≤ w.start + p.window then ⟨w.start, w.count + 1⟩
    else ⟨now, 1⟩

/-- The window is over: its lockout, or, with room left, its time. -/
def Lapsed (v : Window) (now : Nat) : Prop :=
  (p.max ≤ v.count ∧ v.start + p.total ≤ now) ∨ (v.count < p.max ∧ v.start + p.window < now)

variable {p}

theorem window_le_of_lapsed {v : Window} {now : Nat} (h : p.Lapsed v now) : v.start + p.window ≤ now := by
  have hle := p.window_le_total
  rcases h with ⟨-, h⟩ | ⟨-, h⟩ <;> omega

/-- **What an attempt does**: it is refused by a full window, counted by one with room, or opens a new one after a window
that is over. -/
theorem next_cases (w : Option Window) (now : Nat) :
    (∃ v, w = some v ∧ p.max ≤ v.count ∧ now < v.start + p.total ∧ p.refuses w now = some (v.start + p.total - now) ∧
        p.next w now = v) ∨
      (∃ v, w = some v ∧ v.count < p.max ∧ now ≤ v.start + p.window ∧ p.refuses w now = none ∧
        p.next w now = ⟨v.start, v.count + 1⟩) ∨
      ((∀ v, w = some v → p.Lapsed v now) ∧ p.refuses w now = none ∧ p.next w now = ⟨now, 1⟩) := by
  cases w with
  | none => exact Or.inr (Or.inr ⟨nofun, rfl, rfl⟩)
  | some v =>
    unfold refuses next
    dsimp only
    by_cases hfull : p.max ≤ v.count
    · by_cases hlocked : now < v.start + p.total
      · rw [if_pos ⟨hfull, hlocked⟩, if_pos hfull, if_pos hlocked]
        exact Or.inl ⟨v, rfl, hfull, hlocked, rfl, rfl⟩
      · rw [if_neg (fun h => hlocked h.2), if_pos hfull, if_neg hlocked]
        refine Or.inr (Or.inr ⟨fun u hu => ?_, rfl, rfl⟩)
        obtain rfl := Option.some.inj hu
        exact Or.inl ⟨hfull, Nat.le_of_not_lt hlocked⟩
    · rw [if_neg (fun h => hfull h.1), if_neg hfull]
      by_cases hopen : now ≤ v.start + p.window
      · rw [if_pos hopen]
        exact Or.inr (Or.inl ⟨v, rfl, Nat.lt_of_not_le hfull, hopen, rfl, rfl⟩)
      · rw [if_neg hopen]
        refine Or.inr (Or.inr ⟨fun u hu => ?_, rfl, rfl⟩)
        obtain rfl := Option.some.inj hu
        exact Or.inr ⟨Nat.lt_of_not_le hfull, Nat.lt_of_not_le hopen⟩

theorem count_next_le {w : Option Window} (h : ∀ v, w = some v → v.count ≤ p.max) (now : Nat) :
    (p.next w now).count ≤ p.max := by
  rcases next_cases (p := p) w now with ⟨v, hw, -, -, -, hnext⟩ | ⟨v, -, hroom, -, -, hnext⟩ | ⟨-, -, hnext⟩
  · rw [hnext]
    exact h v hw
  · rw [hnext]
    exact hroom
  · rw [hnext]
    exact p.one_le_max

/-! ## An interval of the length of a window -/

/-- After attempts up to an instant, `c` of them admitted in the interval from `begin`: the window that is open, by where
it started, bounds them. -/
structure Within (p : WindowPolicy) (begin : Nat) (w : Option Window) (last c : Nat) : Prop where
  started : ∀ v, w = some v → v.start ≤ last ∧ v.count ≤ p.max
  none : w = none → c = 0
  fresh : last < begin → c = 0
  before : ∀ v, w = some v → v.start < begin → c ≤ v.count
  inside : ∀ v, w = some v → begin ≤ v.start → v.start < begin + p.window → c ≤ p.max + v.count
  after : ∀ v, w = some v → begin + p.window ≤ v.start → c ≤ p.max + p.max

theorem within_none (p : WindowPolicy) (begin : Nat) : Within p begin none 0 0 :=
  ⟨nofun, fun _ => rfl, fun _ => rfl, nofun, nofun, nofun⟩

theorem Within.wait {begin last last' c : Nat} {w : Option Window} (h : Within p begin w last c) (hlast : last ≤ last') :
    Within p begin w last' c :=
  ⟨fun v hv => ⟨Nat.le_trans (h.started v hv).1 hlast, (h.started v hv).2⟩, h.none, fun hlt => h.fresh (by omega), h.before,
    h.inside, h.after⟩

/-- **Two windows at most** meet the interval. -/
theorem Within.le {begin last c : Nat} {w : Option Window} (h : Within p begin w last c) : c ≤ 2 * p.max := by
  cases w with
  | none =>
    rw [h.none rfl]
    exact Nat.zero_le _
  | some v =>
    have hcount := (h.started v rfl).2
    by_cases hbefore : v.start < begin
    · have := h.before v rfl hbefore
      omega
    · by_cases hinside : v.start < begin + p.window
      · have := h.inside v rfl (Nat.le_of_not_lt hbefore) hinside
        omega
      · have := h.after v rfl (Nat.le_of_not_lt hinside)
        omega

/-- The attempt is admitted, in the interval. -/
def countsAt (p : WindowPolicy) (begin : Nat) (w : Option Window) (now : Nat) : Nat :=
  if p.refuses w now = none ∧ begin ≤ now ∧ now < begin + p.window then 1 else 0

theorem countsAt_le (begin : Nat) (w : Option Window) (now : Nat) : countsAt p begin w now ≤ 1 := by
  unfold countsAt
  split <;> omega

theorem countsAt_of_outside {begin now : Nat} (w : Option Window) (h : now < begin ∨ begin + p.window ≤ now) :
    countsAt p begin w now = 0 := by
  unfold countsAt
  rw [if_neg (by omega)]

theorem countsAt_of_refused {now remaining : Nat} {w : Option Window} (h : p.refuses w now = some remaining)
    (begin : Nat) : countsAt p begin w now = 0 := by
  unfold countsAt
  rw [h, if_neg (by simp)]

/-- An attempt that the open window counts. -/
theorem Within.counted {begin last c now : Nat} {v : Window} (h : Within p begin (some v) last c) (hlast : last ≤ now)
    (hroom : v.count < p.max) :
    Within p begin (some ⟨v.start, v.count + 1⟩) now (c + countsAt p begin (some v) now) := by
  have hadmitted := countsAt_le (p := p) begin (some v) now
  have hstart := (h.started v rfl).1
  refine ⟨?_, nofun, fun hlt => ?_, ?_, ?_, ?_⟩
  · rintro _ ⟨⟩
    exact ⟨by dsimp only; omega, hroom⟩
  · rw [h.fresh (by omega), countsAt_of_outside _ (Or.inl hlt)]
  · rintro _ ⟨⟩ hbefore
    have := h.before v rfl hbefore
    dsimp only
    omega
  · rintro _ ⟨⟩ hbegin hinside
    have := h.inside v rfl hbegin hinside
    dsimp only
    omega
  · rintro _ ⟨⟩ hafter
    rw [countsAt_of_outside _ (Or.inr (by dsimp only at hafter; omega))]
    exact h.after v rfl hafter

/-- The windows that are over count no more than one window when a new one starts inside the interval. -/
theorem Within.le_of_lapsed {begin last c now : Nat} {w : Option Window} (h : Within p begin w last c)
    (hlater : ∀ v, w = some v → p.Lapsed v now) (hinside : now < begin + p.window) : c ≤ p.max := by
  cases w with
  | none =>
    rw [h.none rfl]
    exact Nat.zero_le _
  | some v =>
    -- the window before lies a whole window back, so that it is not inside the interval as well
    have hstart := window_le_of_lapsed (hlater v rfl)
    have := h.before v rfl (by omega)
    have := (h.started v rfl).2
    omega

/-- An attempt that opens a window. -/
theorem Within.opened {begin last c now : Nat} {w : Option Window} (h : Within p begin w last c) (hlast : last ≤ now)
    (hlater : ∀ v, w = some v → p.Lapsed v now) : Within p begin (some ⟨now, 1⟩) now (c + countsAt p begin w now) := by
  have hmax := p.one_le_max
  have hadmitted := countsAt_le (p := p) begin w now
  refine ⟨?_, nofun, fun hlt => ?_, ?_, ?_, ?_⟩
  · rintro _ ⟨⟩
    exact ⟨Nat.le_refl _, hmax⟩
  · rw [h.fresh (by omega), countsAt_of_outside _ (Or.inl hlt)]
  · rintro _ ⟨⟩ hlt
    dsimp only at hlt ⊢
    have := h.fresh (by omega)
    omega
  · rintro _ ⟨⟩ - hinside
    have := h.le_of_lapsed hlater hinside
    dsimp only
    omega
  · rintro _ ⟨⟩ hafter
    rw [countsAt_of_outside _ (Or.inr hafter)]
    have := h.le
    omega

theorem Within.attempt {begin last c now : Nat} {w : Option Window} (h : Within p begin w last c) (hlast : last ≤ now) :
    Within p begin (some (p.next w now)) now (c + countsAt p begin w now) := by
  rcases next_cases (p := p) w now with ⟨v, rfl, -, -, hrefuses, hnext⟩ | ⟨v, rfl, hroom, -, -, hnext⟩ | ⟨hlater, -, hnext⟩
  · rw [hnext, countsAt_of_refused hrefuses, Nat.add_zero]
    exact h.wait hlast
  · rw [hnext]
    exact h.counted hlast hroom
  · rw [hnext]
    exact h.opened hlast hlater

end WindowPolicy
end Lib
end Kirino
