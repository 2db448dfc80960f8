import Kirino.Lib.Threads
/-!
# WriteBack — calls that write back what they made of an earlier read

A call reads a view of the shared state in one step, carries what it made of it through others, and writes it back in a
last one.  Where no write falls between a call's read and its write (`StayCurrent`), the call writes what it made of the
view that it replaces (`made_at`).
-/
namespace Kirino
namespace Lib
namespace Program

variable {σ τ α ε ο υ : Type}

/-- The view that calls read and write back, and what a call has made of it. -/
structure WriteBack (σ τ υ : Type) where
  view : σ → υ
  Reads : τ → Prop
  Writes : τ → Prop
  Carries : τ → Prop
  Made : τ → υ → Prop

namespace WriteBack

variable (C : WriteBack σ τ υ) (prog : Program σ τ α ε ο)

/-- Event `r` is a step at which call `i` reads the view. -/
def ReadsAt (p₀ : Pool σ τ) (es : List (PoolEvent τ α ε)) (r i : Nat) : Prop :=
  ∃ input t, prog.StepsAt p₀ es r i input t ∧ C.Reads t

/-- Event `n` is a step at which call `i` writes the view. -/
def WritesAt (p₀ : Pool σ τ) (es : List (PoolEvent τ α ε)) (n i : Nat) : Prop :=
  ∃ input t, prog.StepsAt p₀ es n i input t ∧ C.Writes t

/-- **No write falls between a call's read of the view and its write.** -/
def StayCurrent (p₀ : Pool σ τ) (es : List (PoolEvent τ α ε)) : Prop :=
  ∀ i r n, C.ReadsAt prog p₀ es r i → C.WritesAt prog p₀ es n i → ∀ k j, r < k → k < n → ¬ C.WritesAt prog p₀ es k j

/-- What the accepted events do with the view, under an invariant of the shared state and a fact about each call. -/
structure Lawful (Ok : PoolEvent τ α ε → Prop) (J : σ → Prop) (L : σ → τ → Prop) : Prop where
  spawn : ∀ s t, Ok (.spawn t) → J s → L s t ∧ ¬ C.Carries t
  next : ∀ i input s t, Ok (.step i input) → J s → L s t →
    J (prog.next i input s t).1 ∧ L (prog.next i input s t).1 (prog.next i input s t).2.1 ∧
      (C.Carries (prog.next i input s t).2.1 →
        C.Reads t ∧ C.Made (prog.next i input s t).2.1 (C.view s) ∨
          C.Carries t ∧ ∀ v, C.Made t v → C.Made (prog.next i input s t).2.1 v)
  other : ∀ i input s t t', Ok (.step i input) → J s → L s t → L s t' → L (prog.next i input s t).1 t'
  quiet : ∀ i input s t, Ok (.step i input) → ¬ C.Writes t → C.view (prog.next i input s t).1 = C.view s
  env : ∀ e s, Ok (.env e) → J s →
    J (prog.env e s).1 ∧ C.view (prog.env e s).1 = C.view s ∧ ∀ t, L s t → L (prog.env e s).1 t
  reads : ∀ t, C.Reads t → ¬ C.Writes t

variable {C prog} {Ok : PoolEvent τ α ε → Prop} {J : σ → Prop} {L : σ → τ → Prop} {s : σ} {es : List (PoolEvent τ α ε)}

/-- An event that does not write leaves the view alone. -/
theorem Lawful.view_step (hC : C.Lawful prog Ok J L) {p : Pool σ τ} {e : PoolEvent τ α ε} (he : Ok e) (hJ : J p.shared)
    (hnot : ∀ i input t, e = .step i input → p.threads[i]? = some t → ¬ C.Writes t) :
    C.view (prog.machine.step p e).shared = C.view p.shared := by
  cases e with
  | spawn t => rfl
  | env x => exact (hC.env x p.shared he hJ).2.1
  | step i input =>
    cases ht : p.threads[i]? with
    | none => rw [(prog.machine_step_none ht input).1]
    | some t =>
      rw [(prog.machine_step ht input).1]
      exact hC.quiet i input p.shared t he (hnot i input t rfl ht)

/-- What is known of a call: its fact, and the read of what it carries. -/
def Life (C : WriteBack σ τ υ) (prog : Program σ τ α ε ο) (L : σ → τ → Prop) (s₀ : σ) (es : List (PoolEvent τ α ε))
    (i : Nat) (s : σ) (t : τ) : Prop :=
  L s t ∧ (C.Carries t → ∃ r, C.ReadsAt prog ⟨s₀, []⟩ es r i ∧
    C.Made t (C.view (prog.machine.run ⟨s₀, []⟩ (es.take r)).shared))

/-- **The calls of a run**: the invariant holds, and a call that carries something has read the view. -/
theorem Lawful.life_run (hC : C.Lawful prog Ok J L) (hs : J s) (hes : ∀ e ∈ es, Ok e) :
    PoolInv J (C.Life prog L s es) (prog.machine.run ⟨s, []⟩ es) := by
  refine prog.machine.run_history (fun _ e => Ok e) (fun es p => PoolInv J (C.Life prog L s es) p) ⟨s, []⟩
    (PoolInv.empty _ hs) ?_ es (prog.machine.along_of_forall _ _ _ (fun _ => hes))
  intro es e h he
  have hkeep : ∀ (i : Nat) (t : τ), (∃ r, C.ReadsAt prog ⟨s, []⟩ es r i ∧
      C.Made t (C.view (prog.machine.run ⟨s, []⟩ (es.take r)).shared)) →
      ∃ r, C.ReadsAt prog ⟨s, []⟩ (es ++ [e]) r i ∧
        C.Made t (C.view (prog.machine.run ⟨s, []⟩ ((es ++ [e]).take r)).shared) := by
    rintro i t ⟨r, ⟨input, t', hsteps, hreads⟩, hmade⟩
    refine ⟨r, ⟨input, t', hsteps.append [e], hreads⟩, ?_⟩
    rwa [List.take_append_of_le_length (Nat.le_of_lt hsteps.lt_length)]
  refine PoolInv.step h e ?_ ?_ ?_ ?_
  · rintro t rfl
    obtain ⟨hL, hnot⟩ := hC.spawn _ t he h.1
    exact ⟨h.1, ⟨hL, fun hcarries => absurd hcarries hnot⟩, fun j t' h' => ⟨h'.1, fun hc => hkeep j t' (h'.2 hc)⟩⟩
  · rintro i input t rfl ht ⟨hL, hread⟩
    obtain ⟨hJ, hL', hnext⟩ := hC.next i input _ t he h.1 hL
    refine ⟨hJ, ⟨hL', fun hcarries => ?_⟩, fun j t' _ _ h' => ⟨hC.other i input _ t t' he h.1 hL h'.1,
      fun hc => hkeep j t' (h'.2 hc)⟩⟩
    rcases hnext hcarries with ⟨hreads, hmade⟩ | ⟨hbefore, hmade⟩
    · refine ⟨es.length, ⟨input, t, stepsAt_last ht input, hreads⟩, ?_⟩
      rwa [List.take_left]
    · obtain ⟨r, hr, hr'⟩ := hread hbefore
      exact hkeep i _ ⟨r, hr, hmade _ hr'⟩
  · rintro i input rfl -
    exact ⟨h.1, fun j t' h' => ⟨h'.1, fun hc => hkeep j t' (h'.2 hc)⟩⟩
  · rintro x rfl
    obtain ⟨hJ, -, hL⟩ := hC.env x _ he h.1
    exact ⟨hJ, fun j t' _ h' => ⟨hL t' h'.1, fun hc => hkeep j t' (h'.2 hc)⟩⟩

theorem Lawful.life_at (hC : C.Lawful prog Ok J L) (hs : J s) (hes : ∀ e ∈ es, Ok e) (k : Nat) :
    PoolInv J (C.Life prog L s (es.take k)) (prog.machine.run ⟨s, []⟩ (es.take k)) :=
  hC.life_run hs (fun e he => hes e (List.mem_of_mem_take he))

/-- **A call writes back what it made of the view that it replaces**, where reads stay current. -/
theorem Lawful.made_at (hC : C.Lawful prog Ok J L) (hs : J s) (hes : ∀ e ∈ es, Ok e) (hcurrent : C.StayCurrent prog ⟨s, []⟩ es)
    {q i : Nat} {input : α} {t : τ} (hsteps : prog.StepsAt ⟨s, []⟩ es q i input t) (hcarries : C.Carries t)
    (hwrites : C.Writes t) : C.Made t (C.view (prog.machine.run ⟨s, []⟩ (es.take q)).shared) := by
  obtain ⟨r, ⟨readInput, reader, hreader, hreads⟩, hmade⟩ := ((hC.life_at hs hes q).2 i t hsteps.2).2 hcarries
  have hrq : r < q := Nat.lt_of_lt_of_le hreader.lt_length (List.length_take_le q es)
  rw [List.take_take, Nat.min_eq_left (Nat.le_of_lt hrq)] at hmade
  have hview : C.view (prog.machine.run ⟨s, []⟩ (es.take q)).shared =
      C.view (prog.machine.run ⟨s, []⟩ (es.take r)).shared := by
    refine prog.machine.run_invariant_between
      (fun p => C.view p.shared = C.view (prog.machine.run ⟨s, []⟩ (es.take r)).shared) _ es (Nat.le_of_lt hrq) rfl ?_
    intro k e hrk hkq he hsame
    refine (hC.view_step (hes e (List.mem_of_getElem? he)) (hC.life_at hs hes k).1 ?_).trans hsame
    rintro j stepInput t' rfl ht'
    rcases Nat.lt_or_eq_of_le hrk with hlt | rfl
    · exact fun hwrites' => hcurrent i r q ⟨_, _, hreader.of_take, hreads⟩ ⟨_, _, hsteps, hwrites⟩ k j hlt hkq
        ⟨_, _, ⟨he, ht'⟩, hwrites'⟩
    · obtain ⟨hevent, hthread⟩ := hreader.of_take
      obtain ⟨rfl, rfl⟩ := PoolEvent.step.inj (Option.some.inj (he.symm.trans hevent))
      obtain rfl := Option.some.inj (ht'.symm.trans hthread)
      exact hC.reads t' hreads
  rwa [hview]

end WriteBack
end Program
end Lib
end Kirino
