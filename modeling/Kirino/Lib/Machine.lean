import Mathlib.Data.List.Basic
import Mathlib.Data.List.Induction
/-!
# Machine — runs of a deterministic system that answers every event

A machine changes its state at every event and answers it.  The rules below carry the run theorems of a development:
an invariant that the steps keep holds after the run (`run_invariant`) and decides the answers (`outs_eq_map`); a
relation that two machines keep makes them answer alike (`outs_eq_of_simulation`); and a relation that the events of
no interest leave alone makes a run answer the events of interest as the run without the others (`outsOn_eq_filter`,
`outsAt_eq_outs`).
A condition on the steps of one run is `Along`.
-/
namespace Kirino
namespace Lib

/-- A system that takes a step and gives an answer at every event. -/
structure Machine (σ ε ο : Type) where
  step : σ → ε → σ
  out : σ → ε → ο

namespace Machine

variable {σ τ ε ο : Type}

/-- The state after the events. -/
def run (M : Machine σ ε ο) (s : σ) (es : List ε) : σ := es.foldl M.step s

/-- The answers, one for each event. -/
def outs (M : Machine σ ε ο) : σ → List ε → List ο
  | _, [] => []
  | s, e :: es => M.out s e :: M.outs (M.step s e) es

/-- Every step of the run is taken in a state, at an event, that `P` accepts. -/
def Along (M : Machine σ ε ο) (P : σ → ε → Prop) : σ → List ε → Prop
  | _, [] => True
  | s, e :: es => P s e ∧ M.Along P (M.step s e) es

instance decidableAlong (M : Machine σ ε ο) (P : σ → ε → Prop) [∀ s e, Decidable (P s e)] :
    ∀ (s : σ) (es : List ε), Decidable (M.Along P s es)
  | _, [] => isTrue trivial
  | s, e :: es =>
    haveI := M.decidableAlong P (M.step s e) es
    inferInstanceAs (Decidable (P s e ∧ M.Along P (M.step s e) es))

@[simp] theorem run_nil (M : Machine σ ε ο) (s : σ) : M.run s [] = s := rfl

@[simp] theorem run_cons (M : Machine σ ε ο) (s : σ) (e : ε) (es : List ε) :
    M.run s (e :: es) = M.run (M.step s e) es := rfl

theorem run_append (M : Machine σ ε ο) (s : σ) (es fs : List ε) : M.run s (es ++ fs) = M.run (M.run s es) fs :=
  List.foldl_append

theorem run_take_succ (M : Machine σ ε ο) (s : σ) {es : List ε} {i : Nat} {e : ε} (he : es[i]? = some e) :
    M.run s (es.take (i + 1)) = M.step (M.run s (es.take i)) e := by
  rw [List.take_add_one, he, run_append]
  rfl

/-- **The answer to an event is the answer at the state the earlier events reach.** -/
theorem outs_getElem? (M : Machine σ ε ο) : ∀ (s : σ) (es : List ε) (i : Nat),
    (M.outs s es)[i]? = (es[i]?).map (M.out (M.run s (es.take i)))
  | _, [], _ => rfl
  | _, _ :: _, 0 => rfl
  | s, e :: es, i + 1 => by
    simp only [outs, List.getElem?_cons_succ, List.take_succ_cons, run_cons]
    exact M.outs_getElem? (M.step s e) es i

theorem along_of_forall (M : Machine σ ε ο) (P : σ → ε → Prop) : ∀ (s : σ) (es : List ε),
    (∀ s', ∀ e ∈ es, P s' e) → M.Along P s es
  | _, [], _ => trivial
  | s, e :: es, h => ⟨h s e List.mem_cons_self, M.along_of_forall P _ es (fun s' f hf => h s' f (List.mem_cons_of_mem e hf))⟩

theorem along_and (M : Machine σ ε ο) (P : σ → ε → Prop) (Q : ε → Prop) : ∀ (s : σ) (es : List ε), M.Along P s es →
    (∀ e ∈ es, Q e) → M.Along (fun s e => P s e ∧ Q e) s es
  | _, [], _, _ => trivial
  | _, e :: es, ha, hQ =>
    ⟨⟨ha.1, hQ e List.mem_cons_self⟩, M.along_and P Q _ es ha.2 (fun f hf => hQ f (List.mem_cons_of_mem e hf))⟩

theorem along_imp (M : Machine σ ε ο) {P Q : σ → ε → Prop} (h : ∀ s e, P s e → Q s e) : ∀ {s : σ} {es : List ε},
    M.Along P s es → M.Along Q s es
  | _, [], _ => trivial
  | s, e :: _, ha => ⟨h s e ha.1, M.along_imp h ha.2⟩

theorem along_append (M : Machine σ ε ο) (P : σ → ε → Prop) : ∀ (s : σ) (es fs : List ε),
    M.Along P s (es ++ fs) ↔ M.Along P s es ∧ M.Along P (M.run s es) fs
  | _, [], _ => by simp [Along]
  | s, e :: es, fs => by
    rw [List.cons_append, Along, Along, M.along_append P (M.step s e) es fs, run_cons, and_assoc]

/-- **The history rule**: what every accepted step keeps of the events so far and the state they reach holds of the
whole run. -/
theorem run_history (M : Machine σ ε ο) (P : σ → ε → Prop) (I : List ε → σ → Prop) (s₀ : σ) (h₀ : I [] s₀)
    (hstep : ∀ es e, I es (M.run s₀ es) → P (M.run s₀ es) e → I (es ++ [e]) (M.step (M.run s₀ es) e)) :
    ∀ es, M.Along P s₀ es → I es (M.run s₀ es) := by
  intro es
  induction es using List.reverseRecOn with
  | nil => exact fun _ => h₀
  | append_singleton es e ih =>
    intro ha
    rw [along_append] at ha
    rw [run_append]
    exact hstep es e (ih ha.1) ha.2.1

/-- **The invariant rule**: what every accepted step keeps holds after the run. -/
theorem run_invariant (M : Machine σ ε ο) (P : σ → ε → Prop) (I : σ → Prop)
    (hstep : ∀ s e, I s → P s e → I (M.step s e)) :
    ∀ (s : σ) (es : List ε), I s → M.Along P s es → I (M.run s es)
  | _, [], hI, _ => hI
  | s, e :: es, hI, ha => M.run_invariant P I hstep (M.step s e) es (hstep s e hI ha.1) ha.2

/-- The invariant rule over a part of the run. -/
theorem run_invariant_between (M : Machine σ ε ο) (I : σ → Prop) (s : σ) (es : List ε) {a b : Nat} (hab : a ≤ b)
    (ha : I (M.run s (es.take a)))
    (hstep : ∀ q e, a ≤ q → q < b → es[q]? = some e → I (M.run s (es.take q)) → I (M.step (M.run s (es.take q)) e)) :
    I (M.run s (es.take b)) := by
  induction hab with
  | refl => exact ha
  | @step b hab ih =>
    have hb := ih (fun q e haq hqb => hstep q e haq (Nat.lt_succ_of_lt hqb))
    cases he : es[b]? with
    | none =>
      rw [List.take_of_length_le (Nat.le_succ_of_le (List.getElem?_eq_none_iff.1 he)),
        ← List.take_of_length_le (List.getElem?_eq_none_iff.1 he)]
      exact hb
    | some e =>
      rw [M.run_take_succ s he]
      exact hstep b e hab (Nat.lt_succ_self b) he hb

/-- **The answer rule**: an invariant that fixes the answer to each event fixes the answers of the run. -/
theorem outs_eq_map (M : Machine σ ε ο) (P : σ → ε → Prop) (I : σ → Prop) (f : ε → ο)
    (hstep : ∀ s e, I s → P s e → I (M.step s e) ∧ M.out s e = f e) :
    ∀ (s : σ) (es : List ε), I s → M.Along P s es → M.outs s es = es.map f
  | _, [], _, _ => rfl
  | s, e :: es, hI, ha => by
    obtain ⟨hI', ho⟩ := hstep s e hI ha.1
    rw [outs, List.map_cons, ho, M.outs_eq_map P I f hstep (M.step s e) es hI' ha.2]

/-- **The answer rule, both ways**: when, where `Q` holds of the steps, the answer to an event is the wanted one exactly
where the step is accepted, the answers of the run are the wanted ones exactly when every step is. -/
theorem outs_eq_map_iff (M : Machine σ ε ο) (P Q : σ → ε → Prop) (I : σ → Prop) (f : ε → ο)
    (hout : ∀ s e, I s → Q s e → (M.out s e = f e ↔ P s e)) (hstep : ∀ s e, I s → P s e → I (M.step s e)) :
    ∀ (s : σ) (es : List ε), I s → M.Along Q s es → (M.outs s es = es.map f ↔ M.Along P s es)
  | _, [], _, _ => by simp [outs, Along]
  | s, e :: es, hI, hQ => by
    rw [outs, List.map_cons, List.cons.injEq, Along, hout s e hI hQ.1]
    exact and_congr_right (fun hP => M.outs_eq_map_iff P Q I f hout hstep (M.step s e) es (hstep s e hI hP) hQ.2)

/-- **The simulation rule**: related machines answer alike. -/
theorem outs_eq_of_simulation (M : Machine σ ε ο) (N : Machine τ ε ο) (P : σ → ε → Prop) (R : σ → τ → Prop)
    (hstep : ∀ s t e, R s t → P s e → R (M.step s e) (N.step t e) ∧ M.out s e = N.out t e) :
    ∀ (s : σ) (t : τ) (es : List ε), R s t → M.Along P s es → M.outs s es = N.outs t es
  | _, _, [], _, _ => rfl
  | s, t, e :: es, hR, ha => by
    obtain ⟨hR', ho⟩ := hstep s t e hR ha.1
    rw [outs, outs, ho, outs_eq_of_simulation M N P R hstep _ _ es hR' ha.2]

/-- A step of the run is taken at the state the earlier events reach. -/
theorem along_getElem? (M : Machine σ ε ο) (P : σ → ε → Prop) : ∀ (s : σ) (es : List ε), M.Along P s es →
    ∀ (j : Nat) (e : ε), es[j]? = some e → P (M.run s (es.take j)) e
  | _, [], _, _, _, he => by cases he
  | _, _ :: _, ha, 0, _, he => by
    obtain rfl := Option.some.inj he
    exact ha.1
  | s, e₀ :: es, ha, j + 1, e, he => M.along_getElem? P (M.step s e₀) es ha.2 j e he

theorem along_of_getElem? (M : Machine σ ε ο) (P : σ → ε → Prop) : ∀ (s : σ) (es : List ε),
    (∀ (j : Nat) (e : ε), es[j]? = some e → P (M.run s (es.take j)) e) → M.Along P s es
  | _, [], _ => trivial
  | s, e :: es, h => ⟨h 0 e rfl, M.along_of_getElem? P (M.step s e) es (fun j f hf => h (j + 1) f hf)⟩

/-- An answer of the run, at the state the earlier events reach. -/
theorem out_of_getElem? (M : Machine σ ε ο) {s : σ} {es : List ε} {j : Nat} {e : ε} {o : ο} (he : es[j]? = some e)
    (ho : (M.outs s es)[j]? = some o) : M.out (M.run s (es.take j)) e = o := by
  rw [outs_getElem?, he] at ho
  exact Option.some.inj ho

/-- Some step of the run is taken in a state, at an event, of the kind. -/
def Occurs (M : Machine σ ε ο) (Q : σ → ε → Prop) (s : σ) (es : List ε) : Prop :=
  ∃ j e, es[j]? = some e ∧ Q (M.run s (es.take j)) e

theorem occurs_append (M : Machine σ ε ο) (Q : σ → ε → Prop) (s : σ) (es : List ε) (e : ε) :
    M.Occurs Q s (es ++ [e]) ↔ M.Occurs Q s es ∨ Q (M.run s es) e := by
  constructor
  · rintro ⟨j, e', hj, hQ⟩
    rcases Nat.lt_or_ge j es.length with hlt | hge
    · rw [List.getElem?_append_left hlt] at hj
      rw [List.take_append_of_le_length (Nat.le_of_lt hlt)] at hQ
      exact Or.inl ⟨j, e', hj, hQ⟩
    · have hlen := (List.getElem?_eq_some_iff.1 hj).1
      rw [List.length_append, List.length_singleton] at hlen
      obtain rfl : j = es.length := by omega
      rw [List.take_left] at hQ
      obtain rfl : e = e' := by simpa using hj
      exact Or.inr hQ
  · rintro (⟨j, e', hj, hQ⟩ | hQ)
    · have hlt := (List.getElem?_eq_some_iff.1 hj).1
      refine ⟨j, e', by rw [List.getElem?_append_left hlt]; exact hj, ?_⟩
      rw [List.take_append_of_le_length (Nat.le_of_lt hlt)]
      exact hQ
    · exact ⟨es.length, e, by simp, by rw [List.take_left]; exact hQ⟩

section Timed
variable {T : Type} [LE T] (M : Machine σ ε ο) (clock : ε → T) (P : σ → ε → Prop) (I : σ → T → Prop)

/-- What holds at the instants ahead and is kept by the steps is met by every step of the run. -/
theorem along_timed (hmono : ∀ s t t', t ≤ t' → I s t → I s t')
    (hstep : ∀ s e, I s (clock e) → P s e → I (M.step s e) (clock e)) :
    ∀ (s : σ) (es : List ε), (∀ e ∈ es, I s (clock e)) → es.Pairwise (fun e f => clock e ≤ clock f) → M.Along P s es →
      M.Along (fun s e => I s (clock e) ∧ P s e) s es
  | _, [], _, _, _ => trivial
  | s, e :: es, hI, hclock, ha => by
    have he := hI e List.mem_cons_self
    have hpair := List.pairwise_cons.1 hclock
    refine ⟨⟨he, ha.1⟩, along_timed hmono hstep (M.step s e) es (fun f hf => ?_) hpair.2 ha.2⟩
    exact hmono _ _ _ (hpair.1 f hf) (hstep s e he ha.1)

/-- **The clock rule**: what an event establishes and the steps keep holds at every later event. -/
theorem timed_invariant_after (hmono : ∀ s t t', t ≤ t' → I s t → I s t')
    (hstep : ∀ s e, I s (clock e) → P s e → I (M.step s e) (clock e)) :
    ∀ (s : σ) (es : List ε), es.Pairwise (fun e f => clock e ≤ clock f) → M.Along P s es →
      ∀ (i j : Nat) (e f : ε), i < j → es[i]? = some e → es[j]? = some f →
        I (M.step (M.run s (es.take i)) e) (clock e) → I (M.run s (es.take j)) (clock f)
  | _, [], _, _, _, _, _, _, _, he, _, _ => by cases he
  | _, _ :: _, _, _, _, 0, _, _, hij, _, _, _ => by omega
  | s, e₀ :: es, hclock, ha, 0, j + 1, e, f, _, he, hf, hI => by
    obtain rfl := Option.some.inj he
    have hpair := List.pairwise_cons.1 hclock
    have hahead : ∀ g ∈ es, I (M.step s e₀) (clock g) := fun g hg => hmono _ _ _ (hpair.1 g hg) hI
    exact (M.along_getElem? _ _ es (M.along_timed clock P I hmono hstep _ es hahead hpair.2 ha.2) j f hf).1
  | s, e₀ :: es, hclock, ha, i + 1, j + 1, e, f, hij, he, hf, hI =>
    timed_invariant_after hmono hstep (M.step s e₀) es (List.pairwise_cons.1 hclock).2 ha.2 i j e f (by omega) he hf hI

end Timed

/-- The answers to the events `keep` accepts. -/
def outsOn (M : Machine σ ε ο) (keep : ε → Bool) (s : σ) (es : List ε) : List ο :=
  ((es.zip (M.outs s es)).filter (fun p => keep p.1)).map Prod.snd

/-- **The unwinding rule**: when the other events keep the relation on one side alone, a run answers the kept events
as the run of the kept events alone. -/
theorem outsOn_eq_filter (M : Machine σ ε ο) (keep : ε → Bool) (P : σ → ε → Prop) (R : σ → σ → Prop)
    (hkeep : ∀ s t e, R s t → P s e → keep e = true → R (M.step s e) (M.step t e) ∧ M.out s e = M.out t e)
    (hdrop : ∀ s t e, R s t → P s e → keep e = false → R (M.step s e) t) :
    ∀ (s t : σ) (es : List ε), R s t → M.Along P s es → M.outsOn keep s es = M.outs t (es.filter keep)
  | _, _, [], _, _ => rfl
  | s, t, e :: es, hR, ha => by
    unfold outsOn
    cases hk : keep e with
    | true =>
      obtain ⟨hR', ho⟩ := hkeep s t e hR ha.1 hk
      have ih := M.outsOn_eq_filter keep P R hkeep hdrop (M.step s e) (M.step t e) es hR' ha.2
      simp only [outs, List.zip_cons_cons, List.filter_cons, hk, if_true, List.map_cons, ho]
      exact congrArg _ ih
    | false =>
      have ih := M.outsOn_eq_filter keep P R hkeep hdrop (M.step s e) t es (hdrop s t e hR ha.1 hk) ha.2
      simp only [outs, List.zip_cons_cons, List.filter_cons, hk, Bool.false_eq_true, if_false]
      exact ih

/-- The events that `keep` accepts at the state each is met in. -/
def eventsAt (M : Machine σ ε ο) (keep : σ → ε → Bool) : σ → List ε → List ε
  | _, [] => []
  | s, e :: es => if keep s e then e :: M.eventsAt keep (M.step s e) es else M.eventsAt keep (M.step s e) es

/-- The answers to them. -/
def outsAt (M : Machine σ ε ο) (keep : σ → ε → Bool) : σ → List ε → List ο
  | _, [] => []
  | s, e :: es => if keep s e then M.out s e :: M.outsAt keep (M.step s e) es else M.outsAt keep (M.step s e) es

/-- **The unwinding rule at states**: whether an event is kept may hang on the state, and of the answers only what is
heard need be the same; the states that the two runs end in are related. -/
theorem outsAt_eq_outs {ω : Type} (M : Machine σ ε ο) (hear : ο → ω) (keep : σ → ε → Bool) (P : σ → ε → Prop)
    (R : σ → σ → Prop)
    (hkeep : ∀ s t e, R s t → P s e → keep s e = true → R (M.step s e) (M.step t e) ∧ hear (M.out s e) = hear (M.out t e))
    (hdrop : ∀ s t e, R s t → P s e → keep s e = false → R (M.step s e) t) :
    ∀ (s t : σ) (es : List ε), R s t → M.Along P s es →
      (M.outsAt keep s es).map hear = (M.outs t (M.eventsAt keep s es)).map hear ∧
        R (M.run s es) (M.run t (M.eventsAt keep s es))
  | _, _, [], hR, _ => ⟨rfl, hR⟩
  | s, t, e :: es, hR, ha => by
    unfold outsAt eventsAt
    by_cases hk : keep s e = true
    · obtain ⟨hR', ho⟩ := hkeep s t e hR ha.1 hk
      have ih := M.outsAt_eq_outs hear keep P R hkeep hdrop _ _ es hR' ha.2
      rw [if_pos hk, if_pos hk, outs, List.map_cons, List.map_cons, ho, ih.1]
      exact ⟨rfl, ih.2⟩
    · rw [if_neg hk, if_neg hk]
      exact M.outsAt_eq_outs hear keep P R hkeep hdrop _ t es (hdrop s t e hR ha.1 (Bool.eq_false_iff.2 hk)) ha.2

end Machine
end Lib
end Kirino
