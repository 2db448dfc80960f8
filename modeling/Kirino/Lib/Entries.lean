import Kirino.Lib.Machine
import Mathlib.Data.List.Nodup
/-!
# Entries — lists that are edited entry by entry

A store that keeps its entries in a list edits it in three ways: it appends an entry unless one in the list clashes with
it, it appends an entry in the place of those it replaces, and it drops the entries a test picks.  `mem_apply` says what
one edit leaves, `in_run_iff` what the steps of a whole run leave: an entry is there exactly when a step brought it in
and no later one took it out.  Edits that respect a clash relation keep the list free of clashes (`pairwise_run`).
-/
namespace Kirino
namespace Lib
namespace Entries

variable {α : Type}

/-- One edit of a list. -/
inductive Edit (α : Type) where
  | keep
  | add (clashes : α → Bool) (entry : α)
  | put (replaced : α → Bool) (entry : α)
  | drop (gone : α → Bool)

def apply (l : List α) : Edit α → List α
  | .keep => l
  | .add clashes entry => if l.any clashes then l else l ++ [entry]
  | .put replaced entry => l.filter (fun b => !replaced b) ++ [entry]
  | .drop gone => l.filter (fun b => !gone b)

/-- The edit brings the entry into the list. -/
def Enters (l : List α) : Edit α → α → Prop
  | .add clashes entry, a => a = entry ∧ l.any clashes = false
  | .put _ entry, a => a = entry
  | _, _ => False

/-- The edit takes the entry out of any list. -/
def Leaves : Edit α → α → Prop
  | .put replaced _, a => replaced a = true
  | .drop gone, a => gone a = true
  | _, _ => False

/-- **What one edit leaves.** -/
theorem mem_apply {l : List α} {e : Edit α} {a : α} : a ∈ apply l e ↔ Enters l e a ∨ a ∈ l ∧ ¬ Leaves e a := by
  cases e with
  | keep => simp [apply, Enters, Leaves]
  | add clashes entry =>
    cases h : l.any clashes with
    | true => simp [apply, Enters, Leaves, h]
    | false => simp only [apply, Enters, Leaves, h, Bool.false_eq_true, ↓reduceIte, List.mem_append, List.mem_singleton,
        and_true, not_false_eq_true, or_comm]
  | put replaced entry => simp [apply, Enters, Leaves, or_comm]
  | drop gone => simp [apply, Enters, Leaves]

/-! ## Clashes -/

/-- The edit appends no entry that clashes with one it leaves in the list. -/
def Respects (clash : α → α → Prop) : Edit α → Prop
  | .add clashes entry => ∀ b, clashes b = false → ¬ clash b entry
  | .put replaced entry => ∀ b, replaced b = false → ¬ clash b entry
  | _ => True

theorem pairwise_apply {clash : α → α → Prop} {l : List α} {e : Edit α} (he : Respects clash e)
    (h : l.Pairwise (fun a b => ¬ clash a b)) : (apply l e).Pairwise (fun a b => ¬ clash a b) := by
  have hpush : ∀ {l : List α} {a : α}, l.Pairwise (fun a b => ¬ clash a b) → (∀ b ∈ l, ¬ clash b a) →
      (l ++ [a]).Pairwise (fun a b => ¬ clash a b) := by
    intro l a hl ha
    rw [List.pairwise_append]
    refine ⟨hl, List.pairwise_singleton _ a, fun b hb c hc => ?_⟩
    rw [List.mem_singleton.1 hc]
    exact ha b hb
  cases e with
  | keep => exact h
  | add clashes entry =>
    unfold apply
    dsimp only
    split
    · exact h
    · rename_i hany
      refine hpush h (fun b hb => he b ?_)
      exact Bool.eq_false_iff.2 (fun hc => hany (List.any_eq_true.2 ⟨b, hb, hc⟩))
  | put replaced entry =>
    refine hpush (h.sublist List.filter_sublist) (fun b hb => he b ?_)
    simpa using (List.mem_filter.1 hb).2
  | drop gone => exact h.sublist List.filter_sublist

/-- **In a list with no two entries of one key, the entry found under a key is the one that is there.** -/
theorem find?_eq_some_iff {κ : Type} [DecidableEq κ] {key : α → κ} {l : List α}
    (h : l.Pairwise (fun a b => ¬ key a = key b)) {k : κ} {a : α} :
    l.find? (fun b => decide (key b = k)) = some a ↔ a ∈ l ∧ key a = k := by
  have hinj := List.inj_on_of_nodup_map (l := l) (f := key) (by rwa [List.Nodup, List.pairwise_map])
  constructor
  · intro hf
    exact ⟨List.mem_of_find?_eq_some hf, by simpa using List.find?_some hf⟩
  · rintro ⟨ha, rfl⟩
    cases hf : l.find? (fun b => decide (key b = key a)) with
    | none =>
      have hnone := List.find?_eq_none.1 hf a ha
      simp at hnone
    | some b =>
      have hkey : key b = key a := by simpa using List.find?_some hf
      rw [hinj (List.mem_of_find?_eq_some hf) ha hkey]

/-! ## Runs -/

section Runs
variable {σ ε ο : Type} {M : Machine σ ε ο}

/-- **What a run leaves of any contents**: when a step adds what enters and takes out what leaves, an entry is there after
a run exactly when a step brought it in, or it was there, and no later step took it out. -/
theorem in_run_iff (In : σ → α → Prop) (entersAt : σ → ε → α → Prop) (leavesAt : ε → α → Prop)
    (hstep : ∀ s e a, In (M.step s e) a ↔ entersAt s e a ∨ In s a ∧ ¬ leavesAt e a) (s : σ) (es : List ε) (a : α) :
    In (M.run s es) a ↔ (In s a ∧ ∀ e ∈ es, ¬ leavesAt e a) ∨
      ∃ i e, es[i]? = some e ∧ entersAt (M.run s (es.take i)) e a ∧
        ∀ j f, i < j → es[j]? = some f → ¬ leavesAt f a := by
  induction es using List.reverseRecOn with
  | nil => simp
  | append_singleton es e ih =>
    rw [Machine.run_append, Machine.run_cons, Machine.run_nil, hstep, ih]
    constructor
    · rintro (henters | ⟨⟨hthere, hkept⟩ | ⟨i, e', hi, henters, hlater⟩, hleaves⟩)
      · refine Or.inr ⟨es.length, e, by simp, by rwa [List.take_left], fun j f hj hf => ?_⟩
        have hlen := (List.getElem?_eq_some_iff.1 hf).1
        rw [List.length_append, List.length_singleton] at hlen
        omega
      · refine Or.inl ⟨hthere, fun f hf => ?_⟩
        rcases List.mem_append.1 hf with hf | hf
        · exact hkept f hf
        · rwa [List.mem_singleton.1 hf]
      · have hlt := (List.getElem?_eq_some_iff.1 hi).1
        refine Or.inr ⟨i, e', by rwa [List.getElem?_append_left hlt],
          by rwa [List.take_append_of_le_length (Nat.le_of_lt hlt)], fun j f hj hf => ?_⟩
        rcases Nat.lt_or_ge j es.length with hjlt | hjge
        · rw [List.getElem?_append_left hjlt] at hf
          exact hlater j f hj hf
        · rw [List.getElem?_append_right hjge, List.getElem?_singleton] at hf
          split at hf
          · rwa [← Option.some.inj hf]
          · cases hf
    · rintro (⟨hthere, hkept⟩ | ⟨i, e', hi, henters, hlater⟩)
      · exact Or.inr ⟨Or.inl ⟨hthere, fun f hf => hkept f (List.mem_append_left _ hf)⟩,
          hkept e (List.mem_append_right _ List.mem_cons_self)⟩
      · have hlen := (List.getElem?_eq_some_iff.1 hi).1
        rw [List.length_append, List.length_singleton] at hlen
        rcases Nat.lt_or_ge i es.length with hlt | hge
        · rw [List.getElem?_append_left hlt] at hi
          rw [List.take_append_of_le_length (Nat.le_of_lt hlt)] at henters
          refine Or.inr ⟨Or.inr ⟨i, e', hi, henters, fun j f hj hf => hlater j f hj ?_⟩,
            hlater es.length e hlt (by simp)⟩
          rwa [List.getElem?_append_left (List.getElem?_eq_some_iff.1 hf).1]
        · obtain rfl : i = es.length := by omega
          obtain rfl : e = e' := by simpa using hi
          rw [List.take_left] at henters
          exact Or.inl henters

/-- What the first events of a run leave, when nothing was there. -/
theorem in_take_iff (In : σ → α → Prop) (entersAt : σ → ε → α → Prop) (leavesAt : ε → α → Prop)
    (hstep : ∀ s e a, In (M.step s e) a ↔ entersAt s e a ∨ In s a ∧ ¬ leavesAt e a) {s : σ} (hs : ∀ a, ¬ In s a)
    (es : List ε) (k : Nat) (a : α) :
    In (M.run s (es.take k)) a ↔ ∃ i e, i < k ∧ es[i]? = some e ∧ entersAt (M.run s (es.take i)) e a ∧
      ∀ j f, i < j → j < k → es[j]? = some f → ¬ leavesAt f a := by
  have htake : ∀ {j : Nat} {f : ε}, (es.take k)[j]? = some f ↔ j < k ∧ es[j]? = some f := by
    intro j f
    rw [List.getElem?_take]
    split
    · next hlt => simp [hlt]
    · next hge => simp [hge]
  rw [in_run_iff In entersAt leavesAt hstep]
  simp only [hs, false_and, false_or]
  refine exists_congr (fun i => exists_congr (fun e => ?_))
  rw [htake, and_assoc]
  refine and_congr_right (fun hik => and_congr_right (fun _ => ?_))
  rw [List.take_take, Nat.min_eq_left (Nat.le_of_lt hik)]
  refine and_congr_right (fun _ => ⟨fun h j f hij hjk hf => h j f hij (htake.2 ⟨hjk, hf⟩), fun h j f hij hf => ?_⟩)
  exact h j f hij (htake.1 hf).1 (htake.1 hf).2

/-- **No two entries of a run clash**, when nothing that enters clashes with what stays beside it. -/
theorem unique_run (In : σ → α → Prop) (entersAt : σ → ε → α → Prop) (leavesAt : ε → α → Prop) (clash : α → α → Prop)
    (hsymm : ∀ a b, clash a b → clash b a)
    (hstep : ∀ s e a, In (M.step s e) a ↔ entersAt s e a ∨ In s a ∧ ¬ leavesAt e a)
    (hone : ∀ s e a b, entersAt s e a → entersAt s e b → a = b)
    (hfresh : ∀ s e a b, entersAt s e a → In s b → ¬ clash a b) {s : σ} (hs : ∀ a, ¬ In s a) (es : List ε) {a b : α}
    (ha : In (M.run s es) a) (hb : In (M.run s es) b) (hclash : clash a b) : a = b := by
  refine M.run_invariant (fun _ _ => True) (fun s => ∀ a b, In s a → In s b → clash a b → a = b) ?_ s es
    (fun a _ ha => absurd ha (hs a)) (M.along_of_forall _ s es (fun _ _ _ => trivial)) a b ha hb hclash
  intro s e ih _ a b ha hb hclash
  rcases (hstep s e a).1 ha with ha | ⟨ha, -⟩ <;> rcases (hstep s e b).1 hb with hb | ⟨hb, -⟩
  · exact hone s e a b ha hb
  · exact absurd hclash (hfresh s e a b ha hb)
  · exact absurd (hsymm a b hclash) (hfresh s e b a hb ha)
  · exact ih a b ha hb hclash

variable (view : σ → List α) (edit : ε → Edit α)

/-- **What the edits of a run leave** of a list that was empty. -/
theorem mem_take_iff (hview : ∀ s e, view (M.step s e) = apply (view s) (edit e)) {s : σ} (hs : view s = [])
    (es : List ε) (k : Nat) (a : α) :
    a ∈ view (M.run s (es.take k)) ↔ ∃ i e, i < k ∧ es[i]? = some e ∧
      Enters (view (M.run s (es.take i))) (edit e) a ∧
        ∀ j f, i < j → j < k → es[j]? = some f → ¬ Leaves (edit f) a :=
  in_take_iff (fun s a => a ∈ view s) (fun s e a => Enters (view s) (edit e) a) (fun e a => Leaves (edit e) a)
    (fun s e a => by rw [hview, mem_apply]) (fun a => by rw [hs]; exact List.not_mem_nil) es k a

/-- **A run of edits that respect the clashes keeps the list free of them.** -/
theorem pairwise_run (hview : ∀ s e, view (M.step s e) = apply (view s) (edit e)) {clash : α → α → Prop}
    (hrespects : ∀ e, Respects clash (edit e)) {s : σ} (hs : (view s).Pairwise (fun a b => ¬ clash a b)) (es : List ε) :
    (view (M.run s es)).Pairwise (fun a b => ¬ clash a b) := by
  refine M.run_invariant (fun _ _ => True) (fun s => (view s).Pairwise (fun a b => ¬ clash a b)) ?_ s es hs
    (M.along_of_forall _ s es (fun _ _ _ => trivial))
  intro s e h _
  rw [hview]
  exact pairwise_apply (hrespects e) h

end Runs

end Entries
end Lib
end Kirino
