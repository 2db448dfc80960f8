import Mathlib.Data.List.DropRight
import Kirino.Lib.Machine
import Kirino.Rbac.Dynamic.Anomaly
/-!
# Baseline — what a detector holds after any run of its two operations

A detector keeps the window, the history and the baseline each up to date with one record at a time.  `Tracks` says
what the three are as functions of all the records observed: the window is the end of them, the history is all of them
until there is a baseline, and the baseline is made of the first hundred.  A window of no records is the exception: the
record enters after the oldest has left, and stays.
-/
namespace Kirino
namespace Rbac
namespace Dynamic

open Lib (HashMap Machine)

/-! ## Frequencies -/

/-- How many of the records are of the category. -/
def countOf (records : List ActionRecord) (category : ActionCategory) : Nat :=
  records.countP (fun record => decide (record.category = category))

/-- **The frequency of a category among records**; a category that does not occur has none. -/
def frequencyOf (records : List ActionRecord) (category : ActionCategory) : Option ℚ :=
  if countOf records category = 0 then none else some (countOf records category / records.length)

theorem countOf_concat (records : List ActionRecord) (record : ActionRecord) (category : ActionCategory) :
    countOf (records ++ [record]) category = countOf records category + if record.category = category then 1 else 0 := by
  simp [countOf, List.countP_append, List.countP_cons]

theorem get?_countCategories (records : List ActionRecord) (category : ActionCategory) :
    (countCategories records).get? category =
      if countOf records category = 0 then none else some (countOf records category : ℚ) := by
  induction records using List.reverseRecOn with
  | nil => rfl
  | append_singleton records record ih =>
    rw [countCategories, List.foldl_append, ← countCategories, List.foldl_cons, List.foldl_nil, HashMap.get?_insert,
      countOf_concat]
    by_cases hc : category = record.category
    · subst hc
      rw [if_pos rfl, if_pos rfl, if_neg (Nat.succ_ne_zero _), ih]
      split_ifs with h0
      · simp [h0]
      · simp
    · have hc' : ¬ record.category = category := fun h => hc h.symm
      simp only [if_neg hc, if_neg hc', ih, Nat.add_zero]

theorem get?_countCategories_div (records : List ActionRecord) (category : ActionCategory) :
    ((countCategories records).mapValues (fun count => count / records.length)).get? category =
      frequencyOf records category := by
  rw [HashMap.get?_mapValues, get?_countCategories, frequencyOf]
  split_ifs with h0
  · rfl
  · rfl

/-! ## Runs -/

inductive DetectorCall where
  | observe (request : ActionRequest)
  | buildBaselineFromHistory

/-- The record that the call leaves, if it observes. -/
def DetectorCall.record? : DetectorCall → Option ActionRecord
  | observe request => some ⟨request.action, request.category, request.timestamp⟩
  | buildBaselineFromHistory => none

/-- The records of a run, in order. -/
def observed (calls : List DetectorCall) : List ActionRecord := calls.filterMap DetectorCall.record?

section SquareRoot

variable (sqrt : ℚ → ℚ)

def detectorMachine : Machine AnomalyDetector DetectorCall (Option AnomalyScore) where
  step detector
    | .observe request => (detector.observe sqrt request).2
    | .buildBaselineFromHistory => detector.buildBaselineFromHistory sqrt
  out detector
    | .observe request => some (detector.observe sqrt request).1
    | .buildBaselineFromHistory => none

/-- The baseline made of records: the frequency of each category, and the deviation of a sample of that frequency. -/
def baselineOf (records : List ActionRecord) : BehaviorBaseline :=
  let n : ℚ := records.length
  let means := (countCategories records).mapValues (fun count => count / n)
  let sampleVar (p : ℚ) : ℚ := if 1 < n then p * (1 - p) * n / (n - 1) else p * (1 - p)
  ⟨means, means.mapValues (fun p => max (sqrt (sampleVar p)) (1 / 100))⟩

theorem get?_baselineOf_means (records : List ActionRecord) (category : ActionCategory) :
    (baselineOf sqrt records).categoryMeans.get? category = frequencyOf records category :=
  get?_countCategories_div records category

/-- **What a detector is for**, of all the records observed so far: the window is the last of them and the profile
their frequencies; a baseline is made of the first hundred and of no others; the history is kept until then. -/
structure Exact (w : Nat) (records : List ActionRecord) (detector : AnomalyDetector) : Prop where
  window : detector.recentActions = records.rtake w
  profile : ∀ category, detector.categoryProfile.get? category = frequencyOf (records.rtake w) category
  early : records.length < baselineMinSamples → detector.baseline = none
  built : baselineMinSamples ≤ records.length →
    detector.baseline = some (baselineOf sqrt (records.take baselineMinSamples))
  means : ∀ baseline ∈ detector.baseline, ∀ category,
    baseline.categoryMeans.get? category = frequencyOf (records.take baselineMinSamples) category
  bounded : detector.history.length ≤ baselineMinSamples
  cleared : baselineMinSamples ≤ records.length → detector.history = []

/-- What the operations keep true. -/
structure Tracks (w : Nat) (records : List ActionRecord) (detector : AnomalyDetector) : Prop where
  size : detector.windowSize = w
  window : detector.recentActions = records.rtake w
  profile : ∀ category, detector.categoryProfile.get? category = frequencyOf (records.rtake w) category
  warming : records.length < baselineMinSamples →
    detector.baseline = none ∧ detector.history = records ∧ detector.totalObserved = records.length
  warm : baselineMinSamples ≤ records.length →
    detector.baseline = some (baselineOf sqrt (records.take baselineMinSamples)) ∧ detector.history = []

variable {sqrt} {w : Nat} {records : List ActionRecord} {detector : AnomalyDetector}

theorem Tracks.exact (h : Tracks sqrt w records detector) : Exact sqrt w records detector where
  window := h.window
  profile := h.profile
  early hlt := (h.warming hlt).1
  built hle := (h.warm hle).1
  means baseline hb category := by
    rcases Nat.lt_or_ge records.length baselineMinSamples with hlt | hle
    · rw [(h.warming hlt).1] at hb
      exact absurd hb (by simp)
    · rw [(h.warm hle).1, Option.mem_some_iff] at hb
      rw [← hb, get?_baselineOf_means]
  bounded := by
    rcases Nat.lt_or_ge records.length baselineMinSamples with hlt | hle
    · rw [(h.warming hlt).2.1]
      exact Nat.le_of_lt hlt
    · rw [(h.warm hle).2]
      exact Nat.zero_le _
  cleared hle := (h.warm hle).2

theorem tracks_new (sqrt : ℚ → ℚ) (w : Nat) : Tracks sqrt w [] (AnomalyDetector.new w) where
  size := rfl
  window := by simp [AnomalyDetector.new]
  profile category := by simp [AnomalyDetector.new, frequencyOf, countOf]
  warming _ := ⟨rfl, rfl, rfl⟩
  warm h := absurd h (by decide)

/-- Building the baseline by hand changes nothing: before the hundredth record there are too few, and from it on the
history is empty. -/
theorem Tracks.build (h : Tracks sqrt w records detector) : detector.buildBaselineFromHistory sqrt = detector := by
  rw [AnomalyDetector.buildBaselineFromHistory]
  dsimp only
  apply if_pos
  rcases Nat.lt_or_ge records.length baselineMinSamples with hlt | hle
  · exact Or.inl ((h.warming hlt).2.2 ▸ hlt)
  · right
    rw [(h.warm hle).2]
    simp

/-! ## One observation -/

/-- The window takes a record in at the end, and lets the oldest go when it is full. -/
theorem rtake_concat_of_pos {α : Type} (l : List α) (x : α) (hw : 0 < w) :
    (if w ≤ (l.rtake w).length then (l.rtake w).tail else l.rtake w) ++ [x] = (l ++ [x]).rtake w := by
  obtain ⟨n, rfl⟩ := Nat.exists_eq_succ_of_ne_zero (Nat.pos_iff_ne_zero.1 hw)
  rw [List.rtake_concat_succ]
  congr 1
  simp only [List.rtake, List.length_drop]
  split_ifs with hfull
  · rw [List.tail_drop]
    congr 1
    omega
  · rw [Nat.sub_eq_zero_of_le (by omega), Nat.sub_eq_zero_of_le (by omega)]

theorem get?_recomputeProfile (detector : AnomalyDetector) (category : ActionCategory) :
    detector.recomputeProfile.categoryProfile.get? category = frequencyOf detector.recentActions category := by
  simp only [AnomalyDetector.recomputeProfile]
  split_ifs with hempty
  · rw [List.isEmpty_iff.1 hempty]
    rfl
  · exact get?_countCategories_div detector.recentActions category

/-- Only the baseline and the history change when the baseline is due. -/
theorem buildWhenReady_of_not_due (h : (detector.isBaselineReady && detector.baseline.isNone) = false) :
    detector.buildWhenReady sqrt = detector := by
  simp [AnomalyDetector.buildWhenReady, h]

theorem buildWhenReady_of_due (hready : detector.isBaselineReady = true) (hnone : detector.baseline = none)
    (hhist : detector.history ≠ []) :
    detector.buildWhenReady sqrt =
      { detector with baseline := some (baselineOf sqrt detector.history), history := [] } := by
  have hready' : ¬ detector.totalObserved < baselineMinSamples := by
    simpa [AnomalyDetector.isBaselineReady] using hready
  have hn : (detector.history.length : ℚ) ≠ 0 := by simpa using hhist
  rw [AnomalyDetector.buildWhenReady, hready, hnone]
  simp [AnomalyDetector.buildBaselineFromHistory, hready', hhist, baselineOf]

/-- The detector between taking the record in and looking at the baseline. -/
theorem Tracks.push (h : Tracks sqrt w records detector) (hw : 0 < w) (record : ActionRecord) :
    (detector.push record).recomputeProfile.windowSize = w ∧
    (detector.push record).recomputeProfile.recentActions = (records ++ [record]).rtake w ∧
    ∀ category, (detector.push record).recomputeProfile.categoryProfile.get? category =
      frequencyOf ((records ++ [record]).rtake w) category := by
  have hwindow : (detector.push record).recentActions = (records ++ [record]).rtake w := by
    rw [AnomalyDetector.push, h.size, h.window, rtake_concat_of_pos records record hw]
  refine ⟨h.size, hwindow, ?_⟩
  intro category
  rw [get?_recomputeProfile, hwindow]

/-- **One observation keeps all three up to date**, in a window with room for a record. -/
theorem Tracks.observe (h : Tracks sqrt w records detector) (hw : 0 < w) (request : ActionRequest) :
    Tracks sqrt w (records ++ [⟨request.action, request.category, request.timestamp⟩])
      (detector.observe sqrt request).2 := by
  rw [AnomalyDetector.observe]
  dsimp only
  generalize (⟨request.action, request.category, request.timestamp⟩ : ActionRecord) = record
  obtain ⟨hsize, hwindow, hprofile⟩ := h.push hw record
  have hlen : (records ++ [record]).length = records.length + 1 := by simp
  rcases Nat.lt_or_ge records.length baselineMinSamples with hlt | hle
  · obtain ⟨hnone, hhist, htotal⟩ := h.warming hlt
    have hbound : baselineMinSamples < 2 ^ 64 := by decide
    have hpnone : (detector.push record).recomputeProfile.baseline = none := hnone
    have hphist : (detector.push record).recomputeProfile.history = records ++ [record] := by
      simp [AnomalyDetector.push, AnomalyDetector.recomputeProfile, hnone, hhist, hlt]
    have hptotal : (detector.push record).recomputeProfile.totalObserved = records.length + 1 := by
      simp only [AnomalyDetector.push, AnomalyDetector.recomputeProfile, htotal]
      exact Nat.mod_eq_of_lt (by omega)
    generalize (detector.push record).recomputeProfile = pushed at *
    rcases Nat.lt_or_ge (records.length + 1) baselineMinSamples with hlt' | hle'
    · rw [buildWhenReady_of_not_due (by simp [AnomalyDetector.isBaselineReady, hptotal, hlt'])]
      refine ⟨hsize, hwindow, hprofile, fun _ => ⟨hpnone, hphist, hptotal.trans hlen.symm⟩, ?_⟩
      intro hle
      omega
    · -- the hundredth record
      have htake : (records ++ [record]).take baselineMinSamples = records ++ [record] :=
        List.take_of_length_le (by omega)
      rw [buildWhenReady_of_due (by simpa [AnomalyDetector.isBaselineReady, hptotal] using hle') hpnone (by simp [hphist])]
      refine ⟨hsize, hwindow, hprofile, ?_, fun _ => ⟨?_, rfl⟩⟩
      · intro hlt
        omega
      · rw [htake, hphist]
  · obtain ⟨hsome, hhist⟩ := h.warm hle
    have hpsome : (detector.push record).recomputeProfile.baseline = detector.baseline := rfl
    have hphist : (detector.push record).recomputeProfile.history = [] := by
      simp [AnomalyDetector.push, AnomalyDetector.recomputeProfile, hsome, hhist]
    generalize (detector.push record).recomputeProfile = pushed at *
    have htake : (records ++ [record]).take baselineMinSamples = records.take baselineMinSamples :=
      List.take_append_of_le_length hle
    rw [buildWhenReady_of_not_due (by simp [hpsome, hsome])]
    refine ⟨hsize, hwindow, hprofile, ?_, fun _ => ⟨?_, hphist⟩⟩
    · intro hlt
      omega
    · rw [htake, hpsome, hsome]

/-! ## Runs, and the window of no records -/

theorem observed_concat (calls : List DetectorCall) (call : DetectorCall) :
    observed (calls ++ [call]) = observed calls ++ call.record?.toList := by
  cases call <;> simp [observed, DetectorCall.record?]

/-- The call observes only where there is room for a record. -/
def Roomy (w : Nat) (call : DetectorCall) : Prop := 0 < w ∨ call.record? = none

theorem tracks_run (calls : List DetectorCall) (h : ∀ call ∈ calls, Roomy w call) :
    Tracks sqrt w (observed calls) ((detectorMachine sqrt).run (AnomalyDetector.new w) calls) := by
  apply (detectorMachine sqrt).run_history (fun _ call => Roomy w call)
    (fun calls detector => Tracks sqrt w (observed calls) detector) _ (tracks_new sqrt w)
  · intro calls call htracks hroomy
    rw [observed_concat]
    cases call with
    | observe request => exact htracks.observe (hroomy.resolve_right (by simp [DetectorCall.record?])) request
    | buildBaselineFromHistory =>
      change Tracks sqrt w (observed calls ++ []) (AnomalyDetector.buildBaselineFromHistory sqrt _)
      rwa [List.append_nil, htracks.build]
  · exact Machine.along_of_forall _ _ _ _ (fun _ => h)

/-- The record just observed is in the window, whatever its size. -/
theorem recentActions_observe_ne_nil (detector : AnomalyDetector) (request : ActionRequest) :
    (detector.observe sqrt request).2.recentActions ≠ [] := by
  have hkeep : ∀ detector : AnomalyDetector, (detector.buildWhenReady sqrt).recentActions = detector.recentActions := by
    intro detector
    simp only [AnomalyDetector.buildWhenReady, AnomalyDetector.buildBaselineFromHistory]
    split_ifs <;> rfl
  rw [AnomalyDetector.observe]
  dsimp only
  rw [hkeep]
  simp [AnomalyDetector.recomputeProfile, AnomalyDetector.push]

/-- A window of no records is wrong after the first observation. -/
theorem not_exact_observe_zero (detector : AnomalyDetector) (request : ActionRequest) :
    ¬ Exact sqrt 0 records (detector.observe sqrt request).2 := by
  intro h
  exact recentActions_observe_ne_nil detector request (by rw [h.window, List.rtake_zero])

/-- **Exact in every state of a run, except in a window of no records**, where the first observation already stays. -/
theorem detector_exact_iff (sqrt : ℚ → ℚ) (w : Nat) (calls : List DetectorCall) :
    (∀ k, Exact sqrt w (observed (calls.take k))
      ((detectorMachine sqrt).run (AnomalyDetector.new w) (calls.take k))) ↔ 0 < w ∨ observed calls = [] := by
  constructor
  · intro h
    rcases Nat.eq_zero_or_pos w with rfl | hw
    · right
      by_contra hne
      obtain ⟨record, hrecord⟩ := List.exists_mem_of_ne_nil _ hne
      obtain ⟨call, hcall, hrec⟩ := List.mem_filterMap.1 hrecord
      obtain ⟨k, hk⟩ := List.mem_iff_getElem?.1 hcall
      have hexact := h (k + 1)
      rw [Machine.run_take_succ _ _ hk] at hexact
      cases call with
      | observe request => exact not_exact_observe_zero _ request hexact
      | buildBaselineFromHistory => simp [DetectorCall.record?] at hrec
    · exact Or.inl hw
  · intro h k
    apply (tracks_run (calls.take k) _).exact
    intro call hcall
    rcases h with hw | hnil
    · exact Or.inl hw
    · right
      rw [observed, List.filterMap_eq_nil_iff] at hnil
      exact hnil call (List.mem_of_mem_take hcall)

/-- One observation, in a window of no records. -/
theorem detector_not_exact_zero : ¬ ∀ (w : Nat) (calls : List DetectorCall),
    Exact id w (observed calls) ((detectorMachine id).run (AnomalyDetector.new w) calls) := by
  intro h
  let request : ActionRequest := ⟨⟨"agent", .agent⟩, "read", .readOnly, none, 0⟩
  exact not_exact_observe_zero (AnomalyDetector.new 0) request (h 0 [.observe request])

end SquareRoot

end Dynamic
end Rbac
end Kirino
