import Mathlib.Data.List.Sort
import Kirino.Lib.Grouping
import Kirino.Rbac.Audit.Sink
/-!
# Analysis — the report over a batch of entries (`rbac/audit.rs`)

The analyzer counts the entries of a batch, by subject and by permission, and keeps the ten riskiest.  What the logger
reports of the sink are the numbers that its own counts answer with the filter narrowed to the decision, the risk, the
subject or the permission (`analyzeRecent_agrees`).  Scores are exact rationals.
-/
namespace Kirino
namespace Rbac
namespace Audit

open Lib (HashMap group tally ofKey)

def AuditEntry.isHighRisk (entry : AuditEntry) : Bool := entry.verdict.any (fun v => decide (3 / 5 ≤ v.riskScore))

/-- The score that the report reads, 0 for an entry without one. -/
def AuditEntry.risk (entry : AuditEntry) : ℚ := (entry.verdict.map AuditVerdict.riskScore).getD 0

structure SubjectStats where
  total : Nat
  denied : Nat
  avgRisk : ℚ
  maxRisk : ℚ
deriving DecidableEq

structure AuditAnalysisResult where
  totalEntries : Nat
  deniedCount : Nat
  deniedRate : ℚ
  highRiskCount : Nat
  bySubject : HashMap String SubjectStats
  byPermission : HashMap String Nat
  topRiskEntries : List AuditEntry

def SubjectStats.new : SubjectStats := ⟨0, 0, 0, 0⟩

/-- One more entry of the subject; the mean is still a sum. -/
def SubjectStats.add (stats : SubjectStats) (entry : AuditEntry) : SubjectStats :=
  ⟨stats.total + 1, if entry.isDenied then stats.denied + 1 else stats.denied, stats.avgRisk + entry.risk,
    max stats.maxRisk entry.risk⟩

/-- The sum divided by the number of entries. -/
def SubjectStats.average (stats : SubjectStats) : SubjectStats :=
  if 0 < stats.total then { stats with avgRisk := stats.avgRisk / stats.total } else stats

/-- Riskiest first. -/
def Riskier (a b : AuditEntry) : Prop := b.risk ≤ a.risk

instance : DecidableRel Riskier := fun a b => inferInstanceAs (Decidable (b.risk ≤ a.risk))

instance : Std.Total Riskier := ⟨fun a b => le_total b.risk a.risk⟩

instance : IsTrans AuditEntry Riskier := ⟨fun _ _ _ hab hbc => le_trans hbc hab⟩

def topRiskLen : Nat := 10

def analyze (entries : List AuditEntry) : AuditAnalysisResult where
  totalEntries := entries.length
  deniedCount := entries.countP AuditEntry.isDenied
  deniedRate := if 0 < entries.length then entries.countP AuditEntry.isDenied / entries.length else 0
  highRiskCount := entries.countP AuditEntry.isHighRisk
  bySubject := (group AuditEntry.subjectId SubjectStats.new SubjectStats.add entries).mapValues SubjectStats.average
  byPermission := tally (entries.map AuditEntry.permission)
  topRiskEntries := (entries.insertionSort Riskier).take topRiskLen

/-- `analyze_recent`, with the analyzer attached. -/
def InMemoryAuditSink.analyzeRecent (sink : InMemoryAuditSink) (filter : AuditFilter) : AuditAnalysisResult :=
  analyze (sink.query filter)

/-! ## What a report says of its batch -/

/-- The statistics of a subject's entries. -/
structure StatsOf (entries : List AuditEntry) (stats : SubjectStats) : Prop where
  total : stats.total = entries.length
  denied : stats.denied = entries.countP AuditEntry.isDenied
  mean : stats.avgRisk * entries.length = (entries.map AuditEntry.risk).sum
  bound : 0 ≤ stats.maxRisk ∧ ∀ entry ∈ entries, entry.risk ≤ stats.maxRisk
  attained : stats.maxRisk = 0 ∨ ∃ entry ∈ entries, entry.risk = stats.maxRisk

/-- The riskiest entries of the batch, riskiest first, entries of one risk in the order of the batch. -/
structure RiskiestOf (batch top : List AuditEntry) : Prop where
  length : top.length = min topRiskLen batch.length
  descending : top.Pairwise Riskier
  rest : ∃ rest, (top ++ rest).Perm batch ∧ (∀ a ∈ top, ∀ b ∈ rest, b.risk ≤ a.risk) ∧
    ∀ r : ℚ, (top ++ rest).filter (fun entry => decide (entry.risk = r)) =
      batch.filter (fun entry => decide (entry.risk = r))

structure Summarizes (batch : List AuditEntry) (result : AuditAnalysisResult) : Prop where
  rate : result.deniedRate * result.totalEntries = result.deniedCount
  subject : ∀ s, (∃ stats, result.bySubject.get? s = some stats ∧ StatsOf (ofKey AuditEntry.subjectId s batch) stats) ∨
    result.bySubject.get? s = none ∧ ∀ entry ∈ batch, entry.subjectId ≠ s
  totals : result.bySubject.sumBy SubjectStats.total = result.totalEntries ∧
    result.bySubject.sumBy SubjectStats.denied = result.deniedCount ∧ result.byPermission.sum = result.totalEntries
  top : RiskiestOf batch result.topRiskEntries

/-- The numbers of the report are those of the sink's counts, with the filter narrowed. -/
structure Agrees (sink : InMemoryAuditSink) (filter : AuditFilter) (result : AuditAnalysisResult) : Prop where
  totalEntries : result.totalEntries = sink.count filter
  deniedCount : filter.granted = none → result.deniedCount = sink.count { filter with granted := some false }
  highRiskCount : filter.minRisk = none → result.highRiskCount = sink.count { filter with minRisk := some (3 / 5) }
  subject : filter.subjectId = none → ∀ s,
    ((result.bySubject.get? s).map SubjectStats.total).getD 0 = sink.count { filter with subjectId := some s } ∧
    (filter.granted = none → ((result.bySubject.get? s).map SubjectStats.denied).getD 0 =
      sink.count { filter with subjectId := some s, granted := some false })
  permission : filter.permission = none → ∀ p,
    (result.byPermission.get? p).getD 0 = sink.count { filter with permission := some p }

/-! ## The statistics of a subject -/

section Stats
variable {entries batch : List AuditEntry} {entry : AuditEntry} {s : String}

theorem foldl_add (entries : List AuditEntry) : entries.foldl SubjectStats.add SubjectStats.new =
    ⟨entries.length, entries.countP AuditEntry.isDenied, (entries.map AuditEntry.risk).sum,
      (entries.map AuditEntry.risk).foldl max 0⟩ := by
  induction entries using List.reverseRecOn with
  | nil => rfl
  | append_singleton entries entry ih =>
    rw [List.foldl_concat, ih, SubjectStats.add]
    by_cases h : entry.isDenied = true <;> simp [h, List.countP_append]

theorem le_foldl_max : ∀ (l : List ℚ) (a : ℚ), a ≤ l.foldl max a ∧ ∀ x ∈ l, x ≤ l.foldl max a
  | [], a => by simp
  | y :: l, a => by
    obtain ⟨ha, hl⟩ := le_foldl_max l (max a y)
    rw [List.foldl_cons]
    refine ⟨le_trans (le_max_left a y) ha, fun x hx => ?_⟩
    rcases List.mem_cons.1 hx with rfl | hx
    · exact le_trans (le_max_right a x) ha
    · exact hl x hx

theorem foldl_max_cases : ∀ (l : List ℚ) (a : ℚ), l.foldl max a = a ∨ l.foldl max a ∈ l
  | [], a => Or.inl rfl
  | y :: l, a => by
    rw [List.foldl_cons]
    rcases foldl_max_cases l (max a y) with h | h
    · rcases max_choice a y with hmax | hmax
      · exact Or.inl (h.trans hmax)
      · rw [h, hmax]
        exact Or.inr List.mem_cons_self
    · exact Or.inr (List.mem_cons_of_mem y h)

/-- **The statistics of the entries taken one by one.** -/
theorem statsOf_average (hne : entries ≠ []) :
    StatsOf entries (entries.foldl SubjectStats.add SubjectStats.new).average := by
  have hpos : 0 < entries.length := List.length_pos_of_ne_nil hne
  obtain ⟨hzero, hbound⟩ := le_foldl_max (entries.map AuditEntry.risk) 0
  rw [foldl_add, SubjectStats.average, if_pos hpos]
  refine ⟨rfl, rfl, div_mul_cancel₀ _ (Nat.cast_ne_zero.2 (Nat.ne_of_gt hpos)), ⟨hzero, fun entry hentry => ?_⟩, ?_⟩
  · exact hbound _ (List.mem_map_of_mem hentry)
  · refine (foldl_max_cases (entries.map AuditEntry.risk) 0).imp_right (fun hmem => ?_)
    exact List.mem_map.1 hmem

theorem get?_bySubject (batch : List AuditEntry) (s : String) : (analyze batch).bySubject.get? s =
    if s ∈ batch.map AuditEntry.subjectId then
      some ((ofKey AuditEntry.subjectId s batch).foldl SubjectStats.add SubjectStats.new).average
    else none := by
  unfold analyze
  dsimp only
  rw [HashMap.get?_mapValues, Lib.get?_group]
  split <;> rfl

theorem ofKey_ne_nil (h : s ∈ batch.map AuditEntry.subjectId) : ofKey AuditEntry.subjectId s batch ≠ [] := by
  obtain ⟨entry, hentry, hs⟩ := List.mem_map.1 h
  exact List.ne_nil_of_mem (List.mem_filter.2 ⟨hentry, decide_eq_true hs⟩)

/-- The entries of the subject, counted in the report. -/
theorem subject_counts (batch : List AuditEntry) (s : String) :
    (((analyze batch).bySubject.get? s).map SubjectStats.total).getD 0 =
        batch.countP (fun entry => decide (entry.subjectId = s)) ∧
      (((analyze batch).bySubject.get? s).map SubjectStats.denied).getD 0 =
        batch.countP (fun entry => decide (entry.subjectId = s) && entry.isDenied) := by
  rw [get?_bySubject]
  by_cases h : s ∈ batch.map AuditEntry.subjectId
  · have hstats := statsOf_average (ofKey_ne_nil h)
    rw [if_pos h, Option.map_some, Option.map_some, Option.getD_some, Option.getD_some, hstats.total, hstats.denied]
    refine ⟨List.countP_eq_length_filter.symm, ?_⟩
    unfold ofKey
    rw [List.countP_filter]
    exact List.countP_congr (fun entry _ => by rw [Bool.and_comm])
  · have hnone : ∀ entry ∈ batch, decide (entry.subjectId = s) = false := fun entry hentry =>
      decide_eq_false (fun hs => h (List.mem_map.2 ⟨entry, hentry, hs⟩))
    rw [if_neg h]
    refine ⟨(List.countP_eq_zero.2 (fun entry hentry => ?_)).symm, (List.countP_eq_zero.2 (fun entry hentry => ?_)).symm⟩
    · simp [hnone entry hentry]
    · simp [hnone entry hentry]

theorem sumBy_average (m : HashMap String SubjectStats) (μ : SubjectStats → Nat)
    (hμ : ∀ stats : SubjectStats, μ stats.average = μ stats) :
    (m.mapValues SubjectStats.average).sumBy μ = m.sumBy μ := by
  unfold HashMap.sumBy HashMap.mapValues
  rw [List.map_map]
  exact congrArg List.sum (List.map_congr_left (fun e _ => hμ e.2))

theorem average_total (stats : SubjectStats) : stats.average.total = stats.total := by
  unfold SubjectStats.average
  split <;> rfl

theorem average_denied (stats : SubjectStats) : stats.average.denied = stats.denied := by
  unfold SubjectStats.average
  split <;> rfl

end Stats

/-! ## The report -/

theorem riskiestOf_take (batch : List AuditEntry) : RiskiestOf batch ((batch.insertionSort Riskier).take topRiskLen) := by
  have hsorted := List.pairwise_insertionSort Riskier batch
  refine ⟨?_, hsorted.sublist (List.take_sublist _ _), (batch.insertionSort Riskier).drop topRiskLen, ?_, ?_, ?_⟩
  · rw [List.length_take, List.length_insertionSort]
  · rw [List.take_append_drop]
    exact List.perm_insertionSort Riskier batch
  · rw [← List.take_append_drop topRiskLen (batch.insertionSort Riskier), List.pairwise_append] at hsorted
    exact fun a ha b hb => hsorted.2.2 a ha b hb
  · intro r
    rw [List.take_append_drop]
    refine Lib.filter_insertionSort Riskier (fun a b ha hb => ?_) batch
    exact le_of_eq ((of_decide_eq_true hb).trans (of_decide_eq_true ha).symm)

theorem summarizes_analyze (batch : List AuditEntry) : Summarizes batch (analyze batch) where
  rate := by
    unfold analyze
    dsimp only
    by_cases h : 0 < batch.length
    · rw [if_pos h]
      exact div_mul_cancel₀ _ (Nat.cast_ne_zero.2 (Nat.ne_of_gt h))
    · have hnil : batch = [] := List.length_eq_zero_iff.1 (Nat.eq_zero_of_not_pos h)
      subst hnil
      simp
  subject s := by
    rw [get?_bySubject]
    by_cases h : s ∈ batch.map AuditEntry.subjectId
    · rw [if_pos h]
      exact Or.inl ⟨_, rfl, statsOf_average (ofKey_ne_nil h)⟩
    · rw [if_neg h]
      exact Or.inr ⟨rfl, fun entry hentry hs => h (List.mem_map.2 ⟨entry, hentry, hs⟩)⟩
  totals := by
    unfold analyze
    dsimp only
    rw [sumBy_average _ _ average_total, sumBy_average _ _ average_denied, Lib.sum_tally, List.length_map]
    have htotal : ∀ (stats : SubjectStats) (entry : AuditEntry), (stats.add entry).total = stats.total + 1 := fun _ _ => rfl
    have hdenied : ∀ (stats : SubjectStats) (entry : AuditEntry),
        (stats.add entry).denied = stats.denied + entry.isDenied.toNat := by
      intro stats entry
      unfold SubjectStats.add
      cases entry.isDenied <;> rfl
    refine ⟨?_, ?_, rfl⟩
    · rw [Lib.sumBy_group _ _ _ SubjectStats.total (fun _ => 1) rfl htotal]
      simp
    · rw [Lib.sumBy_group _ _ _ SubjectStats.denied (fun entry => entry.isDenied.toNat) rfl hdenied]
      exact Lib.sum_toNat _ batch
  top := riskiestOf_take batch

/-! ## The report and the counts -/

section Counts
variable {filter narrowed : AuditFilter}

/-- Counting in an unlimited query is counting with the filter narrowed. -/
theorem countP_query (sink : InMemoryAuditSink) (hlimit : filter.limit = none) (test : AuditEntry → Bool)
    (hnarrowed : ∀ entry, matchesFilter narrowed entry = (matchesFilter filter entry && test entry)) :
    (sink.query filter).countP test = sink.count narrowed := by
  have hquery : sink.query filter = (sink.entries.filter (matchesFilter filter)).insertionSort Newer := by
    unfold InMemoryAuditSink.query
    rw [hlimit]
  rw [hquery, (List.perm_insertionSort Newer _).countP_eq, List.countP_filter]
  exact List.countP_congr (fun entry _ => by rw [hnarrowed entry, Bool.and_comm])

theorem isHighRisk_eq (entry : AuditEntry) : entry.isHighRisk = decide (3 / 5 ≤ entry.risk) := by
  unfold AuditEntry.isHighRisk AuditEntry.risk
  cases entry.verdict with
  | none =>
    have hneg : ¬ (3 / 5 : ℚ) ≤ 0 := by decide +kernel
    simp [hneg]
  | some v => rfl

theorem matches_granted (h : filter.granted = none) (entry : AuditEntry) :
    matchesFilter { filter with granted := some false } entry = (matchesFilter filter entry && entry.isDenied) := by
  rw [Bool.eq_iff_iff]
  simp [matchesFilter, accepts, h, AuditEntry.isDenied]
  tauto

theorem matches_minRisk (h : filter.minRisk = none) (entry : AuditEntry) :
    matchesFilter { filter with minRisk := some (3 / 5) } entry = (matchesFilter filter entry && entry.isHighRisk) := by
  rw [isHighRisk_eq, Bool.eq_iff_iff]
  simp [matchesFilter, accepts, h, AuditEntry.risk]
  intros
  exact decide_eq_true_iff.symm

theorem matches_subjectId (h : filter.subjectId = none) (s : String) (entry : AuditEntry) :
    matchesFilter { filter with subjectId := some s } entry =
      (matchesFilter filter entry && decide (entry.subjectId = s)) := by
  rw [Bool.eq_iff_iff]
  simp [matchesFilter, accepts, h]
  tauto

theorem matches_permission (h : filter.permission = none) (p : String) (entry : AuditEntry) :
    matchesFilter { filter with permission := some p } entry =
      (matchesFilter filter entry && decide (entry.permission = p)) := by
  rw [Bool.eq_iff_iff]
  simp [matchesFilter, accepts, h]
  tauto

theorem agrees_analyze (sink : InMemoryAuditSink) (hlimit : filter.limit = none) :
    Agrees sink filter (analyze (sink.query filter)) where
  totalEntries := by
    have hcount : (sink.query filter).countP (fun _ => true) = sink.count filter :=
      countP_query sink hlimit _ (fun entry => by simp)
    rwa [List.countP_true] at hcount
  deniedCount hgranted := countP_query sink hlimit _ (matches_granted hgranted)
  highRiskCount hrisk := countP_query sink hlimit _ (matches_minRisk hrisk)
  subject hsubject s := by
    obtain ⟨htotal, hdenied⟩ := subject_counts (sink.query filter) s
    rw [htotal, hdenied]
    refine ⟨countP_query sink hlimit _ (matches_subjectId hsubject s), fun hgranted => ?_⟩
    refine countP_query sink hlimit _ (fun entry => ?_)
    have hopen : ({ filter with subjectId := some s } : AuditFilter).granted = none := hgranted
    rw [matches_granted hopen, matches_subjectId hsubject, Bool.and_assoc]
  permission hpermission p := by
    have hcount : ((analyze (sink.query filter)).byPermission.get? p).getD 0 =
        (sink.query filter).countP (fun entry => decide (entry.permission = p)) := by
      have hmap : ((sink.query filter).map AuditEntry.permission).count p =
          (sink.query filter).countP (fun entry => decide (entry.permission = p)) := by
        rw [List.count_eq_countP, List.countP_map]
        exact List.countP_congr (fun entry _ => by simp)
      unfold analyze
      dsimp only
      rw [Lib.get?_tally]
      split
      · exact hmap
      · rename_i hnone
        rw [← hmap, List.count_eq_zero_of_not_mem hnone]
        rfl
    rw [hcount]
    exact countP_query sink hlimit _ (matches_permission hpermission p)

end Counts

/-- **A report says what the sink counts**: after any run of a sink, a report without a limit is over the matching entries
among the last ones appended, and each of its numbers is the sink's own count of them, with the filter narrowed. -/
theorem analyzeRecent_agrees (maxEntries : Nat) (calls : List SinkCall) (filter : AuditFilter) :
    let sink := sinkMachine.run (InMemoryAuditSink.withMaxEntries maxEntries) calls
    Summarizes (sink.query filter) (sink.analyzeRecent filter) ∧
      (filter.limit = none → Agrees sink filter (sink.analyzeRecent filter) ∧
        (sink.analyzeRecent filter).totalEntries =
          ((appended calls).drop ((appended calls).length - maxEntries)).countP (matchesFilter filter)) := by
  intro sink
  refine ⟨summarizes_analyze _, fun hlimit => ⟨agrees_analyze _ hlimit, ?_⟩⟩
  have hcontent : ∀ entry : AuditEntry, matchesFilter filter entry.content = matchesFilter filter entry := fun _ => rfl
  have hretained := (holds_run maxEntries calls).retainsLast.entries
  have hcount := congrArg (List.countP (matchesFilter filter)) hretained
  rw [List.countP_map, List.countP_map] at hcount
  exact (agrees_analyze sink hlimit).totalEntries.trans hcount

end Audit
end Rbac
end Kirino
