import Mathlib.Algebra.Order.Ring.Rat
import Mathlib.Data.List.Nodup
import Kirino.Lib.Machine
import Kirino.Lib.StableSort
/-!
# Sink — the bounded audit sink (`rbac/audit.rs`)

A ring buffer of the last entries, each with an id of its own.  After any run it holds the last appended entries with the
ids they were given (`entries_run`), and a query is the retained entries that match, newest first.
-/
namespace Kirino
namespace Rbac
namespace Audit

open Lib (Machine)

structure AuditSubScores where
  delegatorWeight : ℚ
  trustPenalty : ℚ
  sensitivity : ℚ
  domainMismatch : ℚ
  anomaly : ℚ
deriving DecidableEq, Repr

structure AuditVerdict where
  autonomyLevel : String
  riskScore : ℚ
  subScores : AuditSubScores
  evidence : List String
  mitigation : Option String
deriving DecidableEq, Repr

structure AuditEntry where
  id : Nat
  subjectId : String
  subjectType : String
  permission : String
  endpoint : String
  granted : Bool
  createdAt : Int
  verdict : Option AuditVerdict
deriving DecidableEq, Repr

def AuditEntry.isDenied (entry : AuditEntry) : Bool := !entry.granted

structure AuditFilter where
  subjectId : Option String
  granted : Option Bool
  permission : Option String
  since : Option Int
  until_ : Option Int
  minRisk : Option ℚ
  limit : Option Nat
deriving DecidableEq, Repr

/-- The filter that accepts everything. -/
def AuditFilter.default : AuditFilter := ⟨none, none, none, none, none, none, none⟩

/-- The field, when it is set, accepts. -/
def accepts {α : Type} (field : Option α) (test : α → Bool) : Bool := field.all test

def matchesFilter (filter : AuditFilter) (entry : AuditEntry) : Bool :=
  accepts filter.subjectId (fun subjectId => decide (entry.subjectId = subjectId)) &&
  accepts filter.granted (fun granted => decide (entry.granted = granted)) &&
  accepts filter.permission (fun permission => decide (entry.permission = permission)) &&
  accepts filter.since (fun since => decide (since ≤ entry.createdAt)) &&
  accepts filter.until_ (fun limit => decide (entry.createdAt ≤ limit)) &&
  accepts filter.minRisk (fun minRisk => decide (minRisk ≤ (entry.verdict.map AuditVerdict.riskScore).getD 0))

structure InMemoryAuditSink where
  entries : List AuditEntry
  nextId : Nat
  maxEntries : Nat
deriving DecidableEq, Repr

/-- Newest first. -/
def Newer (a b : AuditEntry) : Prop := b.createdAt ≤ a.createdAt

instance : DecidableRel Newer := fun a b => inferInstanceAs (Decidable (b.createdAt ≤ a.createdAt))

instance : Std.Total Newer := ⟨fun a b => Int.le_total b.createdAt a.createdAt⟩

instance : IsTrans AuditEntry Newer := ⟨fun _ _ _ hab hbc => Int.le_trans hbc hab⟩

namespace InMemoryAuditSink

def withMaxEntries (maxEntries : Nat) : InMemoryAuditSink := ⟨[], 1, maxEntries⟩

/-- Entries leave at the front until there are no more than the maximum. -/
def evict (maxEntries : Nat) : List AuditEntry → List AuditEntry
  | [] => []
  | entry :: entries => if maxEntries < entries.length + 1 then evict maxEntries entries else entry :: entries

def append (sink : InMemoryAuditSink) (entry : AuditEntry) : InMemoryAuditSink :=
  { sink with
    entries := evict sink.maxEntries (sink.entries ++ [{ entry with id := sink.nextId }])
    nextId := (sink.nextId + 1) % 2 ^ 64 }

def query (sink : InMemoryAuditSink) (filter : AuditFilter) : List AuditEntry :=
  let result := (sink.entries.filter (matchesFilter filter)).insertionSort Newer
  match filter.limit with
  | some limit => result.take limit
  | none => result

def count (sink : InMemoryAuditSink) (filter : AuditFilter) : Nat := sink.entries.countP (matchesFilter filter)

end InMemoryAuditSink

inductive SinkCall where
  | append (entry : AuditEntry)
  | query (filter : AuditFilter)
  | count (filter : AuditFilter)
deriving DecidableEq, Repr

inductive SinkAnswer where
  | unit
  | entries (entries : List AuditEntry)
  | count (count : Nat)
deriving DecidableEq, Repr

/-- The sink, each call under its lock. -/
def sinkMachine : Machine InMemoryAuditSink SinkCall SinkAnswer where
  step sink
    | .append entry => sink.append entry
    | .query _ => sink
    | .count _ => sink
  out sink
    | .append _ => .unit
    | .query filter => .entries (sink.query filter)
    | .count filter => .count (sink.count filter)

/-- The entries appended, in order. -/
def appended (calls : List SinkCall) : List AuditEntry :=
  calls.filterMap (fun
    | .append entry => some entry
    | _ => none)

/-- The entries with their ids, the `k`th being `k` as a `u64`. -/
def numbered (entries : List AuditEntry) : List AuditEntry :=
  entries.mapIdx (fun k entry => { entry with id := (k + 1) % 2 ^ 64 })

/-! ## What the sink holds -/

theorem evict_eq_drop (maxEntries : Nat) : ∀ entries : List AuditEntry,
    InMemoryAuditSink.evict maxEntries entries = entries.drop (entries.length - maxEntries)
  | [] => by simp [InMemoryAuditSink.evict]
  | entry :: entries => by
    unfold InMemoryAuditSink.evict
    by_cases h : maxEntries < entries.length + 1
    · have hsub : (entry :: entries).length - maxEntries = entries.length - maxEntries + 1 := by
        rw [List.length_cons]
        omega
      rw [if_pos h, evict_eq_drop maxEntries entries, hsub, List.drop_succ_cons]
    · have hsub : (entry :: entries).length - maxEntries = 0 := by
        rw [List.length_cons]
        omega
      rw [if_neg h, hsub, List.drop_zero]

theorem length_numbered (entries : List AuditEntry) : (numbered entries).length = entries.length := List.length_mapIdx

theorem numbered_concat (entries : List AuditEntry) (entry : AuditEntry) :
    numbered (entries ++ [entry]) = numbered entries ++ [{ entry with id := (entries.length + 1) % 2 ^ 64 }] := by
  unfold numbered
  rw [List.mapIdx_append]
  simp

/-- The state of a sink after the entries have been appended. -/
structure Holds (maxEntries : Nat) (history : List AuditEntry) (sink : InMemoryAuditSink) : Prop where
  entries : sink.entries = (numbered history).drop (history.length - maxEntries)
  nextId : sink.nextId = (history.length + 1) % 2 ^ 64
  maxEntries : sink.maxEntries = maxEntries

/-- **One append**: the entry comes in at the back and the oldest goes when there is no room. -/
theorem Holds.append {maxEntries : Nat} {history : List AuditEntry} {sink : InMemoryAuditSink}
    (h : Holds maxEntries history sink) (entry : AuditEntry) : Holds maxEntries (history ++ [entry]) (sink.append entry) where
  entries := by
    have hle : history.length - maxEntries ≤ (numbered history).length := by
      rw [length_numbered]
      omega
    unfold InMemoryAuditSink.append
    dsimp only
    rw [evict_eq_drop, h.entries, h.nextId, h.maxEntries, ← List.drop_append_of_le_length hle, ← numbered_concat,
      List.drop_drop, List.length_drop, length_numbered, List.length_append, List.length_singleton]
    congr 1
    omega
  nextId := by
    unfold InMemoryAuditSink.append
    dsimp only
    rw [h.nextId, List.length_append, List.length_singleton]
    omega
  maxEntries := h.maxEntries

theorem appended_concat (calls : List SinkCall) (call : SinkCall) :
    appended (calls ++ [call]) = appended calls ++ appended [call] := List.filterMap_append

/-- **The sink holds the last entries appended**, at every moment of a run. -/
theorem holds_run (maxEntries : Nat) (calls : List SinkCall) :
    Holds maxEntries (appended calls) (sinkMachine.run (InMemoryAuditSink.withMaxEntries maxEntries) calls) := by
  induction calls using List.reverseRecOn with
  | nil => exact ⟨by simp [appended, numbered, InMemoryAuditSink.withMaxEntries], rfl, rfl⟩
  | append_singleton calls call ih =>
    rw [Machine.run_append, appended_concat]
    cases call with
    | append entry => exact ih.append entry
    | query filter =>
      rw [show appended [SinkCall.query filter] = [] from rfl, List.append_nil]
      exact ih
    | count filter =>
      rw [show appended [SinkCall.count filter] = [] from rfl, List.append_nil]
      exact ih

/-! ## What the calls read -/

/-- The entry without its id. -/
def AuditEntry.content (entry : AuditEntry) : AuditEntry := { entry with id := 0 }

/-- The sink holds the last entries appended, in order, each with its place in the history as its id. -/
structure RetainsLast (maxEntries : Nat) (history : List AuditEntry) (sink : InMemoryAuditSink) : Prop where
  length : sink.entries.length = min history.length maxEntries
  entries : sink.entries.map AuditEntry.content =
    (history.drop (history.length - maxEntries)).map AuditEntry.content
  ids : sink.entries.map AuditEntry.id =
    ((List.range history.length).drop (history.length - maxEntries)).map (fun k => (k + 1) % 2 ^ 64)

/-- The ids of the retained entries are strictly increasing, so that no two are the same. -/
def IdsIncrease (sink : InMemoryAuditSink) : Prop := (sink.entries.map AuditEntry.id).Pairwise (· < ·)

/-- A query is the retained entries that match, once each, newest first and equal times in append order, up to the limit;
a count is the length of the query without the limit. -/
structure ReadsRetained (sink : InMemoryAuditSink) : Prop where
  count : ∀ filter : AuditFilter, sink.count filter = (sink.query { filter with limit := none }).length
  matching : ∀ filter : AuditFilter,
    (sink.query { filter with limit := none }).Perm (sink.entries.filter (matchesFilter filter))
  newest : ∀ filter : AuditFilter, (sink.query filter).Pairwise Newer
  ties : ∀ (filter : AuditFilter) (t : Int),
    (sink.query { filter with limit := none }).filter (fun entry => decide (entry.createdAt = t)) =
      (sink.entries.filter (matchesFilter filter)).filter (fun entry => decide (entry.createdAt = t))
  limited : ∀ (filter : AuditFilter) (limit : Nat), filter.limit = some limit →
    sink.query filter = (sink.query { filter with limit := none }).take limit

theorem query_unlimited (sink : InMemoryAuditSink) (filter : AuditFilter) :
    sink.query { filter with limit := none } = (sink.entries.filter (matchesFilter filter)).insertionSort Newer := rfl

theorem readsRetained (sink : InMemoryAuditSink) : ReadsRetained sink where
  count filter := by
    rw [query_unlimited, List.length_insertionSort]
    exact List.countP_eq_length_filter
  matching filter := List.perm_insertionSort Newer _
  newest filter := by
    have hsorted := List.pairwise_insertionSort Newer (sink.entries.filter (matchesFilter filter))
    unfold InMemoryAuditSink.query
    cases filter.limit with
    | none => exact hsorted
    | some limit => exact hsorted.sublist (List.take_sublist limit _)
  ties filter t := by
    refine Lib.filter_insertionSort Newer (fun a b ha hb => ?_) _
    have ha' : a.createdAt = t := by simpa using ha
    have hb' : b.createdAt = t := by simpa using hb
    exact Int.le_of_eq (hb'.trans ha'.symm)
  limited filter limit hlimit := by
    unfold InMemoryAuditSink.query
    rw [hlimit]
    rfl

theorem Holds.retainsLast {maxEntries : Nat} {history : List AuditEntry} {sink : InMemoryAuditSink}
    (h : Holds maxEntries history sink) : RetainsLast maxEntries history sink where
  length := by
    rw [h.entries, List.length_drop, length_numbered]
    omega
  entries := by
    have hcontent : (numbered history).map AuditEntry.content = history.map AuditEntry.content := by
      unfold numbered
      apply List.ext_getElem <;> simp [AuditEntry.content]
    rw [h.entries, List.map_drop, hcontent, List.map_drop]
  ids := by
    have hids : (numbered history).map AuditEntry.id = (List.range history.length).map (fun k => (k + 1) % 2 ^ 64) := by
      unfold numbered
      apply List.ext_getElem <;> simp
    rw [h.entries, List.map_drop, hids, List.map_drop]

theorem RetainsLast.idsIncrease {maxEntries : Nat} {history : List AuditEntry} {sink : InMemoryAuditSink}
    (h : RetainsLast maxEntries history sink) (hlength : history.length < 2 ^ 64) : IdsIncrease sink := by
  unfold IdsIncrease
  rw [h.ids, List.map_drop]
  refine List.Pairwise.sublist (List.drop_sublist _ _) ?_
  rw [List.pairwise_map]
  refine List.Pairwise.imp_of_mem (fun {a b} ha hb hab => ?_) List.pairwise_lt_range
  have hb' := List.mem_range.1 hb
  rw [Nat.mod_eq_of_lt (by omega), Nat.mod_eq_of_lt (by omega)]
  omega

/-- **The sink is bounded and reads what it retains**: after every run it holds the last entries appended, in order, with
ids that increase as long as fewer than `2 ^ 64` entries have been appended. -/
theorem boundedSink (maxEntries : Nat) (calls : List SinkCall) :
    RetainsLast maxEntries (appended calls) (sinkMachine.run (InMemoryAuditSink.withMaxEntries maxEntries) calls) ∧
      ((appended calls).length < 2 ^ 64 →
        IdsIncrease (sinkMachine.run (InMemoryAuditSink.withMaxEntries maxEntries) calls)) ∧
      ReadsRetained (sinkMachine.run (InMemoryAuditSink.withMaxEntries maxEntries) calls) := by
  have hretains := (holds_run maxEntries calls).retainsLast
  exact ⟨hretains, hretains.idsIncrease, readsRetained _⟩

def aliceEntry : AuditEntry := ⟨0, "alice", "user", "doc:read", "/docs", true, 0, none⟩

/-- Three entries appended to a sink of two: it keeps the last two. -/
theorem boundedSink_three : RetainsLast 2 [aliceEntry, aliceEntry, aliceEntry]
      (sinkMachine.run (InMemoryAuditSink.withMaxEntries 2) [.append aliceEntry, .append aliceEntry, .append aliceEntry]) ∧
    IdsIncrease (sinkMachine.run (InMemoryAuditSink.withMaxEntries 2)
      [.append aliceEntry, .append aliceEntry, .append aliceEntry]) := by
  obtain ⟨hretains, hids, -⟩ := boundedSink 2 [.append aliceEntry, .append aliceEntry, .append aliceEntry]
  exact ⟨hretains, hids (by decide)⟩

theorem appended_replicate (n : Nat) (entry : AuditEntry) :
    appended (List.replicate n (.append entry)) = List.replicate n entry := by
  induction n with
  | zero => rfl
  | succ n ih => exact congrArg (entry :: ·) ih

/-- One entry appended `2 ^ 64` times: the last carries the id `0`, after `2 ^ 64 - 1`. -/
theorem not_idsIncrease_wrapped : ¬ IdsIncrease (sinkMachine.run (InMemoryAuditSink.withMaxEntries 2)
    (List.replicate (2 ^ 64) (.append aliceEntry))) := by
  intro h
  have hids := (holds_run 2 (List.replicate (2 ^ 64) (.append aliceEntry))).retainsLast.ids
  unfold IdsIncrease at h
  rw [hids, appended_replicate, List.length_replicate, List.map_drop, List.pairwise_iff_getElem] at h
  have hlt := h 0 1 (by simp) (by simp) Nat.zero_lt_one
  simp at hlt

end Audit
end Rbac
end Kirino
