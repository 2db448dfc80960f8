import Kirino.Lib.Entries
import Kirino.Lib.Instants
import Kirino.Service.NetworkSource
/-!
# Whitelist — sources let through for a time (`auth/passport/temporary_whitelist.rs`)

The verifier keeps a vector of entries; an addition takes out the entries of its source before it appends one.  Over any
run there is one entry for a source at most, and a check finds the last addition of its source that was not removed:
a cleanup takes nothing away that a later check would have found (`isWhitelisted_exact`).  Instants are nanoseconds on
the clock that does not go back; the sum of an instant and a time to live panics when its seconds leave an `i64`.
-/
namespace Kirino
namespace Auth

open Lib (Machine instantAfter)
open Lib.Entries (Edit Enters Leaves)
open Service (IpAddr)

inductive ClientSource where
  | ip (addr : IpAddr)
  | mac (addr : String)
deriving DecidableEq

structure WhitelistEntry where
  source : ClientSource
  expiresAt : Option Nat
deriving DecidableEq

inductive WhitelistOp where
  | isWhitelisted (source : ClientSource)
  | add (source : ClientSource) (ttl : Option Nat)
  | remove (source : ClientSource)
  | cleanupExpired
  | len
deriving DecidableEq

/-- A call in the order of the locks, with the instant it read. -/
structure WhitelistEvent where
  now : Nat
  op : WhitelistOp

inductive WhitelistAnswer where
  | whitelisted (answer : Bool)
  | done
  | cleaned (count : Nat)
  | length (count : Nat)
  | panicked
deriving DecidableEq

namespace WhitelistEntry

/-- The entry has no end, or one that the clock has not reached. -/
def live (entry : WhitelistEntry) (now : Nat) : Bool := entry.expiresAt.all (fun expires => decide (now < expires))

theorem live_anti {entry : WhitelistEntry} {now now' : Nat} (hle : now ≤ now') (h : entry.live now' = true) :
    entry.live now = true := by
  unfold live at *
  cases hexp : entry.expiresAt with
  | none => rfl
  | some expires =>
    rw [hexp] at h
    have hlt : now' < expires := by simpa using h
    simpa using Nat.lt_of_le_of_lt hle hlt

end WhitelistEntry

namespace WhitelistVerifier

/-- The entry that an addition appends. -/
def granted (now : Nat) (source : ClientSource) : Option Nat → Option WhitelistEntry
  | none => some ⟨source, none⟩
  | some ttl => (instantAfter now ttl).map (fun expires => ⟨source, some expires⟩)

def isWhitelisted (entries : List WhitelistEntry) (now : Nat) (source : ClientSource) : Bool :=
  entries.any (fun entry => decide (entry.source = source) && entry.live now)

def add (entries : List WhitelistEntry) (now : Nat) (source : ClientSource) (ttl : Option Nat) :
    List WhitelistEntry × WhitelistAnswer :=
  match granted now source ttl with
  | some entry => (entries.filter (fun e => decide (e.source ≠ source)) ++ [entry], .done)
  | none => (entries, .panicked)

def remove (entries : List WhitelistEntry) (source : ClientSource) : List WhitelistEntry :=
  entries.filter (fun e => decide (e.source ≠ source))

def cleanupExpired (entries : List WhitelistEntry) (now : Nat) : List WhitelistEntry × Nat :=
  if entries.length = 0 then (entries, 0)
  else
    let kept := entries.filter (fun e => e.live now)
    (kept, entries.length - kept.length)

def call (entries : List WhitelistEntry) (event : WhitelistEvent) : List WhitelistEntry × WhitelistAnswer :=
  match event.op with
  | .isWhitelisted source => (entries, .whitelisted (isWhitelisted entries event.now source))
  | .add source ttl => add entries event.now source ttl
  | .remove source => (remove entries source, .done)
  | .cleanupExpired => ((cleanupExpired entries event.now).1, .cleaned (cleanupExpired entries event.now).2)
  | .len => (entries, .length entries.length)

def machine : Machine (List WhitelistEntry) WhitelistEvent WhitelistAnswer where
  step entries event := (call entries event).1
  out entries event := (call entries event).2

/-! ## The calls as edits -/

def edit (event : WhitelistEvent) : Edit WhitelistEntry :=
  match event.op with
  | .isWhitelisted _ => .keep
  | .add source ttl =>
    match granted event.now source ttl with
    | some entry => .put (fun e => decide (e.source = source)) entry
    | none => .keep
  | .remove source => .drop (fun e => decide (e.source = source))
  | .cleanupExpired => .drop (fun e => !e.live event.now)
  | .len => .keep

theorem cleanupExpired_fst (entries : List WhitelistEntry) (now : Nat) :
    (cleanupExpired entries now).1 = entries.filter (fun e => e.live now) := by
  unfold cleanupExpired
  split
  · next h => simp [List.length_eq_zero_iff.1 h]
  · rfl

theorem step_eq_apply (entries : List WhitelistEntry) (event : WhitelistEvent) :
    machine.step entries event = Lib.Entries.apply entries (edit event) := by
  obtain ⟨now, op⟩ := event
  cases op with
  | isWhitelisted source => rfl
  | add source ttl =>
    simp only [machine, call, add, edit]
    cases granted now source ttl with
    | none => rfl
    | some entry => simp [Lib.Entries.apply]
  | remove source => simp [machine, call, remove, edit, Lib.Entries.apply]
  | cleanupExpired => simp [machine, call, cleanupExpired_fst, edit, Lib.Entries.apply]
  | len => rfl

theorem source_of_granted {now : Nat} {source : ClientSource} {ttl : Option Nat} {entry : WhitelistEntry}
    (h : granted now source ttl = some entry) : entry.source = source := by
  cases ttl with
  | none =>
    rw [← Option.some.inj h]
  | some ttl =>
    obtain ⟨expires, _, rfl⟩ := Option.map_eq_some_iff.1 h
    rfl

theorem respects_edit (event : WhitelistEvent) :
    Lib.Entries.Respects (fun a b : WhitelistEntry => a.source = b.source) (edit event) := by
  obtain ⟨now, op⟩ := event
  cases op with
  | add source ttl =>
    simp only [edit]
    cases h : granted now source ttl with
    | none => trivial
    | some entry =>
      intro e he hclash
      exact of_decide_eq_false he (hclash.trans (source_of_granted h))
  | _ => trivial

/-- **One entry for a source**, after any calls. -/
theorem sources_pairwise (events : List WhitelistEvent) :
    (machine.run [] events).Pairwise (fun a b => ¬ a.source = b.source) :=
  Lib.Entries.pairwise_run id edit step_eq_apply respects_edit List.Pairwise.nil events

/-! ## What a check finds -/

/-- The call is a removal of the source, or an addition of it that does not panic. -/
def Supersedes (event : WhitelistEvent) (source : ClientSource) : Prop :=
  event.op = .remove source ∨ ∃ ttl entry, event.op = .add source ttl ∧ granted event.now source ttl = some entry

/-- The last of the calls before `k` that supersedes the source is an addition of this entry. -/
def LastGrant (events : List WhitelistEvent) (k : Nat) (source : ClientSource) (entry : WhitelistEntry) : Prop :=
  ∃ i event ttl, i < k ∧ events[i]? = some event ∧ event.op = .add source ttl ∧
    granted event.now source ttl = some entry ∧
    ∀ j f, i < j → j < k → events[j]? = some f → ¬ Supersedes f source

theorem enters_edit_iff {entries : List WhitelistEntry} {event : WhitelistEvent} {entry : WhitelistEntry} :
    Enters entries (edit event) entry ↔
      ∃ ttl, event.op = .add entry.source ttl ∧ granted event.now entry.source ttl = some entry := by
  obtain ⟨now, op⟩ := event
  cases op with
  | add source ttl =>
    simp only [edit]
    cases h : granted now source ttl with
    | none =>
      refine iff_of_false id ?_
      rintro ⟨ttl', hop, hg⟩
      injection hop with hsource httl
      rw [← hsource, ← httl, h] at hg
      cases hg
    | some granted' =>
      simp only [Enters]
      constructor
      · rintro rfl
        obtain rfl := source_of_granted h
        exact ⟨ttl, rfl, h⟩
      · rintro ⟨ttl', hop, hg⟩
        injection hop with hsource httl
        rw [← hsource, ← httl, h] at hg
        exact (Option.some.inj hg).symm
  | _ => simp [edit, Enters]

/-- A call takes an entry out when it supersedes the source, or cleans up after the entry's end. -/
theorem leaves_edit_iff {event : WhitelistEvent} {entry : WhitelistEntry} :
    Leaves (edit event) entry ↔
      Supersedes event entry.source ∨ event.op = .cleanupExpired ∧ entry.live event.now = false := by
  obtain ⟨now, op⟩ := event
  cases op with
  | add source ttl =>
    simp only [edit, Supersedes, reduceCtorEq, false_and, or_false, false_or]
    cases h : granted now source ttl with
    | none =>
      refine iff_of_false id ?_
      rintro ⟨ttl', entry', hop, hg⟩
      injection hop with hsource httl
      rw [← hsource, ← httl, h] at hg
      cases hg
    | some granted' =>
      simp only [Leaves, decide_eq_true_eq, WhitelistOp.add.injEq]
      constructor
      · rintro rfl
        exact ⟨ttl, granted', ⟨rfl, rfl⟩, h⟩
      · rintro ⟨_, _, ⟨rfl, -⟩, -⟩
        rfl
  | remove source =>
    simp only [edit, Leaves, Supersedes, decide_eq_true_eq, WhitelistOp.remove.injEq, reduceCtorEq, false_and,
      exists_false, or_false]
    exact eq_comm
  | _ => simp [edit, Leaves, Supersedes]

variable {events : List WhitelistEvent} {k now : Nat} {source : ClientSource}

/-- **What a check finds**: the last grant of the source, when its end has not come.  A cleanup takes out nothing that the
check would have found, as long as the check did not read its clock before it. -/
theorem isWhitelisted_run_iff
    (hclock : ∀ f ∈ events.take k, f.op = .cleanupExpired → f.now ≤ now) :
    isWhitelisted (machine.run [] (events.take k)) now source = true ↔
      ∃ entry, LastGrant events k source entry ∧ entry.live now = true := by
  have hmem : ∀ entry : WhitelistEntry, entry.live now = true →
      (entry ∈ machine.run [] (events.take k) ↔ LastGrant events k entry.source entry) := by
    intro entry hlive
    refine (Lib.Entries.mem_take_iff id edit step_eq_apply rfl events k entry).trans ?_
    constructor
    · rintro ⟨i, event, hik, hi, henters, hlater⟩
      obtain ⟨ttl, hop, hg⟩ := enters_edit_iff.1 henters
      exact ⟨i, event, ttl, hik, hi, hop, hg,
        fun j f hij hjk hf hs => hlater j f hij hjk hf (leaves_edit_iff.2 (Or.inl hs))⟩
    · rintro ⟨i, event, ttl, hik, hi, hop, hg, hlater⟩
      refine ⟨i, event, hik, hi, enters_edit_iff.2 ⟨ttl, hop, hg⟩, fun j f hij hjk hf hleaves => ?_⟩
      rcases leaves_edit_iff.1 hleaves with hs | ⟨hclean, hdead⟩
      · exact hlater j f hij hjk hf hs
      · have hbefore : f ∈ events.take k := List.mem_of_getElem? (by rw [List.getElem?_take, if_pos hjk, hf])
        rw [WhitelistEntry.live_anti (hclock f hbefore hclean) hlive] at hdead
        cases hdead
  unfold isWhitelisted
  simp only [List.any_eq_true, Bool.and_eq_true, decide_eq_true_eq]
  constructor
  · rintro ⟨entry, hentry, rfl, hlive⟩
    exact ⟨entry, (hmem entry hlive).1 hentry, hlive⟩
  · rintro ⟨entry, hgrant, hlive⟩
    have hsource : entry.source = source := by
      obtain ⟨_, _, _, _, _, _, hg, _⟩ := hgrant
      exact source_of_granted hg
    rw [← hsource] at hgrant
    exact ⟨entry, (hmem entry hlive).2 hgrant, hsource, hlive⟩

/-- **The whitelist over a run**: at most one entry for a source, and a check is answered by the last grant of its
source alone. -/
theorem isWhitelisted_exact (events : List WhitelistEvent) (k now : Nat) (source : ClientSource)
    (hcheck : events[k]? = some ⟨now, .isWhitelisted source⟩)
    (hclock : ∀ f ∈ events.take k, f.op = .cleanupExpired → f.now ≤ now) :
    ((machine.run [] (events.take k)).map WhitelistEntry.source).Nodup ∧
      ((machine.outs [] events)[k]? = some (.whitelisted true) ↔
        ∃ entry, LastGrant events k source entry ∧ entry.live now = true) := by
  refine ⟨List.pairwise_map.2 (sources_pairwise _), ?_⟩
  rw [Machine.outs_getElem?, hcheck]
  simp only [Option.map_some, machine, call, Option.some.injEq, WhitelistAnswer.whitelisted.injEq]
  exact isWhitelisted_run_iff hclock

/-- An address granted for good, then for ten nanoseconds, and found after a cleanup. -/
theorem isWhitelisted_exact_regranted : (machine.outs [] [⟨1, .add (.mac "aa") none⟩, ⟨2, .add (.mac "aa") (some 10)⟩,
    ⟨3, .cleanupExpired⟩, ⟨4, .isWhitelisted (.mac "aa")⟩])[3]? = some (.whitelisted true) := by
  refine (isWhitelisted_exact _ 3 4 (.mac "aa") rfl (by decide)).2.2 ⟨⟨.mac "aa", some 12⟩, ?_, rfl⟩
  refine ⟨1, _, some 10, by decide, rfl, rfl, rfl, fun j f hj hk hf => ?_⟩
  obtain rfl : j = 2 := by omega
  cases hf
  rintro (hop | ⟨_, _, hop, _⟩) <;> cases hop

end WhitelistVerifier
end Auth
end Kirino
