import Mathlib.Data.Set.Card
import Kirino.Lib.Lease
import Kirino.Lib.Machine
import Kirino.Lib.StableSort
import Kirino.Lib.Tally
/-!
# Presence — live connections (`packages/session/src/presence.rs`)

A connection is registered when it is accepted and taken out when its lease is dropped; a touch keeps it from being idle.
Each query reads the clock, works out the instant from which on an entry is not idle, and only then takes the lock.  An
instant is the nanoseconds since the least one that can be represented.  Where the cutoff lies before that, the code
reads the clock again and takes the second reading for it (`idleCutoff`).
-/
namespace Kirino
namespace Session

open Lib (HashMap Machine)

/-- `Instant::checked_sub`. -/
def checkedSub (instant duration : Nat) : Option Nat := if duration ≤ instant then some (instant - duration) else none

/-- A registry; the timeout is in nanoseconds. -/
structure PresenceRegistry where
  idleTimeout : Nat

structure PresenceRecord (U : Type) where
  id : U
  user : Option String
  scope : Option String
  connectedAt : Nat
  lastSeenAt : Nat

namespace PresenceRegistry

def defaultIdleTimeout : Nat := 90 * 10 ^ 9

def new : PresenceRegistry := ⟨defaultIdleTimeout⟩

/-- No timeout is shorter than a millisecond. -/
def withIdleTimeout (idleTimeout : Nat) : PresenceRegistry := ⟨max idleTimeout (10 ^ 6)⟩

/-- The times of the connection are those of the wall clock and of the monotonic clock. -/
structure Entry where
  user : Option String
  scope : Option String
  connectedAt : Nat
  lastActivity : Nat
deriving DecidableEq, Repr

abbrev Entries (U : Type) := HashMap U Entry

/-- What a use of the lock does, with what the call has been given or has drawn. -/
inductive Op (U : Type) where
  | connect (id : U) (user scope : Option String) (connectedAt : Nat)
  | touch (id : U)
  | remove (id : U)
  | sweep
  | connectionCount
  | userCount
  | anonymousCount
  | perUserCounts
  | scopeIds
  | scopeOnline (scope : String)
  | snapshot (lastSeenAt : Nat)

/-- A use of the lock, and the readings of the clock by its call: the second one is made when there is no cutoff. -/
structure Event (U : Type) where
  now : Nat
  again : Nat
  op : Op U

inductive Answer (U : Type) where
  | leased (id : U)
  | touched (registered : Bool)
  | removed
  | swept (number : Nat)
  | counted (number : Nat)
  | counts (perUser : HashMap String Nat)
  | scopes (ids : List String)
  | online (result : Bool)
  | records (list : List (PresenceRecord U))

section Queries
variable {U : Type} (entries : Entries U) (cutoff : Nat)

/-- The entries that are not idle. -/
def live : List Entry := (entries.entries.map Prod.snd).filter (fun e => decide (cutoff < e.lastActivity))

def connectionCount : Nat := (live entries cutoff).length

def userCount : Nat := ((live entries cutoff).filterMap Entry.user).dedup.length

def anonymousCount : Nat := ((live entries cutoff).filter (fun e => e.user.isNone)).length

def perUserCounts : HashMap String Nat :=
  (entries.entries.map Prod.snd).foldl (fun counts entry =>
    if entry.lastActivity ≤ cutoff then counts
    else
      match entry.user with
      | some user => Lib.increment counts user
      | none => counts) HashMap.empty

def scopeIds : List String := ((live entries cutoff).filterMap Entry.scope).dedup

def scopeOnline (scope : String) : Bool :=
  (entries.entries.map Prod.snd).any (fun e => decide (cutoff < e.lastActivity) && decide (e.scope = some scope))

def snapshot (lastSeenAt : Nat) : List (PresenceRecord U) :=
  ((entries.entries.filter (fun e => decide (cutoff < e.2.lastActivity))).map
    (fun e => (⟨e.1, e.2.user, e.2.scope, e.2.connectedAt, lastSeenAt⟩ : PresenceRecord U))).insertionSort
      (fun a b => a.connectedAt ≤ b.connectedAt)

def sweptAt : Entries U := entries.retain (fun _ e => decide (cutoff < e.lastActivity))

/-! ## The queries agree -/

theorem foldl_perUser (values : List Entry) (counts : HashMap String Nat) :
    values.foldl (fun counts entry =>
      if entry.lastActivity ≤ cutoff then counts
      else
        match entry.user with
        | some user => Lib.increment counts user
        | none => counts) counts =
      ((values.filter (fun e => decide (cutoff < e.lastActivity))).filterMap Entry.user).foldl Lib.increment counts := by
  induction values generalizing counts with
  | nil => rfl
  | cons entry values ih =>
    rw [List.foldl_cons, ih, List.filter_cons]
    by_cases hidle : entry.lastActivity ≤ cutoff
    · rw [if_pos hidle, if_neg (by simpa using hidle)]
    · rw [if_neg hidle, if_pos (by simpa using hidle), List.filterMap_cons]
      cases entry.user with
      | none => rfl
      | some user => rfl

/-- The counts are those of the users of the live entries. -/
theorem perUserCounts_eq_tally : perUserCounts entries cutoff = Lib.tally ((live entries cutoff).filterMap Entry.user) :=
  foldl_perUser cutoff _ _

theorem length_filterMap_user (l : List Entry) :
    (l.filterMap Entry.user).length + (l.filter (fun e => e.user.isNone)).length = l.length := by
  induction l with
  | nil => rfl
  | cons entry l ih =>
    rw [List.filterMap_cons, List.filter_cons, List.length_cons]
    cases hu : entry.user with
    | none =>
      simp only [Option.isNone_none, if_true, List.length_cons]
      omega
    | some user =>
      simp only [Option.isNone_some, Bool.false_eq_true, if_false, List.length_cons]
      omega

/-- **The users' counts and the anonymous connections are all connections.** -/
theorem sum_perUserCounts :
    (perUserCounts entries cutoff).sum + anonymousCount entries cutoff = connectionCount entries cutoff := by
  rw [perUserCounts_eq_tally, Lib.sum_tally]
  exact length_filterMap_user _

theorem userCount_eq_len : userCount entries cutoff = (perUserCounts entries cutoff).len := by
  rw [perUserCounts_eq_tally, Lib.len_tally]
  rfl

theorem scopeOnline_iff (scope : String) : scopeOnline entries cutoff scope = true ↔ scope ∈ scopeIds entries cutoff := by
  simp only [scopeOnline, scopeIds, live, List.any_eq_true, Bool.and_eq_true, decide_eq_true_eq, List.mem_dedup,
    List.mem_filterMap, List.mem_filter, and_assoc]

/-- A snapshot has the live connections, the oldest first. -/
theorem snapshot_spec (lastSeenAt : Nat) :
    (snapshot entries cutoff lastSeenAt).length = connectionCount entries cutoff ∧
      (snapshot entries cutoff lastSeenAt).Pairwise (fun a b => a.connectedAt ≤ b.connectedAt) := by
  constructor
  · unfold snapshot connectionCount live
    rw [List.length_insertionSort, List.length_map, List.filter_map, List.length_map]
    rfl
  · have : Std.Total (fun a b : PresenceRecord U => a.connectedAt ≤ b.connectedAt) := ⟨fun _ _ => Nat.le_total _ _⟩
    have : IsTrans (PresenceRecord U) (fun a b => a.connectedAt ≤ b.connectedAt) := ⟨fun _ _ _ => Nat.le_trans⟩
    exact List.pairwise_insertionSort _ _

end Queries

section Registry
variable {U : Type} [DecidableEq U] (registry : PresenceRegistry)

def idleCutoff (now again : Nat) : Nat := (checkedSub now registry.idleTimeout).getD again

def touch (entries : Entries U) (now : Nat) (id : U) : Entries U × Answer U :=
  match entries.get? id with
  | some entry => (entries.insert id { entry with lastActivity := now }, .touched true)
  | none => (entries, .touched false)

def perform (entries : Entries U) (event : Event U) : Entries U × Answer U :=
  let cutoff := registry.idleCutoff event.now event.again
  match event.op with
  | .connect id user scope connectedAt => (entries.insert id ⟨user, scope, connectedAt, event.now⟩, .leased id)
  | .touch id => touch entries event.now id
  | .remove id => (entries.remove id, .removed)
  | .sweep => (sweptAt entries cutoff, .swept (entries.len - (sweptAt entries cutoff).len))
  | .connectionCount => (entries, .counted (connectionCount entries cutoff))
  | .userCount => (entries, .counted (userCount entries cutoff))
  | .anonymousCount => (entries, .counted (anonymousCount entries cutoff))
  | .perUserCounts => (entries, .counts (perUserCounts entries cutoff))
  | .scopeIds => (entries, .scopes (scopeIds entries cutoff))
  | .scopeOnline scope => (entries, .online (scopeOnline entries cutoff scope))
  | .snapshot lastSeenAt => (entries, .records (snapshot entries cutoff lastSeenAt))

def machine : Machine (Entries U) (Event U) (Answer U) where
  step entries event := (registry.perform entries event).1
  out entries event := (registry.perform entries event).2

end Registry

/-! ## Runs -/

/-- A connection as it is registered. -/
structure Connection where
  user : Option String
  scope : Option String
  connectedAt : Nat
deriving DecidableEq, Repr

def Entry.connection (entry : Entry) : Connection := ⟨entry.user, entry.scope, entry.connectedAt⟩

/-- The connection that a use of the lock keeps from being idle. -/
def Op.active? {U : Type} : Op U → Option U
  | .connect id _ _ _ => some id
  | .touch id => some id
  | _ => none

/-- An operation is activity of a connection by opening or by touching it. -/
theorem Op.active?_eq_some {U : Type} {op : Op U} {id : U} (h : op.active? = some id) :
    (∃ user scope connectedAt, op = .connect id user scope connectedAt) ∨ op = .touch id := by
  cases op with
  | connect id' user scope connectedAt =>
    obtain rfl := Option.some.inj h
    exact Or.inl ⟨user, scope, connectedAt, rfl⟩
  | touch id' =>
    obtain rfl := Option.some.inj h
    exact Or.inr rfl
  | _ => cases h

section Runs
variable {U : Type} [DecidableEq U] (registry : PresenceRegistry) (es : List (Event U))

/-- The entries after the first `n` events, from an empty registry. -/
def entriesAt (n : Nat) : Entries U := registry.machine.run HashMap.empty (es.take n)

def ConnectedAt (n : Nat) (id : U) (connection : Connection) : Prop :=
  ∃ now again, es[n]? = some ⟨now, again, .connect id connection.user connection.scope connection.connectedAt⟩

/-- The connection is opened or touched, at this time. -/
def ActiveAt (n : Nat) (id : U) (time : Nat) : Prop := ∃ event, es[n]? = some event ∧ event.op.active? = some id ∧ event.now = time

/-- The lease is dropped, or a sweep takes the entry out. -/
def EndedAt (n : Nat) (id : U) : Prop :=
  ∃ event, es[n]? = some event ∧ (event.op = .remove id ∨ event.op = .sweep ∧
    (registry.entriesAt es n).get? id ≠ none ∧ (registry.entriesAt es (n + 1)).get? id = none)

/-- The lease is not dropped and not swept, and it was opened or touched less than the timeout before `now`. -/
def LiveAt (n now : Nat) (id : U) : Prop :=
  ∃ connection last, Lib.Held (ConnectedAt es) (ActiveAt es) (registry.EndedAt es) n id connection last ∧
    now < last + registry.idleTimeout

/-- Connection ids are distinct. -/
def DistinctIds : Prop := Lib.GivenOnce (ConnectedAt es)

/-- **Presence counting is exact.** -/
structure PresenceExact : Prop where
  /-- The connections that are counted are the live ones. -/
  counted : ∀ n now again, es[n]? = some ⟨now, again, .connectionCount⟩ →
    registry.machine.out (registry.entriesAt es n) ⟨now, again, .connectionCount⟩ =
      .counted (Set.ncard {id | registry.LiveAt es n now id})
  /-- Queries that read the same instants agree. -/
  agree : ∀ n now again,
    (perUserCounts (registry.entriesAt es n) (registry.idleCutoff now again)).sum +
        anonymousCount (registry.entriesAt es n) (registry.idleCutoff now again) =
      connectionCount (registry.entriesAt es n) (registry.idleCutoff now again) ∧
    userCount (registry.entriesAt es n) (registry.idleCutoff now again) =
      (perUserCounts (registry.entriesAt es n) (registry.idleCutoff now again)).keys.length ∧
    ∀ scope, scopeOnline (registry.entriesAt es n) (registry.idleCutoff now again) scope = true ↔
      scope ∈ scopeIds (registry.entriesAt es n) (registry.idleCutoff now again)
  /-- A sweep takes out the entries that have been idle for the timeout, and no others. -/
  swept : ∀ n now again, es[n]? = some ⟨now, again, .sweep⟩ → ∀ id entry, (registry.entriesAt es n).get? id = some entry →
    (registry.entriesAt es (n + 1)).get? id = if entry.lastActivity + registry.idleTimeout ≤ now then none else some entry
  /-- A dropped or swept connection is never there again. -/
  gone : ∀ c q n id connection, ConnectedAt es c id connection → c < q → registry.EndedAt es q id → q < n →
    (registry.entriesAt es n).get? id = none
  /-- A touch of a connection that is not there changes nothing. -/
  touched : ∀ n now again id, es[n]? = some ⟨now, again, .touch id⟩ → (registry.entriesAt es n).get? id = none →
    registry.machine.out (registry.entriesAt es n) ⟨now, again, .touch id⟩ = .touched false ∧
      registry.entriesAt es (n + 1) = registry.entriesAt es n

/-- The cutoff of a count or a sweep can be represented, or every entry is of after the second reading. -/
def CutoffExact (entries : Entries U) (event : Event U) : Prop :=
  event.op = .connectionCount ∨ event.op = .sweep →
    registry.idleTimeout ≤ event.now ∨ ∀ id entry, entries.get? id = some entry → event.again < entry.lastActivity

variable {registry es} {n : Nat} {id : U}

theorem entriesAt_succ {event : Event U} (he : es[n]? = some event) :
    registry.entriesAt es (n + 1) = registry.machine.step (registry.entriesAt es n) event :=
  registry.machine.run_take_succ _ he

theorem entriesAt_succ_of_none (he : es[n]? = none) : registry.entriesAt es (n + 1) = registry.entriesAt es n := by
  have hlength := List.getElem?_eq_none_iff.1 he
  unfold entriesAt
  rw [List.take_of_length_le hlength, List.take_of_length_le (Nat.le_succ_of_le hlength)]

theorem get?_touch (entries : Entries U) (now : Nat) (id id' : U) : (touch entries now id).1.get? id' =
    if id' = id then (entries.get? id').map (fun entry => { entry with lastActivity := now }) else entries.get? id' := by
  unfold touch
  by_cases heq : id' = id
  · subst heq
    rw [if_pos rfl]
    cases hget : entries.get? id' with
    | none => exact hget
    | some entry => exact HashMap.get?_insert_self _ _ _
  · rw [if_neg heq]
    cases entries.get? id with
    | none => rfl
    | some entry => exact HashMap.get?_insert_of_ne _ _ heq

/-- What a sweep leaves of a connection. -/
theorem get?_sweep (registry : PresenceRegistry) {now again : Nat} (he : es[n]? = some ⟨now, again, .sweep⟩) (id : U) :
    (registry.entriesAt es (n + 1)).get? id =
      ((registry.entriesAt es n).get? id).filter (fun e => decide (registry.idleCutoff now again < e.lastActivity)) := by
  rw [entriesAt_succ he]
  exact HashMap.get?_retain _ _ id

/-- **A use of the lock that is not about a connection leaves it as it is**, unless it is a sweep. -/
theorem get?_step_of_other {entries : Entries U} {event : Event U} (hactive : event.op.active? ≠ some id)
    (hremove : event.op ≠ .remove id) (hsweep : event.op ≠ .sweep) :
    (registry.machine.step entries event).get? id = entries.get? id := by
  obtain ⟨now, again, op⟩ := event
  cases op with
  | connect id' user scope connectedAt => exact HashMap.get?_insert_of_ne _ _ (fun heq => hactive (congrArg some heq.symm))
  | touch id' => exact (get?_touch entries now id' id).trans (if_neg (fun heq => hactive (congrArg some heq.symm)))
  | remove id' => exact (HashMap.get?_remove entries id' id).trans (if_neg (fun heq => hremove (congrArg Op.remove heq.symm)))
  | sweep => exact absurd rfl hsweep
  | connectionCount => rfl
  | userCount => rfl
  | anonymousCount => rfl
  | perUserCounts => rfl
  | scopeIds => rfl
  | scopeOnline scope => rfl
  | snapshot lastSeenAt => rfl

theorem get?_connected {connection : Connection} {now again : Nat}
    (he : es[n]? = some ⟨now, again, .connect id connection.user connection.scope connection.connectedAt⟩) :
    (registry.entriesAt es (n + 1)).get? id = some ⟨connection.user, connection.scope, connection.connectedAt, now⟩ := by
  rw [entriesAt_succ he]
  exact HashMap.get?_insert_self _ _ _

theorem get?_touched {now again : Nat} (he : es[n]? = some ⟨now, again, .touch id⟩) :
    (registry.entriesAt es (n + 1)).get? id =
      ((registry.entriesAt es n).get? id).map (fun entry => { entry with lastActivity := now }) := by
  rw [entriesAt_succ he]
  exact (get?_touch _ now id id).trans (if_pos rfl)

theorem get?_of_ended (hended : registry.EndedAt es n id) : (registry.entriesAt es (n + 1)).get? id = none := by
  obtain ⟨⟨now, again, op⟩, he, hremove | ⟨-, -, hnone⟩⟩ := hended
  · obtain rfl : op = .remove id := hremove
    rw [entriesAt_succ he]
    exact (HashMap.get?_remove _ id id).trans (if_pos rfl)
  · exact hnone

/-- A sweep that does not take an entry out leaves it as it is. -/
theorem get?_sweep_of_not_ended {now again : Nat} (he : es[n]? = some ⟨now, again, .sweep⟩)
    (hended : ¬ registry.EndedAt es n id) : (registry.entriesAt es (n + 1)).get? id = (registry.entriesAt es n).get? id := by
  have hafter := get?_sweep registry he id
  cases hbefore : (registry.entriesAt es n).get? id with
  | none => rw [hafter, hbefore, Option.filter_none]
  | some entry =>
    rw [hbefore, Option.filter_some] at hafter
    split at hafter
    · exact hafter
    · have hthere : (registry.entriesAt es n).get? id ≠ none := by simp [hbefore]
      exact absurd ⟨_, he, Or.inr ⟨rfl, hthere, hafter⟩⟩ hended

/-- **Only its own activity and its end change a connection's entry.** -/
theorem get?_of_quiet (hended : ¬ registry.EndedAt es n id) (hquiet : ∀ time, ¬ ActiveAt es n id time) :
    (registry.entriesAt es (n + 1)).get? id = (registry.entriesAt es n).get? id := by
  cases he : es[n]? with
  | none => rw [entriesAt_succ_of_none he]
  | some event =>
    by_cases hsweep : event.op = .sweep
    · obtain ⟨now, again, op⟩ := event
      obtain rfl : op = .sweep := hsweep
      exact get?_sweep_of_not_ended he hended
    · rw [entriesAt_succ he]
      exact get?_step_of_other (fun hactive => hquiet _ ⟨event, he, hactive, rfl⟩)
        (fun hremove => hended ⟨event, he, Or.inl hremove⟩) hsweep

/-- **What an event does about a connection**, as a lease. -/
theorem leaseTurn (n : Nat) (id : U) : Lib.LeaseTurn (ConnectedAt es) (ActiveAt es) (registry.EndedAt es)
    (fun n id => ((registry.entriesAt es n).get? id).map (fun entry => (entry.connection, entry.lastActivity))) n id where
  ofBegin connection hconnected := by
    obtain ⟨now, again, he⟩ := hconnected
    refine ⟨⟨now, _, he, rfl, rfl⟩, fun time hactive => ?_⟩
    obtain ⟨event, he', -, rfl⟩ := hactive
    obtain rfl := Option.some.inj (he.symm.trans he')
    dsimp only
    rw [get?_connected he]
    rfl
  ofEnd hended := by
    rw [get?_of_ended hended]
    rfl
  ofRenewal time hactive hnone := by
    obtain ⟨⟨now, again, op⟩, he, hop, rfl⟩ := hactive
    rcases Op.active?_eq_some hop with ⟨user, scope, connectedAt, rfl⟩ | rfl
    · exact absurd ⟨now, again, he⟩ (hnone ⟨user, scope, connectedAt⟩)
    · dsimp only
      rw [get?_touched he, Option.map_map, Option.map_map]
      rfl
  otherwise hnone hended hquiet := by rw [get?_of_quiet hended hquiet]

/-- **The entries are the connections that are held.** -/
theorem liveAt_iff (hdistinct : DistinctIds es) (n now : Nat) (id : U) : registry.LiveAt es n now id ↔
    ∃ entry, (registry.entriesAt es n).get? id = some entry ∧ now < entry.lastActivity + registry.idleTimeout := by
  constructor
  · rintro ⟨connection, last, hheld, htime⟩
    have hslot := (Lib.slot_eq_some_iff leaseTurn rfl hdistinct).2 hheld
    obtain ⟨entry, hget, heq⟩ := Option.map_eq_some_iff.1 hslot
    obtain ⟨rfl, rfl⟩ := Prod.mk.inj heq
    exact ⟨entry, hget, htime⟩
  · rintro ⟨entry, hget, htime⟩
    have hslot : ((registry.entriesAt es n).get? id).map (fun entry => (entry.connection, entry.lastActivity)) =
        some (entry.connection, entry.lastActivity) := by
      rw [hget]
      rfl
    exact ⟨entry.connection, entry.lastActivity, (Lib.slot_eq_some_iff leaseTurn rfl hdistinct).1 hslot, htime⟩

/-- How many keys have an entry of the kind. -/
theorem ncard_get? {V : Type} (m : HashMap U V) (f : V → Bool) :
    Set.ncard {id | ∃ v, m.get? id = some v ∧ f v = true} = ((m.entries.map Prod.snd).filter f).length := by
  have hset : {id | ∃ v, m.get? id = some v ∧ f v = true} = ((m.retain (fun _ => f)).keys.toFinset : Set U) := by
    apply Set.ext
    intro id
    rw [List.coe_toFinset, Set.mem_ofPred_eq, Set.mem_ofPred_eq, HashMap.mem_keys_iff]
    exact exists_congr (fun v => (HashMap.get?_retain_eq_some m (fun _ => f) id v).symm)
  have hnodup : (m.retain (fun _ => f)).keys.Nodup := (m.retain (fun _ => f)).nodup
  rw [hset, Set.ncard_coe_finset, List.toFinset_card_of_nodup hnodup, HashMap.keys, List.length_map, List.filter_map,
    List.length_map]
  rfl

/-- The number of live connections, as the timeout says. -/
theorem ncard_liveAt (hdistinct : DistinctIds es) (n now : Nat) : Set.ncard {id | registry.LiveAt es n now id} =
    (((registry.entriesAt es n).entries.map Prod.snd).filter
      (fun e => decide (now < e.lastActivity + registry.idleTimeout))).length := by
  rw [← ncard_get?]
  congr 1
  apply Set.ext
  intro id
  rw [Set.mem_ofPred_eq, liveAt_iff hdistinct]
  simp only [Set.mem_ofPred_eq, decide_eq_true_eq]

/-- **The cutoff tells the idle entries** where it can be represented; else it is the second reading, and nothing is
idle by the timeout. -/
theorem idleCutoff_cases (now again : Nat) :
    (registry.idleTimeout ≤ now ∧ ∀ last, registry.idleCutoff now again < last ↔ now < last + registry.idleTimeout) ∨
      now < registry.idleTimeout ∧ registry.idleCutoff now again = again ∧ ∀ last, now < last + registry.idleTimeout := by
  unfold idleCutoff checkedSub
  split
  · rename_i hle
    refine Or.inl ⟨hle, fun last => ?_⟩
    rw [Option.getD_some]
    omega
  · rename_i hlt
    exact Or.inr ⟨Nat.not_le.1 hlt, rfl, fun last => by omega⟩

theorem forall_mem_values {entries : Entries U} {p : Entry → Prop} :
    (∀ e ∈ entries.entries.map Prod.snd, p e) ↔ ∀ id entry, entries.get? id = some entry → p entry := by
  simp only [List.mem_map, HashMap.get?_eq_some_iff, Prod.exists, forall_exists_index, and_imp]
  constructor
  · exact fun h id entry hmem => h entry id entry hmem rfl
  · rintro h _ id entry hmem rfl
    exact h id entry hmem

/-- **A count is right exactly when its cutoff is.** -/
theorem connectionCount_eq_iff (entries : Entries U) (now again : Nat) :
    connectionCount entries (registry.idleCutoff now again) = ((entries.entries.map Prod.snd).filter
        (fun e => decide (now < e.lastActivity + registry.idleTimeout))).length ↔
      registry.idleTimeout ≤ now ∨ ∀ id entry, entries.get? id = some entry → again < entry.lastActivity := by
  unfold connectionCount live
  rcases registry.idleCutoff_cases now again with ⟨hle, hcutoff⟩ | ⟨hlt, hcutoff, hall⟩
  · simp only [hcutoff, hle, true_or]
  · have hnot : ¬ registry.idleTimeout ≤ now := Nat.not_le.2 hlt
    simp only [hcutoff, hall, decide_true, List.filter_true, hnot, false_or, List.length_filter_eq_length_iff,
      decide_eq_true_eq]
    exact forall_mem_values

/-- **A sweep is right exactly when its cutoff is.** -/
theorem sweep_eq_iff {now again : Nat} (he : es[n]? = some ⟨now, again, .sweep⟩) :
    (∀ id entry, (registry.entriesAt es n).get? id = some entry → (registry.entriesAt es (n + 1)).get? id =
        if entry.lastActivity + registry.idleTimeout ≤ now then none else some entry) ↔
      registry.idleTimeout ≤ now ∨
        ∀ id entry, (registry.entriesAt es n).get? id = some entry → again < entry.lastActivity := by
  have hafter : ∀ id entry, (registry.entriesAt es n).get? id = some entry → (registry.entriesAt es (n + 1)).get? id =
      if registry.idleCutoff now again < entry.lastActivity then some entry else none := by
    intro id entry hget
    rw [get?_sweep registry he, hget, Option.filter_some]
    simp only [decide_eq_true_eq]
  rcases registry.idleCutoff_cases now again with ⟨hle, hcutoff⟩ | ⟨hlt, hcutoff, hall⟩
  · refine iff_of_true (fun id entry hget => ?_) (Or.inl hle)
    rw [hafter id entry hget]
    simp only [hcutoff, ← Nat.not_le, ite_not]
  · rw [or_iff_right (Nat.not_le.2 hlt)]
    refine forall_congr' (fun id => forall_congr' (fun entry => imp_congr_right (fun hget => ?_)))
    rw [hafter id entry hget, hcutoff, if_neg (Nat.not_le.2 (hall entry.lastActivity))]
    by_cases hlast : again < entry.lastActivity <;> simp [hlast]

/-- **Presence counting is exact if and only if the cutoffs are**, in any run with distinct ids. -/
theorem presenceExact_iff (registry : PresenceRegistry) (es : List (Event U)) (hdistinct : DistinctIds es) :
    registry.PresenceExact es ↔ registry.machine.Along registry.CutoffExact HashMap.empty es := by
  constructor
  · intro h
    apply registry.machine.along_of_getElem?
    rintro n ⟨now, again, op⟩ he (rfl | rfl)
    · have hcounted := Answer.counted.inj (h.counted n now again he)
      rw [ncard_liveAt hdistinct] at hcounted
      exact (registry.connectionCount_eq_iff _ now again).1 hcounted
    · exact (sweep_eq_iff he).1 (h.swept n now again he)
  · intro halong
    have hstep := registry.machine.along_getElem? _ _ _ halong
    exact
      { counted := fun n now again he => by
          rw [ncard_liveAt hdistinct]
          exact congrArg Answer.counted ((registry.connectionCount_eq_iff _ now again).2 (hstep n _ he (Or.inl rfl)))
        agree := fun n now again => by
          refine ⟨sum_perUserCounts _ _, ?_, scopeOnline_iff _ _⟩
          rw [userCount_eq_len, HashMap.len_eq_length_keys]
        swept := fun n now again he => (sweep_eq_iff he).2 (hstep n _ he (Or.inr rfl))
        gone := fun c q n id connection hconnected hcq hended hqn =>
          Option.map_eq_none_iff.1 (Lib.slot_eq_none_of_ended leaseTurn rfl hdistinct hconnected hcq hended hqn)
        touched := fun n now again id he hnone => by
          have hperform : registry.perform (registry.entriesAt es n) ⟨now, again, .touch id⟩ =
              (registry.entriesAt es n, .touched false) := by
            change touch (registry.entriesAt es n) now id = _
            unfold touch
            rw [hnone]
          rw [entriesAt_succ he]
          exact ⟨congrArg Prod.snd hperform, congrArg Prod.fst hperform⟩ }

end Runs

/-! ## A connection that is touched and goes quiet, and a timeout without end -/

/-- A connection is opened, touched, counted, and swept when it has been quiet for ninety seconds. -/
def quietRun : List (Event Nat) :=
  [⟨100 * 10 ^ 9, 100 * 10 ^ 9, .connect 0 (some "u1") (some "ws-a") 0⟩, ⟨130 * 10 ^ 9, 130 * 10 ^ 9, .touch 0⟩,
    ⟨200 * 10 ^ 9, 200 * 10 ^ 9, .connectionCount⟩, ⟨220 * 10 ^ 9, 220 * 10 ^ 9, .sweep⟩,
    ⟨221 * 10 ^ 9, 221 * 10 ^ 9, .touch 0⟩]

theorem quietRun_distinct : DistinctIds quietRun := by
  have hfirst : ∀ n id connection, ConnectedAt quietRun n id connection → n = 0 := by
    rintro n id connection ⟨now, again, he⟩
    match n, he with
    | 0, _ => rfl
    | 1, he => cases he
    | 2, he => cases he
    | 3, he => cases he
    | 4, he => cases he
    | _ + 5, he => cases he
  intro k k' id connection connection' h h'
  rw [hfirst k id connection h, hfirst k' id connection' h']

theorem presenceExact_quiet : new.PresenceExact quietRun := by
  refine (presenceExact_iff new quietRun quietRun_distinct).2
    (Lib.Machine.along_of_forall _ _ _ _ (fun _ event he _ => Or.inl ?_))
  simp only [quietRun, List.mem_cons, List.not_mem_nil, or_false] at he
  rcases he with rfl | rfl | rfl | rfl | rfl <;> decide

example : (entriesAt new quietRun 4).len = 0 := by decide +kernel

/-- The registry with the longest timeout, `Duration::MAX`. -/
def endless : PresenceRegistry := withIdleTimeout (2 ^ 64 * 10 ^ 9 - 1)

/-- A connection is opened, and counted a second later. -/
def endlessRun : List (Event Nat) :=
  [⟨5 * 10 ^ 9, 5 * 10 ^ 9, .connect 0 (some "u1") none 0⟩, ⟨6 * 10 ^ 9, 6 * 10 ^ 9, .connectionCount⟩]

theorem endlessRun_distinct : DistinctIds endlessRun := by
  have hfirst : ∀ n id connection, ConnectedAt endlessRun n id connection → n = 0 := by
    rintro n id connection ⟨now, again, he⟩
    match n, he with
    | 0, _ => rfl
    | 1, he => cases he
    | _ + 2, he => cases he
  intro k k' id connection connection' h h'
  rw [hfirst k id connection h, hfirst k' id connection' h']

/-- **The connection is there, and the count is zero.** -/
theorem endlessRun_not_exact : DistinctIds endlessRun ∧ ¬ endless.PresenceExact endlessRun := by
  refine ⟨endlessRun_distinct, fun h => ?_⟩
  have hcounted := Answer.counted.inj (h.counted 1 _ _ rfl)
  rw [ncard_liveAt endlessRun_distinct] at hcounted
  exact absurd hcounted (by decide +kernel)

end PresenceRegistry

end Session
end Kirino
