import Kirino.Lib.Machine
import Kirino.Rbac.Engine
import Kirino.Rbac.Store.Memory
/-!
# Separation — what one subject's operations do to another's answers (`rbac/store/memory.rs`, `rbac/cache.rs`)

Operations about one subject, one after the other, on the in-memory store and the TTL cache.  The three maps of the
store and the entries of the cache are kept per subject id, so operations about other ids leave the rows and the
entries of an id alone (`Alike`), as long as no check evicts: the cap is shared by all subjects.
-/
namespace Kirino
namespace Rbac

open Lib (Machine HashMap)

inductive SubjectOp (S P : Type) where
  | write (w : StoreWrite S P)
  | check (path : CheckPath) (clock : CheckClock) (s : S) (p : P)
  | invalidateSubject (s : S)

def SubjectOp.subject {S P : Type} : SubjectOp S P → S
  | .write w => w.subject
  | .check _ _ s _ => s
  | .invalidateSubject s => s

structure OpState (S P : Type) where
  store : InMemoryAssignmentStore S P
  cache : TtlPermissionCache

section
variable {S P : Type} [Subject S]

/-- The states agree on the rows and the entries of the id, and the second holds no entry of another id. -/
structure Alike (id : String) (st st' : OpState S P) : Prop where
  rows : ∀ s, subjectId s = id → rowsOf st.store s = rowsOf st'.store s
  entries : ∀ k : CacheKey, k.1 = id → st.cache.cache.get? k = st'.cache.cache.get? k
  others : ∀ k : CacheKey, k.1 ≠ id → st'.cache.cache.get? k = none
  maxEntries : st.cache.maxEntries = st'.cache.maxEntries
  ttl : st.cache.ttl = st'.cache.ttl

theorem alike_get?_of_some {id : String} {st st' : OpState S P} (h : Alike id st st') {k : CacheKey} {e : CacheEntry}
    (he : st'.cache.cache.get? k = some e) : st.cache.cache.get? k = some e := by
  by_cases hid : k.1 = id
  · exact (h.entries k hid).trans he
  · rw [h.others k hid] at he
    cases he

theorem alike_keepsNothing {id : String} {st st' : OpState S P} (h : Alike id st st') (hn : st.cache.KeepsNothing) :
    st'.cache.KeepsNothing := by
  have hlen : st'.cache.cache.len ≤ st.cache.cache.len :=
    HashMap.len_le_of_keys _ _ (fun k e he => ⟨e, alike_get?_of_some h he⟩)
  obtain ⟨hcap, hzero⟩ := hn
  exact ⟨h.maxEntries ▸ hcap, by omega⟩

variable [Permission P]

/-- A check that writes the cache has room to, or the cache keeps nothing in any case. -/
def NoEviction (st : OpState S P) : SubjectOp S P → Prop
  | .check _ clock s p => st.cache.get clock.read s p = none → st.cache.HasRoom s p ∨ st.cache.KeepsNothing
  | _ => True

theorem alike_get {id : String} {st st' : OpState S P} (h : Alike id st st') {s : S} (hs : subjectId s = id)
    (now : Nat) (p : P) : st.cache.get now s p = st'.cache.get now s p := by
  unfold TtlPermissionCache.get
  rw [h.entries (TtlPermissionCache.key s p) hs]

theorem alike_hasRoom {id : String} {st st' : OpState S P} (h : Alike id st st') {s : S} {p : P}
    (hroom : st.cache.HasRoom s p) : st'.cache.HasRoom s p := by
  unfold TtlPermissionCache.HasRoom at *
  rw [← h.maxEntries]
  refine Nat.le_trans (HashMap.len_le_of_keys _ _ (fun k e he => ?_)) hroom
  rw [HashMap.get?_insert] at he
  rw [HashMap.get?_insert]
  by_cases hk : k = TtlPermissionCache.key s p
  · exact ⟨_, if_pos hk⟩
  · rw [if_neg hk] at he ⊢
    exact ⟨e, alike_get?_of_some h he⟩

/-- **Writes of one decision about the id leave like entries alike.** -/
theorem alike_set {id : String} {st st' : OpState S P} (h : Alike id st st') {s : S} {p : P}
    (hroom : st.cache.HasRoom s p ∨ st.cache.KeepsNothing) (clock : SetClock) (granted : Bool) {k : CacheKey}
    (hk : k.1 = id) :
    (st.cache.set clock s p granted).cache.get? k = (st'.cache.set clock s p granted).cache.get? k := by
  rcases hroom with hroom | hn
  · rw [TtlPermissionCache.get?_set_of_room hroom, TtlPermissionCache.get?_set_of_room (alike_hasRoom h hroom), h.ttl,
      h.entries k hk]
  · rw [TtlPermissionCache.get?_set_of_keepsNothing hn,
      TtlPermissionCache.get?_set_of_keepsNothing (alike_keepsNothing h hn)]

variable [DecidableEq P]

def opCheck (registry : RoleRegistry P) (st : OpState S P) (path : CheckPath) (clock : CheckClock) (s : S) (p : P) :
    Bool × TtlPermissionCache :=
  checkOn path ⟨registry, st.store, st.cache⟩ clock s p

/-- The operations as a machine; a check is answered with its decision. -/
def opMachine (registry : RoleRegistry P) : Machine (OpState S P) (SubjectOp S P) (Option Bool) where
  step st
    | .write w => { st with store := AssignmentStore.write st.store w }
    | .check path clock s p => { st with cache := (opCheck registry st path clock s p).2 }
    | .invalidateSubject s => { st with cache := st.cache.invalidateSubject s }
  out st
    | .check path clock s p => some (opCheck registry st path clock s p).1
    | _ => none

section Check
variable (registry : RoleRegistry P) {st : OpState S P} {clock : CheckClock} {s : S} {p : P}

theorem opCheck_of_hit (path : CheckPath) {b : Bool} (h : st.cache.get clock.read s p = some b) :
    opCheck registry st path clock s p = (b, st.cache) :=
  checkOn_of_hit path h

theorem opCheck_of_miss (path : CheckPath) (h : st.cache.get clock.read s p = none) :
    opCheck registry st path clock s p =
      (decision registry st.store path s p, st.cache.set clock.set s p (decision registry st.store path s p)) :=
  checkOn_of_miss path h (failedQuery_of_errorFree _ (InMemoryAssignmentStore.errorFree st.store) _ _ _)

theorem get?_opCheck_of_ne (path : CheckPath) (hroom : NoEviction st (.check path clock s p)) {k : CacheKey}
    (hk : k.1 ≠ subjectId s) : (opCheck registry st path clock s p).2.cache.get? k = st.cache.cache.get? k := by
  cases hget : st.cache.get clock.read s p with
  | some b => rw [opCheck_of_hit registry path hget]
  | none =>
    rw [opCheck_of_miss registry path hget]
    show (st.cache.set _ s p _).cache.get? k = _
    rcases hroom hget with hroom | hn
    · rw [TtlPermissionCache.get?_set_of_room hroom, if_neg (fun h => hk (congrArg Prod.fst h))]
    · rw [TtlPermissionCache.get?_set_of_keepsNothing hn, HashMap.get?_of_len_zero hn.2]

theorem opCheck_maxEntries (path : CheckPath) :
    (opCheck registry st path clock s p).2.maxEntries = st.cache.maxEntries := by
  cases hget : st.cache.get clock.read s p with
  | some b => rw [opCheck_of_hit registry path hget]
  | none =>
    rw [opCheck_of_miss registry path hget]
    rfl

theorem opCheck_ttl (path : CheckPath) : (opCheck registry st path clock s p).2.ttl = st.cache.ttl := by
  cases hget : st.cache.get clock.read s p with
  | some b => rw [opCheck_of_hit registry path hget]
  | none =>
    rw [opCheck_of_miss registry path hget]
    rfl

end Check

section Alike
variable {registry : RoleRegistry P} {id : String} {st st' : OpState S P}

theorem alike_opCheck (registry : RoleRegistry P) {path : CheckPath} {clock : CheckClock} {s : S} {p : P} (h : Alike id st st')
    (hroom : NoEviction st (.check path clock s p)) (hs : subjectId s = id) :
    (opCheck registry st path clock s p).1 = (opCheck registry st' path clock s p).1 ∧
      ∀ k, k.1 = id → (opCheck registry st path clock s p).2.cache.get? k =
        (opCheck registry st' path clock s p).2.cache.get? k := by
  cases hget : st.cache.get clock.read s p with
  | some b =>
    have hget' : st'.cache.get clock.read s p = some b := (alike_get h hs clock.read p).symm.trans hget
    rw [opCheck_of_hit registry path hget, opCheck_of_hit registry path hget']
    exact ⟨rfl, h.entries⟩
  | none =>
    have hget' : st'.cache.get clock.read s p = none := (alike_get h hs clock.read p).symm.trans hget
    have hdec : decision registry st.store path s p = decision registry st'.store path s p := by
      simp only [decision, h.rows s hs]
    rw [opCheck_of_miss registry path hget, opCheck_of_miss registry path hget', hdec]
    exact ⟨rfl, fun k hk => alike_set h (hroom hget) clock.set _ hk⟩

/-- **An operation about the id keeps the states alike and is answered alike.** -/
theorem alike_keep {op : SubjectOp S P} (h : Alike id st st') (hroom : NoEviction st op)
    (hop : subjectId op.subject = id) :
    Alike id ((opMachine registry).step st op) ((opMachine registry).step st' op) ∧
      (opMachine registry).out st op = (opMachine registry).out st' op := by
  cases op with
  | write w =>
    refine ⟨⟨fun s hs => ?_, h.entries, h.others, h.maxEntries, h.ttl⟩, rfl⟩
    have hid : subjectId s = subjectId w.subject := hs.trans hop.symm
    simp only [opMachine, InMemoryAssignmentStore.rowsOf_write, if_pos hid, h.rows s hs]
  | check path clock s p =>
    obtain ⟨hanswer, hentries⟩ := alike_opCheck registry h hroom hop
    refine ⟨⟨h.rows, hentries, fun k hk => ?_, ?_, ?_⟩, congrArg some hanswer⟩
    · have hne : k.1 ≠ subjectId s := fun heq => hk (heq.trans hop)
      have hroom' : NoEviction st' (.check path clock s p) := fun hmiss =>
        (hroom ((alike_get h hop clock.read p).trans hmiss)).imp (alike_hasRoom h) (alike_keepsNothing h)
      exact (get?_opCheck_of_ne registry path hroom' hne).trans (h.others k hk)
    · exact (opCheck_maxEntries registry path).trans (h.maxEntries.trans (opCheck_maxEntries registry path).symm)
    · exact (opCheck_ttl registry path).trans (h.ttl.trans (opCheck_ttl registry path).symm)
  | invalidateSubject s =>
    refine ⟨⟨h.rows, fun k hk => ?_, fun k hk => ?_, h.maxEntries, h.ttl⟩, rfl⟩
    · simp only [opMachine, TtlPermissionCache.get?_invalidateSubject, h.entries k hk]
    · simp only [opMachine, TtlPermissionCache.get?_invalidateSubject, h.others k hk, ite_self]

/-- **An operation about another id is as if it had not been.** -/
theorem alike_drop {op : SubjectOp S P} (h : Alike id st st') (hroom : NoEviction st op)
    (hop : subjectId op.subject ≠ id) : Alike id ((opMachine registry).step st op) st' := by
  cases op with
  | write w =>
    refine ⟨fun s hs => ?_, h.entries, h.others, h.maxEntries, h.ttl⟩
    have hid : subjectId s ≠ subjectId w.subject := fun heq => hop (heq.symm.trans hs)
    show rowsOf (AssignmentStore.write st.store w) s = _
    rw [InMemoryAssignmentStore.rowsOf_write, if_neg hid, h.rows s hs]
  | check path clock s p =>
    refine ⟨h.rows, fun k hk => ?_, h.others, ?_, ?_⟩
    · have hne : k.1 ≠ subjectId s := fun heq => hop (heq.symm.trans hk)
      exact (get?_opCheck_of_ne registry path hroom hne).trans (h.entries k hk)
    · exact (opCheck_maxEntries registry path).trans h.maxEntries
    · exact (opCheck_ttl registry path).trans h.ttl
  | invalidateSubject s =>
    refine ⟨h.rows, fun k hk => ?_, h.others, h.maxEntries, h.ttl⟩
    have hne : k.1 ≠ subjectId s := fun heq => hop (heq.symm.trans hk)
    show (st.cache.invalidateSubject s).cache.get? k = _
    rw [TtlPermissionCache.get?_invalidateSubject, if_neg hne, h.entries k hk]

end Alike

/-- The state before the first operation: no rows and no entries. -/
def newState (maxEntries ttl : Nat) : OpState S P :=
  ⟨InMemoryAssignmentStore.new, (TtlPermissionCache.new ttl).withMaxEntries maxEntries⟩

/-- **The answers about an id are those of the run without the operations about the others.** -/
theorem outsOn_subject (registry : RoleRegistry P) (maxEntries ttl : Nat) (keep : SubjectOp S P → Bool) (id : String)
    (ops : List (SubjectOp S P)) (hkeep : ∀ op ∈ ops, keep op = true ↔ subjectId op.subject = id)
    (hroom : (opMachine registry).Along NoEviction (newState maxEntries ttl) ops) :
    (opMachine registry).outsOn keep (newState maxEntries ttl) ops =
      (opMachine registry).outs (newState maxEntries ttl) (ops.filter keep) := by
  refine (opMachine registry).outsOn_eq_filter keep
    (fun st op => NoEviction st op ∧ (keep op = true ↔ subjectId op.subject = id)) (Alike id) ?_ ?_ _ _ ops ?_
    (Machine.along_and _ _ _ _ ops hroom hkeep)
  · exact fun st st' op h hop hk => alike_keep h hop.1 (hop.2.1 hk)
  · intro st st' op h hop hk
    have hne : subjectId op.subject ≠ id := fun hid => Bool.eq_false_iff.1 hk (hop.2.2 hid)
    exact alike_drop h hop.1 hne
  · exact ⟨fun _ _ => rfl, fun _ _ => rfl, fun _ _ => rfl, rfl, rfl⟩

/-- **Subjects of one id share every grant**: an extra permission given to the one is the other's. -/
theorem shared_grant (registry : RoleRegistry P) (maxEntries ttl : Nat) (p : P) {a b : S}
    (hid : subjectId a = subjectId b) :
    let ops : List (SubjectOp S P) := [.write (.setExtraPermissions a {p}), .check .flat (clockAt 0) b p]
    (opMachine registry).Along NoEviction (newState maxEntries ttl) ops ∧
      (opMachine registry).outs (newState maxEntries ttl) ops = [none, some true] ∧
      (opMachine registry).outs (newState maxEntries ttl) [.check .flat (clockAt 0) b p] = [some false] := by
  intro ops
  let st : OpState S P := newState maxEntries ttl
  let st' := (opMachine registry).step st (.write (.setExtraPermissions a {p}))
  have hcheck : ∀ x : OpState S P, x.cache = st.cache →
      (opMachine registry).out x (.check .flat (clockAt 0) b p) = some (decision registry x.store .flat b p) := by
    intro x hx
    have hmiss : x.cache.get (clockAt 0).read b p = none := by rw [hx]; rfl
    show some (opCheck registry x .flat (clockAt 0) b p).1 = _
    rw [opCheck_of_miss registry .flat hmiss]
  have hgrant : decision registry st'.store .flat b p = true := by
    refine decide_eq_true ?_
    show (rowsOf (AssignmentStore.write st.store (.setExtraPermissions a {p})) b).Grants registry .flat p
    have hrows : rowsOf (AssignmentStore.write st.store (.setExtraPermissions a {p})) b =
        (rowsOf st.store b).apply (.setExtraPermissions a {p}) := by
      rw [InMemoryAssignmentStore.rowsOf_write]
      exact if_pos hid.symm
    rw [hrows]
    exact ⟨Finset.notMem_empty p, Or.inl (Finset.mem_singleton_self p)⟩
  have hdeny : decision registry st.store .flat b p = false := by
    refine decide_eq_false (fun h => ?_)
    rcases h.2 with hx | ⟨r, hr, -⟩
    · exact absurd hx (Finset.notMem_empty p)
    · cases hr
  refine ⟨⟨trivial, fun _ => ?_, trivial⟩, ?_, ?_⟩
  · rcases Nat.eq_zero_or_pos maxEntries with h0 | hpos
    · exact Or.inr ⟨h0, rfl⟩
    · exact Or.inl hpos
  · show [none, (opMachine registry).out st' (.check .flat (clockAt 0) b p)] = _
    rw [hcheck st' rfl, hgrant]
  · show [(opMachine registry).out st (.check .flat (clockAt 0) b p)] = _
    rw [hcheck st rfl, hdeny]

end

end Rbac
end Kirino
