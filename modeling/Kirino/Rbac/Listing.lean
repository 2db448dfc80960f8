import Mathlib.Algebra.GroupWithZero.Nat
import Kirino.Rbac.Interleaving
import Kirino.Rbac.Store.Memory
/-!
# Listing — point checks, batches and listings of one store (`rbac/engine.rs`)

On a cold cache the two checks decide as the two listings list.  `checkBatch` drives one check for each requested
permission, at most 64 of them in flight, in whatever order the executor polls them: the calls of one batch have
distinct cache keys, so each of them stays consistent with the rows and finds no entry but its own (`BatchInv`), and a
batch that is polled on returns (`exists_poll`).
-/
namespace Kirino
namespace Rbac

open Lib (Machine HashMap)

/-! ## The batch -/

def batchWindow : Nat := 64

def Call.answer {S P : Type} (c : Call S P) : Option Bool :=
  match c.pc with
  | .returned granted => some granted
  | _ => none

/-- The steps a call still takes, at most. -/
def Pc.remaining : Pc → Nat
  | .start => 5
  | .denied => 4
  | .extra => 3
  | .roles => 2
  | .write _ => 1
  | .returned _ => 0

theorem exists_takeWhile_length {α : Type} (f : α → Bool) : ∀ l : List α, (∃ x ∈ l, f x = false) →
    ∃ x, l[(l.takeWhile f).length]? = some x ∧ f x = false
  | [], h => by
    obtain ⟨x, hx, -⟩ := h
    cases hx
  | y :: l, h => by
    cases hy : f y with
    | false => exact ⟨y, by rw [List.takeWhile_cons, hy]; rfl, hy⟩
    | true =>
      have hl : ∃ x ∈ l, f x = false := by
        obtain ⟨x, hx, hfx⟩ := h
        rcases List.mem_cons.1 hx with rfl | hx
        · rw [hy] at hfx
          cases hfx
        · exact ⟨x, hx, hfx⟩
      obtain ⟨x, hx, hfx⟩ := exists_takeWhile_length f l hl
      refine ⟨x, ?_, hfx⟩
      rw [List.takeWhile_cons, hy]
      exact hx

theorem sum_map_set_lt {α : Type} (f : α → Nat) : ∀ (l : List α) (i : Nat) {a b : α}, l[i]? = some a → f b < f a →
    ((l.set i b).map f).sum < (l.map f).sum
  | [], _, _, _, h, _ => by cases h
  | x :: l, 0, a, b, h, hf => by
    obtain rfl : x = a := Option.some.inj h
    rw [List.set_cons_zero, List.map_cons, List.map_cons, List.sum_cons, List.sum_cons]
    omega
  | x :: l, i + 1, a, b, h, hf => by
    have := sum_map_set_lt f l i h hf
    rw [List.set_cons_succ, List.map_cons, List.map_cons, List.sum_cons, List.sum_cons]
    omega

theorem map_set_eq {α β : Type} (f : α → β) : ∀ (l : List α) (i : Nat) {a b : α}, l[i]? = some a → f b = f a →
    (l.set i b).map f = l.map f
  | [], _, _, _, h, _ => by cases h
  | x :: l, 0, a, b, h, hf => by
    obtain rfl : x = a := Option.some.inj h
    rw [List.set_cons_zero, List.map_cons, List.map_cons, hf]
  | x :: l, i + 1, a, b, h, hf => by
    rw [List.set_cons_succ, List.map_cons, List.map_cons, map_set_eq f l i h hf]

theorem lookup_zip_map {P : Type} [DecidableEq P] (f : P → Bool) (p : P) : ∀ ps : List P,
    (ps.zip (ps.map f)).lookup p = if p ∈ ps then some (f p) else none
  | [] => rfl
  | q :: ps => by
    rw [List.map_cons, List.zip_cons_cons, List.lookup_cons, lookup_zip_map f p ps]
    by_cases h : p = q
    · subst h
      simp
    · have hb : (p == q) = false := by simpa using h
      simp [hb, h]

theorem mapM_answer {A S P E : Type} [AssignmentStore A S P E] [DecidableEq P] (registry : RoleRegistry P)
    (store : A) : ∀ (calls : List (Call S P)) (outcomes : List Bool),
    calls.mapM Call.answer = some outcomes → (∀ c ∈ calls, c.Consistent registry store) →
      outcomes = calls.map (fun c => c.decision registry store)
  | [], outcomes, h, _ => by simpa using h.symm
  | c :: calls, outcomes, h, hcs => by
    rw [List.mapM_cons] at h
    obtain ⟨granted, hgranted, h⟩ := Option.bind_eq_some_iff.1 h
    obtain ⟨rest, hrest, h⟩ := Option.bind_eq_some_iff.1 h
    obtain rfl : granted :: rest = outcomes := Option.some.inj h
    have hc := hcs c List.mem_cons_self
    unfold Call.Consistent at hc
    unfold Call.answer at hgranted
    rw [mapM_answer registry store calls rest hrest (fun d hd => hcs d (List.mem_cons_of_mem c hd)), List.map_cons]
    split at hgranted
    · rename_i granted' hpc
      rw [hpc] at hc
      obtain rfl : granted' = granted := Option.some.inj hgranted
      rw [← hc]
    · cases hgranted

section
variable {A S P E : Type} [AssignmentStore A S P E] [Subject S] [Permission P] [DecidableEq P]

/-- The answers are taken in order, so a call is in the window while fewer than 64 calls separate it from the first
call that has not returned. -/
def inWindow (calls : List (Call S P)) (i : Nat) : Bool :=
  decide (i < (calls.takeWhile (fun c => c.answer.isSome)).length + batchWindow)

/-- The poll of one future of the batch; one outside the window does not exist yet. -/
def pollStep (registry : RoleRegistry P) (w : World A S P) (poll : Nat × CheckClock) : World A S P :=
  if inWindow w.calls poll.1 then worldStep registry w (.step poll.1 poll.2) else w

def pollMachine (registry : RoleRegistry P) : Machine (World A S P) (Nat × CheckClock) Unit where
  step := pollStep registry
  out _ _ := ()

/-- The batch as one world: the engine's store and cache, and a check of each permission that is yet to begin. -/
def batchWorld (engine : RbacEngine A P) (s : S) (permissions : List P) : World A S P :=
  ⟨engine.assignmentStore, engine.cache, permissions.map (fun p => ⟨.flat, s, p, .start⟩)⟩

/-- `permissions` is the requested set in iteration order, `polls` what the executor polls; no result yet while a call
has not returned. -/
def checkBatch (engine : RbacEngine A P) (s : S) (permissions : List P) (polls : List (Nat × CheckClock)) :
    Option (HashMap P Bool) :=
  let w := (pollMachine engine.roleRegistry).run (batchWorld engine s permissions) polls
  (w.calls.mapM Call.answer).map (fun outcomes => HashMap.ofList (permissions.zip outcomes))

/-- Each call of the batch is consistent with the rows, and finds no entry but what they entail. -/
structure BatchInv (engine : RbacEngine A P) (s : S) (permissions : List P) (w : World A S P) : Prop where
  store : w.store = engine.assignmentStore
  permissions : w.calls.map Call.permission = permissions
  request : ∀ c ∈ w.calls, c.path = .flat ∧ c.subject = s
  consistent : ∀ c ∈ w.calls, c.Consistent engine.roleRegistry engine.assignmentStore
  entries : ∀ c ∈ w.calls, c.EntryAgrees engine.roleRegistry engine.assignmentStore w.cache

section Batch
variable {engine : RbacEngine A P} {s : S} {permissions : List P}

theorem batchInv_init (hcold : engine.cache.cache = HashMap.empty) :
    BatchInv engine s permissions (batchWorld engine s permissions) := by
  have hcall : ∀ c ∈ (batchWorld engine s permissions).calls, ∃ p, c = ⟨.flat, s, p, .start⟩ := by
    intro c hc
    obtain ⟨p, -, rfl⟩ := List.mem_map.1 hc
    exact ⟨p, rfl⟩
  refine ⟨rfl, ?_, fun c hc => ?_, fun c hc => ?_, fun c hc e he => ?_⟩
  · show (permissions.map _).map Call.permission = permissions
    rw [List.map_map]
    exact List.map_id _
  · obtain ⟨p, rfl⟩ := hcall c hc
    exact ⟨rfl, rfl⟩
  · obtain ⟨p, rfl⟩ := hcall c hc
    trivial
  · have hnone : (batchWorld engine s permissions).cache.cache.get? c.key = none := by
      show engine.cache.cache.get? c.key = none
      rw [hcold]
      rfl
    rw [hnone] at he
    cases he

/-- **A step of a call of the batch writes no entry but what the rows entail**: no other call has its key. -/
theorem batchInv_entries (hname : Set.InjOn name {p | p ∈ permissions}) {w : World A S P} (clock : CheckClock)
    {c : Call S P} (hw : BatchInv engine s permissions w) (hc : c ∈ w.calls) :
    ∀ d ∈ w.calls, d.EntryAgrees engine.roleRegistry engine.assignmentStore
      (c.next engine.roleRegistry engine.assignmentStore w.cache clock).2 := by
  intro d hd
  rcases next_cache engine.roleRegistry engine.assignmentStore w.cache clock c with hcache | ⟨granted, hpc, hnext⟩
  · rw [hcache]
    exact hw.entries d hd
  · rw [hnext]
    intro e he
    rcases TtlPermissionCache.get?_set he with ⟨hkey, rfl⟩ | ⟨-, hget⟩
    · have hmem : ∀ x ∈ w.calls, x.permission ∈ permissions := by
        intro x hx
        rw [← hw.permissions]
        exact List.mem_map_of_mem hx
      have hperm : d.permission = c.permission := hname (hmem d hd) (hmem c hc) (congrArg Prod.snd hkey)
      have hgranted := hw.consistent c hc
      unfold Call.Consistent at hgranted
      rw [hpc] at hgranted
      have hsame : c.SameRequest d :=
        ⟨(hw.request d hd).1.trans (hw.request c hc).1.symm, (hw.request d hd).2.trans (hw.request c hc).2.symm, hperm⟩
      exact hgranted.trans hsame.decision.symm
    · exact hw.entries d hd e hget

/-- **A poll keeps the invariant of the batch.** -/
theorem batchInv_step (hfree : ErrorFree engine.assignmentStore) (hname : Set.InjOn name {p | p ∈ permissions})
    (w : World A S P) (poll : Nat × CheckClock) (hw : BatchInv engine s permissions w) :
    BatchInv engine s permissions (pollStep engine.roleRegistry w poll) := by
  obtain ⟨i, clock⟩ := poll
  unfold pollStep
  split
  · cases hc : w.calls[i]? with
    | none =>
      unfold worldStep
      dsimp only
      rw [hc]
      exact hw
    | some c =>
      have hmem : c ∈ w.calls := List.mem_of_getElem? hc
      have hentries := batchInv_entries hname clock hw hmem
      rw [worldStep_step _ clock hc, hw.store]
      refine ⟨rfl, ?_, fun d hd => ?_, fun d hd => ?_, fun d hd => ?_⟩
      · exact (map_set_eq Call.permission _ i hc (by rfl)).trans hw.permissions
      · rcases List.mem_or_eq_of_mem_set hd with hd | rfl
        · exact hw.request d hd
        · exact hw.request c hmem
      · rcases List.mem_or_eq_of_mem_set hd with hd | rfl
        · exact hw.consistent d hd
        · exact consistent_next hfree (hw.consistent c hmem) (hw.entries c hmem)
      · rcases List.mem_or_eq_of_mem_set hd with hd | rfl
        · exact hentries d hd
        · exact hentries c hmem
  · exact hw

/-- **A batch that returns decides each requested permission as the rows do.** -/
theorem get?_checkBatch (hfree : ErrorFree engine.assignmentStore) (hcold : engine.cache.cache = HashMap.empty)
    (hperms : permissions.Nodup) (hname : Set.InjOn name {p | p ∈ permissions}) {polls : List (Nat × CheckClock)}
    {result : HashMap P Bool} (h : checkBatch engine s permissions polls = some result) (p : P) :
    result.get? p =
      if p ∈ permissions then some (decision engine.roleRegistry engine.assignmentStore .flat s p) else none := by
  obtain ⟨outcomes, houtcomes, rfl⟩ := Option.map_eq_some_iff.1 h
  have hinv := (pollMachine engine.roleRegistry).run_invariant (fun _ _ => True) (BatchInv engine s permissions)
    (fun w poll hw _ => batchInv_step hfree hname w poll hw) (batchWorld engine s permissions) polls
    (batchInv_init hcold) (Machine.along_of_forall _ _ _ _ (fun _ _ _ => trivial))
  have hdecisions := mapM_answer _ _ _ _ houtcomes hinv.consistent
  generalize (pollMachine engine.roleRegistry).run (batchWorld engine s permissions) polls = w at hinv hdecisions
  have hflat : outcomes =
      permissions.map (fun p => decision engine.roleRegistry engine.assignmentStore .flat s p) := by
    rw [hdecisions, ← hinv.permissions, List.map_map]
    refine List.map_congr_left (fun c hc => ?_)
    obtain ⟨hpath, hsubject⟩ := hinv.request c hc
    unfold Call.decision
    rw [hpath, hsubject]
    rfl
  have hkeys : ((permissions.zip outcomes).map Prod.fst).Nodup := by
    rw [List.map_fst_zip (by rw [hflat, List.length_map])]
    exact hperms
  rw [HashMap.get?_ofList _ hkeys, hflat, lookup_zip_map]

/-! ## The batch returns -/

theorem next_remaining_lt (registry : RoleRegistry P) (store : A) (cache : TtlPermissionCache) (clock : CheckClock)
    {c : Call S P} (hc : c.answer.isSome = false) :
    (c.next registry store cache clock).1.remaining < c.pc.remaining := by
  obtain ⟨path, s, p, pc⟩ := c
  unfold Call.next
  cases pc with
  | start =>
    dsimp only
    split <;> simp [Pc.remaining]
  | denied =>
    dsimp only
    split
    · split <;> simp [Pc.remaining]
    · simp [Pc.remaining]
  | extra =>
    dsimp only
    split
    · split <;> simp [Pc.remaining]
    · simp [Pc.remaining]
  | roles =>
    dsimp only
    split <;> simp [Pc.remaining]
  | write granted => exact Nat.one_pos
  | returned granted => cases hc

/-- **Polling the first call that has not returned, again and again, ends the batch.** -/
theorem exists_poll (registry : RoleRegistry P) (clock : CheckClock) : ∀ (n : Nat) (w : World A S P),
    (w.calls.map (fun c => c.pc.remaining)).sum ≤ n →
      ∃ polls, ∀ c ∈ ((pollMachine registry).run w polls).calls, c.answer.isSome = true
  | n, w, hn => by
    by_cases hall : ∀ c ∈ w.calls, c.answer.isSome = true
    · exact ⟨[], hall⟩
    · simp only [not_forall, Bool.not_eq_true] at hall
      obtain ⟨c, hc, hpending⟩ := hall
      obtain ⟨c, hc, hpending⟩ := exists_takeWhile_length (fun c : Call S P => c.answer.isSome) w.calls ⟨c, hc, hpending⟩
      generalize hi : (w.calls.takeWhile (fun c => c.answer.isSome)).length = i at hc
      have hwindow : inWindow w.calls i = true := by
        unfold inWindow
        rw [hi]
        exact decide_eq_true (Nat.lt_add_of_pos_right (by decide))
      have hlt : ((pollStep registry w (i, clock)).calls.map (fun c => c.pc.remaining)).sum <
          (w.calls.map (fun c => c.pc.remaining)).sum := by
        unfold pollStep
        rw [if_pos hwindow, worldStep_step registry clock hc]
        exact sum_map_set_lt _ _ _ hc (next_remaining_lt registry w.store w.cache clock hpending)
      cases n with
      | zero => omega
      | succ n =>
        obtain ⟨polls, hpolls⟩ := exists_poll registry clock n (pollStep registry w (i, clock)) (by omega)
        exact ⟨(i, clock) :: polls, hpolls⟩

theorem mapM_isSome {α β : Type} (f : α → Option β) : ∀ l : List α, (∀ x ∈ l, (f x).isSome = true) →
    ∃ ys, l.mapM f = some ys
  | [], _ => ⟨[], rfl⟩
  | x :: l, h => by
    obtain ⟨y, hy⟩ := Option.isSome_iff_exists.1 (h x List.mem_cons_self)
    obtain ⟨ys, hys⟩ := mapM_isSome f l (fun z hz => h z (List.mem_cons_of_mem x hz))
    exact ⟨y :: ys, by rw [List.mapM_cons, hy, hys]; rfl⟩

/-- **A batch can always be polled on until it returns.** -/
theorem checkBatch_returns (engine : RbacEngine A P) (s : S) (permissions : List P) (polls : List (Nat × CheckClock))
    (clock : CheckClock) : ∃ more result, checkBatch engine s permissions (polls ++ more) = some result := by
  obtain ⟨more, hmore⟩ := exists_poll engine.roleRegistry clock _
    ((pollMachine engine.roleRegistry).run (batchWorld engine s permissions) polls) (Nat.le_refl _)
  obtain ⟨outcomes, houtcomes⟩ := mapM_isSome Call.answer _ hmore
  refine ⟨more, HashMap.ofList (permissions.zip outcomes), ?_⟩
  unfold checkBatch
  dsimp only
  rw [Machine.run_append, houtcomes]
  rfl

end Batch

/-! ## Agreement with the listings -/

/-- The point checks decide as the listings list, a batch answers pointwise as `check`, and nothing denied is granted. -/
structure DecidesAsListed (engine : RbacEngine A P) (s : S) (permissions : List P) : Prop where
  check : ∀ clock p, (check engine clock s p).1 = true ↔
    ∃ listed, effectivePermissions engine s = .ok listed ∧ p ∈ listed
  checkHierarchical : ∀ clock p, (checkHierarchical engine clock s p).1 = true ↔
    ∃ listed, effectivePermissionsHierarchical engine s = .ok listed ∧ p ∈ listed
  checkBatch : ∀ polls result, checkBatch engine s permissions polls = some result → ∀ clock p,
    result.get? p = if p ∈ permissions then some (Rbac.check engine clock s p).1 else none
  checkBatch_returns : ∀ polls, ∃ more result, Rbac.checkBatch engine s permissions (polls ++ more) = some result
  denied : ∀ denied p, deniedPermissions engine.assignmentStore s = .ok denied → p ∈ denied →
    (∀ clock, (Rbac.check engine clock s p).1 = false ∧ (Rbac.checkHierarchical engine clock s p).1 = false) ∧
    (∀ listed, effectivePermissions engine s = .ok listed → p ∉ listed) ∧
    (∀ listed, effectivePermissionsHierarchical engine s = .ok listed → p ∉ listed) ∧
    ∀ polls result, Rbac.checkBatch engine s permissions polls = some result → result.get? p ≠ some true

section Cold
variable {engine : RbacEngine A P} {s : S}

theorem checkOn_of_cold (hfree : ErrorFree engine.assignmentStore) (hcold : engine.cache.cache = HashMap.empty)
    (path : CheckPath) (clock : CheckClock) (p : P) :
    (checkOn path engine clock s p).1 = decision engine.roleRegistry engine.assignmentStore path s p := by
  have hmiss : engine.cache.get clock.read s p = none := by
    unfold TtlPermissionCache.get
    rw [hcold]
    rfl
  rw [checkOn_of_miss path hmiss (failedQuery_of_errorFree engine hfree _ _ _)]

theorem checkOn_iff_listed (hfree : ErrorFree engine.assignmentStore) (hcold : engine.cache.cache = HashMap.empty)
    (path : CheckPath) (clock : CheckClock) (p : P) :
    (checkOn path engine clock s p).1 = true ↔ ∃ listed, effectiveOn path engine s = .ok listed ∧ p ∈ listed := by
  obtain ⟨perms, hperms, hmem⟩ := effectiveOn_of_errorFree path hfree s
  rw [checkOn_of_cold hfree hcold, decision, decide_eq_true_eq, ← hmem p]
  constructor
  · exact fun hp => ⟨perms, hperms, hp⟩
  · rintro ⟨listed, hlisted, hp⟩
    obtain rfl : perms = listed := Except.ok.inj (hperms.symm.trans hlisted)
    exact hp

/-- **Deny wins in the listings too.** -/
theorem not_mem_listed_of_denied (hfree : ErrorFree engine.assignmentStore) (hcold : engine.cache.cache = HashMap.empty)
    (path : CheckPath) {denied : Finset P} {p : P}
    (hdenied : deniedPermissions engine.assignmentStore s = .ok denied) (hp : p ∈ denied) (listed : Finset P)
    (hlisted : effectiveOn path engine s = .ok listed) : p ∉ listed := by
  intro hmem
  have hcheck := (checkOn_iff_listed hfree hcold path (clockAt 0) p).2 ⟨listed, hlisted, hmem⟩
  rw [checkOn_of_cold hfree hcold, decision_of_denied hfree path hdenied hp] at hcheck
  cases hcheck

end Cold

/-- **Decisions agree with listings**: on a cold cache over an error-free store, for permissions whose names are
unique. -/
theorem decidesAsListed (engine : RbacEngine A P) (hfree : ErrorFree engine.assignmentStore)
    (hcold : engine.cache.cache = HashMap.empty) (s : S) (permissions : List P) (hperms : permissions.Nodup)
    (hname : Set.InjOn name {p | p ∈ permissions}) : DecidesAsListed engine s permissions where
  check clock p := checkOn_iff_listed hfree hcold .flat clock p
  checkHierarchical clock p := checkOn_iff_listed hfree hcold .hierarchical clock p
  checkBatch polls result h clock p := by
    rw [get?_checkBatch hfree hcold hperms hname h, ← checkOn_of_cold hfree hcold .flat clock]
    rfl
  checkBatch_returns polls := Rbac.checkBatch_returns engine s permissions polls (clockAt 0)
  denied denied p hdenied hp := by
    refine ⟨fun clock => ⟨?_, ?_⟩, fun listed => ?_, fun listed => ?_, fun polls result h => ?_⟩
    · exact (checkOn_of_cold hfree hcold .flat clock p).trans (decision_of_denied hfree .flat hdenied hp)
    · exact (checkOn_of_cold hfree hcold .hierarchical clock p).trans (decision_of_denied hfree .hierarchical hdenied hp)
    · exact not_mem_listed_of_denied hfree hcold .flat hdenied hp listed
    · exact not_mem_listed_of_denied hfree hcold .hierarchical hdenied hp listed
    · rw [get?_checkBatch hfree hcold hperms hname h, decision_of_denied hfree .flat hdenied hp]
      split <;> simp

end

theorem decidesAsListed_admin :
    DecidesAsListed ⟨testRegistry, adminStore, TtlPermissionCache.new (fromSecs 300)⟩ "user"
      [TestPerm.read, TestPerm.write] := by
  refine decidesAsListed _ (InMemoryAssignmentStore.errorFree adminStore) rfl "user" _ (by decide) ?_
  intro a _ b _ h
  cases a <;> cases b <;> first | rfl | exact absurd h (by decide)

end Rbac
end Kirino
