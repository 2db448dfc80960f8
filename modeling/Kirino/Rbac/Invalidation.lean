import Kirino.Rbac.Interleaving
import Kirino.Rbac.Store.Memory
/-!
# Invalidation — what a call begun after an invalidation answers (`rbac/engine.rs`)

The invalidation drops the subject's entries; what can bring an older answer back is a call that was in flight, had read
rows that have changed since, and writes the cache afterwards.  The invariant of the segment between the invalidation
and the next store write (`Segment`) says that the calls that return in it are consistent with the rows and find only
entries the rows entail; it is kept by every event that is not a store write (`segment_step`).
-/
namespace Kirino
namespace Rbac

open Lib (Machine HashMap)

section Evolution
variable {S P : Type}

/-- The later calls are the earlier ones, further on: a call keeps its request, and an answer once returned. -/
def Evolves (calls calls' : List (Call S P)) : Prop :=
  ∀ (i : Nat) (c : Call S P), calls[i]? = some c → ∃ c', calls'[i]? = some c' ∧ c.SameRequest c' ∧
    ∀ granted, c.pc = .returned granted → c'.pc = .returned granted

theorem Evolves.refl (calls : List (Call S P)) : Evolves calls calls :=
  fun _ c hc => ⟨c, hc, ⟨rfl, rfl, rfl⟩, fun _ h => h⟩

theorem Evolves.trans {a b c : List (Call S P)} (hab : Evolves a b) (hbc : Evolves b c) : Evolves a c := by
  intro i x hx
  obtain ⟨y, hy, ⟨h1, h2, h3⟩, hret⟩ := hab i x hx
  obtain ⟨z, hz, ⟨h1', h2', h3'⟩, hret'⟩ := hbc i y hy
  exact ⟨z, hz, ⟨h1'.trans h1, h2'.trans h2, h3'.trans h3⟩, fun g hg => hret' g (hret g hg)⟩

theorem evolves_append (calls : List (Call S P)) (c : Call S P) : Evolves calls (calls ++ [c]) := by
  intro i x hx
  have hi : i < calls.length := (List.getElem?_eq_some_iff.1 hx).1
  exact ⟨x, by rw [List.getElem?_append_left hi, hx], ⟨rfl, rfl, rfl⟩, fun _ h => h⟩

theorem evolves_set {calls : List (Call S P)} {i : Nat} {c : Call S P} {pc : Pc} (hc : calls[i]? = some c)
    (hpc : ∀ granted, c.pc = .returned granted → pc = .returned granted) :
    Evolves calls (calls.set i { c with pc }) := by
  intro j x hx
  have hj : j < calls.length := (List.getElem?_eq_some_iff.1 hx).1
  by_cases hij : i = j
  · subst hij
    obtain rfl : c = x := Option.some.inj (hc.symm.trans hx)
    exact ⟨{ c with pc }, List.getElem?_set_self hj, ⟨rfl, rfl, rfl⟩, hpc⟩
  · exact ⟨x, by rw [List.getElem?_set_ne hij, hx], ⟨rfl, rfl, rfl⟩, fun _ h => h⟩

/-- The call returns after the first world and by the second. -/
def ReturnsBetween {A : Type} (w f : World A S P) (i : Nat) : Prop :=
  (∃ c granted, f.calls[i]? = some c ∧ c.pc = .returned granted) ∧
    ∀ c granted, w.calls[i]? = some c → c.pc ≠ .returned granted

theorem returnsBetween_of_write {A : Type} {w f x : World A S P} {i : Nat} {c c' : Call S P} {granted : Bool}
    (hevolves : Evolves w.calls x.calls) (hc : x.calls[i]? = some c) (hpc : c.pc = .write granted)
    (hc' : f.calls[i]? = some c') (hpc' : c'.pc = .returned granted) : ReturnsBetween w f i := by
  refine ⟨⟨c', granted, hc', hpc'⟩, fun c₀ g hc₀ hg => ?_⟩
  obtain ⟨c₁, hc₁, -, hret⟩ := hevolves i c₀ hc₀
  obtain rfl : c = c₁ := Option.some.inj (hc.symm.trans hc₁)
  have := hret g hg
  rw [hpc] at this
  cases this

end Evolution

section
variable {A S P E : Type} [AssignmentStore A S P E] [Subject S] [Permission P] [DecidableEq P]

theorem next_returned {registry : RoleRegistry P} {store : A} {cache : TtlPermissionCache} {clock : CheckClock}
    {c : Call S P} (granted : Bool) (hpc : c.pc = .returned granted) :
    (c.next registry store cache clock).1 = .returned granted := by
  rw [Call.next, hpc]

theorem evolves_step (registry : RoleRegistry P) (w : World A S P) (e : Event S P) :
    Evolves w.calls (worldStep registry w e).calls := by
  cases e with
  | call path s p => exact evolves_append _ _
  | step i clock =>
    unfold worldStep
    dsimp only
    cases hc : w.calls[i]? with
    | none => exact Evolves.refl _
    | some c => exact evolves_set hc next_returned
  | write _ => exact Evolves.refl _
  | invalidateSubject _ => exact Evolves.refl _
  | invalidateAll => exact Evolves.refl _

theorem evolves_run (registry : RoleRegistry P) : ∀ (w : World A S P) (es : List (Event S P)),
    Evolves w.calls ((worldMachine registry).run w es).calls
  | w, [] => Evolves.refl w.calls
  | w, e :: es => (evolves_step registry w e).trans (evolves_run registry (worldStep registry w e) es)

/-- Of the calls about the subject that return between the two worlds, those in flight at the first have read nothing
but what the rows say there, and those of one cache key are entitled alike. -/
structure NothingStale (registry : RoleRegistry P) (s : S) (w f : World A S P) : Prop where
  consistent : ∀ (i : Nat) (c : Call S P), ReturnsBetween w f i → w.calls[i]? = some c →
    subjectId c.subject = subjectId s → c.Consistent registry w.store
  agree : ∀ (i j : Nat) (c c' : Call S P), ReturnsBetween w f i → ReturnsBetween w f j → f.calls[i]? = some c →
    f.calls[j]? = some c' → subjectId c.subject = subjectId s → c.key = c'.key →
      c.decision registry w.store = c'.decision registry w.store

/-- The invariant of the segment that starts at `w` and ends at `f`. -/
structure Segment (registry : RoleRegistry P) (s : S) (w f x : World A S P) : Prop where
  store : x.store = w.store
  evolves : Evolves w.calls x.calls
  consistent : ∀ (i : Nat) (c : Call S P), ReturnsBetween w f i → x.calls[i]? = some c →
    subjectId c.subject = subjectId s → c.Consistent registry w.store
  entries : ∀ (i : Nat) (c : Call S P), ReturnsBetween w f i → f.calls[i]? = some c →
    subjectId c.subject = subjectId s → c.EntryAgrees registry w.store x.cache

theorem entryAgrees_of_dropped {registry : RoleRegistry P} {store : A} {cache cache' : TtlPermissionCache}
    {c : Call S P} (hdrop : ∀ k e, cache'.cache.get? k = some e → cache.cache.get? k = some e)
    (ha : c.EntryAgrees registry store cache) : c.EntryAgrees registry store cache' :=
  fun e he => ha e (hdrop _ e he)

section Step
variable {registry : RoleRegistry P} {s : S} {w f x : World A S P}

theorem segment_consistent_step {i : Nat} {clock : CheckClock} {c : Call S P} (hfree : ErrorFree w.store)
    (hc : x.calls[i]? = some c) (hrest : Evolves (worldStep registry x (.step i clock)).calls f.calls)
    (hx : Segment registry s w f x) (j : Nat) (d : Call S P) (hret : ReturnsBetween w f j)
    (hd : (worldStep registry x (.step i clock)).calls[j]? = some d) (hid : subjectId d.subject = subjectId s) :
    d.Consistent registry w.store := by
  obtain ⟨d', hd', hsame, -⟩ := hrest j d hd
  rw [worldStep_step registry clock hc] at hd
  by_cases hij : i = j
  · subst hij
    have hi : i < x.calls.length := (List.getElem?_eq_some_iff.1 hc).1
    obtain rfl : _ = d := Option.some.inj ((List.getElem?_set_self hi).symm.trans hd)
    have hentry : c.EntryAgrees registry w.store x.cache :=
      hsame.entryAgrees (hx.entries i d' hret hd' (by rw [hsame.2.1]; exact hid))
    rw [hx.store]
    exact consistent_next hfree (hx.consistent i c hret hc hid) hentry
  · have hold : x.calls[j]? = some d := (List.getElem?_set_ne hij).symm.trans hd
    exact hx.consistent j d hret hold hid

theorem segment_entries_step {i : Nat} {clock : CheckClock} {c : Call S P} (hstale : NothingStale registry s w f)
    (hc : x.calls[i]? = some c) (hrest : Evolves (worldStep registry x (.step i clock)).calls f.calls)
    (hx : Segment registry s w f x) (j : Nat) (d : Call S P) (hret : ReturnsBetween w f j)
    (hd : f.calls[j]? = some d) (hid : subjectId d.subject = subjectId s) :
    d.EntryAgrees registry w.store (worldStep registry x (.step i clock)).cache := by
  have hi : i < x.calls.length := (List.getElem?_eq_some_iff.1 hc).1
  have hold := hx.entries j d hret hd hid
  rw [worldStep_step registry clock hc] at hrest ⊢
  rcases next_cache registry x.store x.cache clock c with hcache | ⟨granted, hpc, hnext⟩
  · rw [hcache]
    exact hold
  · rw [hnext] at hrest ⊢
    intro e he
    rcases TtlPermissionCache.get?_set he with ⟨hkey, rfl⟩ | ⟨-, hget⟩
    · obtain ⟨c', hc', hsame, hreturned⟩ := hrest i { c with pc := .returned granted } (List.getElem?_set_self hi)
      have hid' : subjectId c.subject = subjectId s := (congrArg Prod.fst hkey).symm.trans hid
      have hreti : ReturnsBetween w f i := returnsBetween_of_write hx.evolves hc hpc hc' (hreturned granted rfl)
      have hgranted := hx.consistent i c hreti hc hid'
      unfold Call.Consistent at hgranted
      rw [hpc] at hgranted
      have hkey' : c'.key = d.key := by
        rw [hkey]
        unfold Call.key
        rw [hsame.2.1, hsame.2.2]
      calc granted = c.decision registry w.store := hgranted
        _ = c'.decision registry w.store := (Call.SameRequest.decision hsame).symm
        _ = d.decision registry w.store :=
          hstale.agree i j c' d hreti hret hc' hd (by rw [hsame.2.1]; exact hid') hkey'
    · exact hold e hget

/-- **Every event but a store write keeps the invariant of the segment.** -/
theorem segment_step {e : Event S P} (hfree : ErrorFree w.store) (hstale : NothingStale registry s w f)
    (hwrite : ∀ write, e ≠ .write write) (hrest : Evolves (worldStep registry x e).calls f.calls)
    (hx : Segment registry s w f x) : Segment registry s w f (worldStep registry x e) := by
  have hevolves : Evolves w.calls (worldStep registry x e).calls := hx.evolves.trans (evolves_step registry x e)
  cases e with
  | call path s' p =>
    refine ⟨hx.store, hevolves, fun i c hret hc hid => ?_, hx.entries⟩
    have hc' : (x.calls ++ [⟨path, s', p, .start⟩])[i]? = some c := hc
    rw [List.getElem?_append] at hc'
    split at hc'
    · exact hx.consistent i c hret hc' hid
    · rw [List.mem_singleton.1 (List.mem_of_getElem? hc')]
      trivial
  | step i clock =>
    cases hc : x.calls[i]? with
    | none =>
      have hsame : worldStep registry x (.step i clock) = x := by
        unfold worldStep
        dsimp only
        rw [hc]
      rw [hsame]
      exact hx
    | some c =>
      refine ⟨?_, hevolves, segment_consistent_step hfree hc hrest hx, segment_entries_step hstale hc hrest hx⟩
      rw [worldStep_step registry clock hc]
      exact hx.store
  | write write => exact absurd rfl (hwrite write)
  | invalidateSubject s' =>
    refine ⟨hx.store, hevolves, hx.consistent, fun i c hret hc hid => ?_⟩
    refine entryAgrees_of_dropped (fun k e he => ?_) (hx.entries i c hret hc hid)
    have he' : (x.cache.invalidateSubject s').cache.get? k = some e := he
    rw [TtlPermissionCache.get?_invalidateSubject] at he'
    split at he'
    · cases he'
    · exact he'
  | invalidateAll =>
    refine ⟨hx.store, hevolves, hx.consistent, fun i c hret hc hid => ?_⟩
    exact entryAgrees_of_dropped (fun k e he => by cases he) (hx.entries i c hret hc hid)

theorem segment_run (hfree : ErrorFree w.store) (hstale : NothingStale registry s w f) :
    ∀ (x : World A S P) (es : List (Event S P)), (∀ e ∈ es, ∀ write, e ≠ .write write) →
      (worldMachine registry).run x es = f → Segment registry s w f x → Segment registry s w f f
  | x, [], _, hf, hx => by
    obtain rfl : x = f := hf
    exact hx
  | x, e :: es, hwrites, hf, hx => by
    have hrest : Evolves (worldStep registry x e).calls f.calls := by
      have := evolves_run registry (worldStep registry x e) es
      rw [← hf]
      exact this
    have hstep := segment_step hfree hstale (hwrites e List.mem_cons_self) hrest hx
    exact segment_run hfree hstale _ es (fun e' he' => hwrites e' (List.mem_cons_of_mem e he')) hf hstep

theorem segment_of_invalidated {inv : Event S P} (hinv : inv = .invalidateSubject s ∨ inv = .invalidateAll)
    (hstale : NothingStale registry s w f) : Segment registry s w f (worldStep registry w inv) := by
  have hdropped : ∀ k, k.1 = subjectId s → (worldStep registry w inv).cache.cache.get? k = none := by
    intro k hk
    rcases hinv with rfl | rfl
    · show (w.cache.invalidateSubject s).cache.get? k = none
      rw [TtlPermissionCache.get?_invalidateSubject, if_pos hk]
    · rfl
  have hstore : (worldStep registry w inv).store = w.store := by rcases hinv with rfl | rfl <;> rfl
  have hcalls : (worldStep registry w inv).calls = w.calls := by rcases hinv with rfl | rfl <;> rfl
  refine ⟨hstore, by rw [hcalls]; exact Evolves.refl _, ?_, fun i c _ _ hid e he => ?_⟩
  · rw [hcalls]
    exact hstale.consistent
  · rw [hdropped c.key hid] at he
    cases he

end Step

/-- **A call begun after the invalidation and before the next store write answers from the rows**, when nothing stale
returns meanwhile. -/
theorem answers_after_invalidation (registry : RoleRegistry P) (w₀ : World A S P) (pre seg : List (Event S P)) (s : S)
    (inv : Event S P) (hinv : inv = .invalidateSubject s ∨ inv = .invalidateAll)
    (hfree : ErrorFree ((worldMachine registry).run w₀ pre).store)
    (hwrites : ∀ e ∈ seg, ∀ write, e ≠ .write write)
    (hstale : NothingStale registry s ((worldMachine registry).run w₀ pre)
      ((worldMachine registry).run w₀ (pre ++ inv :: seg))) :
    ∀ (i : Nat) (c : Call S P) (granted : Bool), ((worldMachine registry).run w₀ pre).calls.length ≤ i →
      ((worldMachine registry).run w₀ (pre ++ inv :: seg)).calls[i]? = some c → subjectId c.subject = subjectId s →
      c.pc = .returned granted → granted = c.decision registry ((worldMachine registry).run w₀ pre).store := by
  intro i c granted hi hc hid hpc
  have hrun : (worldMachine registry).run w₀ (pre ++ inv :: seg) =
      (worldMachine registry).run (worldStep registry ((worldMachine registry).run w₀ pre) inv) seg :=
    Machine.run_append _ _ _ _
  have hend := segment_run hfree hstale _ seg hwrites hrun.symm (segment_of_invalidated hinv hstale)
  have hret : ReturnsBetween ((worldMachine registry).run w₀ pre)
      ((worldMachine registry).run w₀ (pre ++ inv :: seg)) i := by
    refine ⟨⟨c, granted, hc, hpc⟩, fun c₀ _ hc₀ _ => ?_⟩
    have := (List.getElem?_eq_some_iff.1 hc₀).1
    omega
  have hconsistent := hend.consistent i c hret hc hid
  unfold Call.Consistent at hconsistent
  rw [hpc] at hconsistent
  exact hconsistent

end

def viewerWorld : World (InMemoryAssignmentStore String TestPerm) String TestPerm :=
  ⟨viewerStore, TtlPermissionCache.new (fromSecs 300), []⟩

/-- A check of the viewer's permission, begun and answered. -/
def recheck : List (Event String TestPerm) :=
  [.call .flat "user" .read, .step 0 (clockAt 1), .step 0 (clockAt 2), .step 0 (clockAt 3), .step 0 (clockAt 4),
    .step 0 (clockAt 5)]

def rechecked : Call String TestPerm := ⟨.flat, "user", .read, .returned false⟩

theorem answers_after_invalidation_revoked :
    ((worldMachine testRegistry).run viewerWorld
        ([.write (.revokeRole "user" "viewer")] ++ .invalidateSubject "user" :: recheck)).calls = [rechecked] ∧
      false = rechecked.decision testRegistry (viewerStore.revokeRole "user" "viewer") := by
  refine ⟨rfl, answers_after_invalidation testRegistry viewerWorld [.write (.revokeRole "user" "viewer")] recheck "user"
    _ (Or.inl rfl) (InMemoryAssignmentStore.errorFree _) (fun e he write => ?_) ⟨fun i c _ hc _ => ?_, ?_⟩ 0 rechecked
    false (Nat.le_refl 0) rfl rfl rfl⟩
  · simp only [recheck, List.mem_cons, List.not_mem_nil, or_false] at he
    rcases he with rfl | rfl | rfl | rfl | rfl | rfl <;> nofun
  · cases hc
  · intro i j c c' _ _ hc hc' _ _
    have hcalls : ∀ (k : Nat) (d : Call String TestPerm), [rechecked][k]? = some d → d = rechecked :=
      fun k d hd => List.mem_singleton.1 (List.mem_of_getElem? hd)
    rw [hcalls i c hc, hcalls j c' hc']

/-- A check that has read the role before the revocation writes its answer after the invalidation, and the check that
begins next is granted. -/
theorem stale_write_after_invalidation :
    (((worldMachine testRegistry).run viewerWorld
        ([.call .flat "user" .read, .step 0 (clockAt 1), .step 0 (clockAt 2), .step 0 (clockAt 3), .step 0 (clockAt 4),
          .write (.revokeRole "user" "viewer")] ++ .invalidateSubject "user" ::
          [.step 0 (clockAt 5), .call .flat "user" .read, .step 1 (clockAt 6)])).calls[1]?).map Call.pc =
        some (.returned true) ∧
      decision testRegistry (viewerStore.revokeRole "user" "viewer") .flat "user" TestPerm.read = false := by
  decide

end Rbac
end Kirino
