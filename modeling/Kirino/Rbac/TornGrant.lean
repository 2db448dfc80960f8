import Kirino.Rbac.Interleaving
import Kirino.Rbac.Store.Memory
/-!
# TornGrant — one check among writes of its subject's rows (`rbac/engine.rs`, `rbac/store/memory.rs`)

The denied set, the extra set and the roles are read at three instants.  A grant read from the second or the third is
a grant the store held at that instant unless the deny came in between: the invariant of a check in flight
(`Untorn`) is that it is not denied while a grant can still be read.
-/
namespace Kirino
namespace Rbac

open Lib (Machine HashMap)

section
variable {S P : Type} [Subject S]

theorem not_denied_write {st : InMemoryAssignmentStore S P} {w : StoreWrite S P} {s : S} {p : P}
    (hp : p ∉ (rowsOf st s).denied)
    (hw : ∀ s' perms, w = .setDeniedPermissions s' perms → subjectId s' = subjectId s → p ∉ perms) :
    p ∉ (rowsOf (AssignmentStore.write st w) s).denied := by
  rw [InMemoryAssignmentStore.rowsOf_write]
  split
  · rename_i hid
    cases w with
    | assignRole s' roleName => exact hp
    | revokeRole s' roleName => exact hp
    | setExtraPermissions s' perms => exact hp
    | setDeniedPermissions s' perms => exact hw s' perms rfl hid.symm
  · exact hp

variable [Permission P]

/-- The check reads a grant next: it has read the denied set and not yet returned from the read that may grant. -/
def Pc.AfterDeny (pc : Pc) : Prop := pc = .extra ∨ pc = .roles

instance (pc : Pc) : Decidable pc.AfterDeny := inferInstanceAs (Decidable (_ ∨ _))

/-- No write denies the permission to the subject while the check is between its deny read and its granting read. -/
def NoDenyBetweenReads (s : S) (p : P) (w : World (InMemoryAssignmentStore S P) S P) (e : Event S P) : Prop :=
  ∀ s' perms, e = .write (.setDeniedPermissions s' perms) → subjectId s' = subjectId s → p ∈ perms →
    ∀ c, w.calls[0]? = some c → ¬ c.pc.AfterDeny

/-- The events of one check's life: its own steps and writes. -/
def Event.StepsOrWrites (e : Event S P) : Prop := (∃ clock, e = .step 0 clock) ∨ ∃ write, e = .write write

/-- A check in flight that has read no grant, and is undenied once it has read that it is. -/
structure Untorn (path : CheckPath) (s : S) (p : P) (w : World (InMemoryAssignmentStore S P) S P) (pc : Pc) : Prop where
  call : w.calls = [⟨path, s, p, pc⟩]
  cold : w.cache.cache.get? (TtlPermissionCache.key s p) = none ∨ pc ≠ .start
  ungranted : pc ≠ .write true ∧ pc ≠ .returned true
  undenied : pc.AfterDeny → p ∉ (rowsOf w.store s).denied

theorem untorn_of_settled {path : CheckPath} {s : S} {p : P} {w : World (InMemoryAssignmentStore S P) S P} {pc : Pc}
    (hcall : w.calls = [⟨path, s, p, pc⟩]) (hpc : pc = .denied ∨ pc = .write false ∨ pc = .returned false) :
    Untorn path s p w pc := by
  rcases hpc with rfl | rfl | rfl <;>
    exact ⟨hcall, Or.inr nofun, ⟨nofun, nofun⟩, fun h => by rcases h with h | h <;> cases h⟩

variable [DecidableEq P]

/-- The check is in flight and the store grants what it asks for. -/
def GrantsInFlight (registry : RoleRegistry P) (path : CheckPath) (s : S) (p : P)
    (w : World (InMemoryAssignmentStore S P) S P) : Prop :=
  (∃ pc, w.calls = [⟨path, s, p, pc⟩] ∧ pc ≠ .start ∧ ∀ granted, pc ≠ .returned granted) ∧
    (rowsOf w.store s).Grants registry path p

section Step
variable {registry : RoleRegistry P} {path : CheckPath} {s : S} {p : P}
  {w : World (InMemoryAssignmentStore S P) S P} {pc : Pc}

theorem untorn_write {write : StoreWrite S P} (hw : Untorn path s p w pc)
    (hdeny : NoDenyBetweenReads s p w (.write write)) :
    Untorn path s p (worldStep registry w (.write write)) pc := by
  refine ⟨hw.call, hw.cold, hw.ungranted, fun hafter => ?_⟩
  refine not_denied_write (hw.undenied hafter) (fun s' perms hwrite hid hp => ?_)
  exact hdeny s' perms (by rw [hwrite]) hid hp ⟨path, s, p, pc⟩ (by rw [hw.call]; rfl) hafter

/-- **A step of the check reads no grant, or one the store holds.** -/
theorem untorn_step (clock : CheckClock) (hw : Untorn path s p w pc) :
    (∃ pc', Untorn path s p (worldStep registry w (.step 0 clock)) pc') ∨ GrantsInFlight registry path s p w := by
  have hstep : worldStep registry w (.step 0 clock) =
      { w with
        cache := (Call.next registry w.store w.cache clock ⟨path, s, p, pc⟩).2
        calls := [⟨path, s, p, (Call.next registry w.store w.cache clock ⟨path, s, p, pc⟩).1⟩] } := by
    unfold worldStep
    rw [hw.call]
    rfl
  rw [hstep]
  obtain ⟨hr, hx, hd⟩ := InMemoryAssignmentStore.errorFree w.store s
  unfold Call.next
  cases pc with
  | start =>
    have hmiss : w.cache.get clock.read s p = none := by
      unfold TtlPermissionCache.get
      rw [hw.cold.resolve_right (fun h => h rfl)]
      rfl
    rw [hmiss]
    exact Or.inl ⟨_, untorn_of_settled rfl (Or.inl rfl)⟩
  | denied =>
    dsimp only
    rw [hd]
    dsimp only
    by_cases hp : p ∈ (rowsOf w.store s).denied
    · rw [if_pos hp]
      exact Or.inl ⟨_, untorn_of_settled rfl (Or.inr (Or.inl rfl))⟩
    · rw [if_neg hp]
      exact Or.inl ⟨.extra, rfl, Or.inr nofun, ⟨nofun, nofun⟩, fun _ => hp⟩
  | extra =>
    have hp := hw.undenied (Or.inl rfl)
    dsimp only
    rw [hx]
    dsimp only
    by_cases hpx : p ∈ (rowsOf w.store s).extra
    · exact Or.inr ⟨⟨.extra, hw.call, nofun, nofun⟩, hp, Or.inl hpx⟩
    · rw [if_neg hpx]
      exact Or.inl ⟨.roles, rfl, Or.inr nofun, ⟨nofun, nofun⟩, fun _ => hp⟩
  | roles =>
    have hp := hw.undenied (Or.inr rfl)
    dsimp only
    rw [hr]
    dsimp only
    cases hany : (rowsOf w.store s).roles.any (fun r => decide (p ∈ rolePermissions registry path r)) with
    | true =>
      obtain ⟨r, hr', hpr⟩ := List.any_eq_true.1 hany
      exact Or.inr ⟨⟨.roles, hw.call, nofun, nofun⟩, hp, Or.inr ⟨r, hr', of_decide_eq_true hpr⟩⟩
    | false =>
      exact Or.inl ⟨_, untorn_of_settled rfl (Or.inr (Or.inl rfl))⟩
  | write granted =>
    cases granted with
    | true => exact absurd rfl hw.ungranted.1
    | false =>
      exact Or.inl ⟨_, untorn_of_settled rfl (Or.inr (Or.inr rfl))⟩
  | returned granted =>
    cases granted with
    | true => exact absurd rfl hw.ungranted.2
    | false =>
      exact Or.inl ⟨_, untorn_of_settled rfl (Or.inr (Or.inr rfl))⟩

theorem grantsInFlight_of_returned (registry : RoleRegistry P) (path : CheckPath) (s : S) (p : P) :
    ∀ (w : World (InMemoryAssignmentStore S P) S P) (pc : Pc) (es : List (Event S P)), Untorn path s p w pc →
      (∀ e ∈ es, e.StepsOrWrites) → (worldMachine registry).Along (NoDenyBetweenReads s p) w es →
      ((worldMachine registry).run w es).calls = [⟨path, s, p, .returned true⟩] →
      ∃ pre post, es = pre ++ post ∧ GrantsInFlight registry path s p ((worldMachine registry).run w pre)
  | w, pc, [], hw, _, _, hret => by
    have hpc : Call.mk path s p pc = ⟨path, s, p, .returned true⟩ := List.singleton_inj.1 (hw.call.symm.trans hret)
    cases hpc
    exact absurd rfl hw.ungranted.2
  | w, pc, e :: es, hw, hes, hal, hret => by
    have hrec : ∀ pc', Untorn path s p (worldStep registry w e) pc' → ∃ pre post, e :: es = pre ++ post ∧
        GrantsInFlight registry path s p ((worldMachine registry).run w pre) := by
      intro pc' hw'
      obtain ⟨pre, post, rfl, hgrants⟩ := grantsInFlight_of_returned registry path s p _ pc' es hw'
        (fun e' he' => hes e' (List.mem_cons_of_mem e he')) hal.2 hret
      exact ⟨e :: pre, post, rfl, hgrants⟩
    rcases hes e List.mem_cons_self with ⟨clock, rfl⟩ | ⟨write, rfl⟩
    · rcases untorn_step clock hw with ⟨pc', hw'⟩ | hgrants
      · exact hrec pc' hw'
      · exact ⟨[], _, rfl, hgrants⟩
    · exact hrec pc (untorn_write hw hal.1)

end Step

/-- **A check that returns `true` was granted at some instant of its run**, unless a deny lands between its reads. -/
theorem granted_at_some_instant (registry : RoleRegistry P) (path : CheckPath)
    (store : InMemoryAssignmentStore S P) (cache : TtlPermissionCache) (s : S) (p : P) (es : List (Event S P))
    (hcold : cache.cache.get? (TtlPermissionCache.key s p) = none) (hes : ∀ e ∈ es, e.StepsOrWrites)
    (hdeny : (worldMachine registry).Along (NoDenyBetweenReads s p) ⟨store, cache, [⟨path, s, p, .start⟩]⟩ es)
    (hret : ((worldMachine registry).run ⟨store, cache, [⟨path, s, p, .start⟩]⟩ es).calls =
      [⟨path, s, p, .returned true⟩]) :
    ∃ pre post, es = pre ++ post ∧
      GrantsInFlight registry path s p
        ((worldMachine registry).run ⟨store, cache, [⟨path, s, p, .start⟩]⟩ pre) :=
  grantsInFlight_of_returned registry path s p _ .start es
    ⟨rfl, Or.inl hcold, ⟨nofun, nofun⟩, fun h => by rcases h with h | h <;> cases h⟩ hes hdeny hret

end

/-- The world of one check about a subject with no rows. -/
def newcomerWorld : World (InMemoryAssignmentStore String TestPerm) String TestPerm :=
  ⟨InMemoryAssignmentStore.new, TtlPermissionCache.new (fromSecs 300), [⟨.flat, "user", .read, .start⟩]⟩

def grantedLater : List (Event String TestPerm) :=
  [.step 0 (clockAt 1), .write (.assignRole "user" "viewer"), .step 0 (clockAt 2), .step 0 (clockAt 3),
    .step 0 (clockAt 4), .step 0 (clockAt 5)]

theorem granted_at_some_instant_viewer :
    ∃ pre post, grantedLater = pre ++ post ∧
      GrantsInFlight testRegistry .flat "user" TestPerm.read ((worldMachine testRegistry).run newcomerWorld pre) := by
  refine granted_at_some_instant testRegistry .flat _ _ "user" .read grantedLater rfl (fun e he => ?_)
    ⟨nofun, ?_, nofun, nofun, nofun, nofun, trivial⟩ rfl
  · simp only [grantedLater, List.mem_cons, List.not_mem_nil, or_false] at he
    rcases he with rfl | rfl | rfl | rfl | rfl | rfl
    all_goals first | exact Or.inl ⟨_, rfl⟩ | exact Or.inr ⟨_, rfl⟩
  · exact fun s' perms h => by cases h

def deniedThenGranted : List (Event String TestPerm) :=
  [.step 0 (clockAt 1), .step 0 (clockAt 2), .write (.setDeniedPermissions "user" {.read}),
    .write (.setExtraPermissions "user" {.read}), .step 0 (clockAt 3), .step 0 (clockAt 4)]

/-- The permission is ungranted at first and denied before it is granted, and the check returns `true`. -/
theorem torn_grant :
    (((worldMachine testRegistry).run newcomerWorld deniedThenGranted).calls.map Call.pc) = [.returned true] ∧
      ∀ n ≤ deniedThenGranted.length,
        ¬ (rowsOf ((worldMachine testRegistry).run newcomerWorld (deniedThenGranted.take n)).store "user").Grants
          testRegistry .flat TestPerm.read := by
  decide

end Rbac
end Kirino
