import Kirino.Invitations.Store
/-!
# Lifetime — the expiry of a new invitation (`invitation/store.rs`)

A lifetime is a number of seconds of 64 bits, cast to a signed one and added to the clock.  The cast makes the upper half of
the numbers negative, and the dates end long before the lower half does: `create_lasts_iff` is where neither happens.
-/
namespace Kirino
namespace Invitations

open Lib (asI64 earliestInstant latestInstant maxDurationSecs nanosPerSec)

/-- The expiry of a lifetime, when neither the duration nor the date panics. -/
theorem expiryOf_eq_some_iff {now expiresAt : Int} {ttlSecs : UInt64} :
    expiryOf now ttlSecs = some expiresAt ↔
      -maxDurationSecs ≤ asI64 ttlSecs.toNat ∧ asI64 ttlSecs.toNat ≤ maxDurationSecs ∧ earliestInstant ≤ expiresAt ∧
        expiresAt ≤ latestInstant ∧ expiresAt = now + asI64 ttlSecs.toNat * nanosPerSec := by
  unfold expiryOf
  dsimp only
  constructor
  · intro h
    split at h
    · next hrange =>
      obtain rfl := Option.some.inj h
      exact ⟨hrange.1, hrange.2.1, hrange.2.2.1, hrange.2.2.2, rfl⟩
    · cases h
  · rintro ⟨hlow, hhigh, hearly, hlate, rfl⟩
    rw [if_pos ⟨hlow, hhigh, hearly, hlate⟩]

/-- **An invitation lasts exactly when its lifetime ends within the dates.** -/
theorem expiryOf_lasting_iff {now : Int} (hclock : earliestInstant ≤ now) {ttlSecs : UInt64} :
    (∃ expiresAt, expiryOf now ttlSecs = some expiresAt ∧ now ≤ expiresAt) ↔
      now + ttlSecs.toNat * nanosPerSec ≤ latestInstant := by
  have hsigned : asI64 ttlSecs.toNat = ttlSecs.toNat ∨ asI64 ttlSecs.toNat < 0 := by
    have hlt := ttlSecs.toNat_lt
    unfold asI64
    split
    · exact Or.inl rfl
    · exact Or.inr (by omega)
  unfold earliestInstant at hclock
  constructor
  · rintro ⟨expiresAt, hexpiry, hlasting⟩
    obtain ⟨-, -, -, hlate, rfl⟩ := expiryOf_eq_some_iff.1 hexpiry
    rcases hsigned with hcast | hnegative
    · rw [hcast] at hlate
      exact hlate
    · unfold nanosPerSec at hlasting
      omega
  · intro hlate
    unfold latestInstant nanosPerSec at hlate
    have hcast : asI64 ttlSecs.toNat = ttlSecs.toNat := Lib.asI64_of_lt (by omega)
    refine ⟨now + ttlSecs.toNat * nanosPerSec, expiryOf_eq_some_iff.2 ?_, ?_⟩
    · unfold maxDurationSecs earliestInstant latestInstant nanosPerSec
      rw [hcast]
      omega
    · unfold nanosPerSec
      omega

/-- The expiry of a lifetime that lasts. -/
theorem expiryOf_of_le {now : Int} (hclock : earliestInstant ≤ now) {ttlSecs : UInt64}
    (h : now + ttlSecs.toNat * nanosPerSec ≤ latestInstant) :
    expiryOf now ttlSecs = some (now + ttlSecs.toNat * nanosPerSec) := by
  obtain ⟨expiresAt, hexpiry, hlasting⟩ := (expiryOf_lasting_iff hclock).2 h
  obtain ⟨-, -, -, -, rfl⟩ := expiryOf_eq_some_iff.1 hexpiry
  have hcast : asI64 ttlSecs.toNat = ttlSecs.toNat := by
    have hlt := ttlSecs.toNat_lt
    unfold nanosPerSec at hlasting
    unfold asI64 at hlasting ⊢
    split at hlasting
    · next hsmall => rw [if_pos hsmall]
    · omega
  rw [hexpiry, hcast]

section
variable {U : Type} [DecidableEq U]

/-- The lifetime that a new invitation is given. -/
def CreateInvitationParams.lifetime (params : CreateInvitationParams U) : UInt64 := params.ttlSecs.getD defaultTtlSecs

/-- The call stores an invitation that does not expire before it is created, nor before one with a shorter lifetime. -/
structure Lasts (store : InMemoryInvitationStore U) (id : U) (token : String) (invitedBy : U)
    (params : CreateInvitationParams U) (now : Int) (inv : Invitation U) : Prop where
  answered : (store.create id token invitedBy params now).2 = .ok inv
  stored : (store.create id token invitedBy params now).1.inner.get? id = some inv
  lasting : inv.createdAt = now ∧ now ≤ inv.expiresAt
  mono : ∀ shorter : CreateInvitationParams U, shorter.lifetime ≤ params.lifetime →
    ∃ inv', (store.create id token invitedBy shorter now).2 = .ok inv' ∧ inv'.expiresAt ≤ inv.expiresAt

theorem create_of_expiryOf (store : InMemoryInvitationStore U) (id : U) (token : String) (invitedBy : U)
    {params : CreateInvitationParams U} {now expiresAt : Int} (h : expiryOf now params.lifetime = some expiresAt) :
    (store.create id token invitedBy params now).2 = .ok (newInvitation id token invitedBy params now expiresAt) ∧
      (store.create id token invitedBy params now).1.inner.get? id =
        some (newInvitation id token invitedBy params now expiresAt) := by
  unfold CreateInvitationParams.lifetime at h
  unfold InMemoryInvitationStore.create
  rw [h]
  exact ⟨rfl, Lib.HashMap.get?_insert_self _ _ _⟩

/-- **A new invitation lasts exactly when the clock and its lifetime add up to a date**: otherwise the call panics, or what
it stores has expired before it was created. -/
theorem create_lasts_iff (store : InMemoryInvitationStore U) (id : U) (token : String) (invitedBy : U)
    (params : CreateInvitationParams U) {now : Int} (hclock : earliestInstant ≤ now) :
    (∃ inv, Lasts store id token invitedBy params now inv) ↔
      now + params.lifetime.toNat * nanosPerSec ≤ latestInstant := by
  constructor
  · rintro ⟨inv, hanswered, -, hlasting, -⟩
    refine (expiryOf_lasting_iff hclock).1 ?_
    unfold InMemoryInvitationStore.create at hanswered
    unfold CreateInvitationParams.lifetime
    cases hexpiry : expiryOf now (params.ttlSecs.getD defaultTtlSecs) with
    | none =>
      rw [hexpiry] at hanswered
      cases hanswered
    | some expiresAt =>
      rw [hexpiry] at hanswered
      cases hanswered
      exact ⟨expiresAt, rfl, hlasting.2⟩
  · intro hlate
    obtain ⟨hanswered, hstored⟩ := create_of_expiryOf store id token invitedBy (expiryOf_of_le hclock hlate)
    refine ⟨_, hanswered, hstored, ⟨rfl, ?_⟩, fun shorter hshorter => ?_⟩
    · show now ≤ now + params.lifetime.toNat * nanosPerSec
      unfold nanosPerSec
      omega
    · have hle := UInt64.le_iff_toNat_le.1 hshorter
      have hsum : now + shorter.lifetime.toNat * nanosPerSec ≤ now + params.lifetime.toNat * nanosPerSec := by
        unfold nanosPerSec
        omega
      have hshort := create_of_expiryOf store id token invitedBy (expiryOf_of_le hclock (Int.le_trans hsum hlate))
      exact ⟨_, hshort.1, hsum⟩

/-- Seven days from the epoch. -/
theorem create_lasts_default : ∃ inv, Lasts (.new : InMemoryInvitationStore Nat) 1 "t" 7
    ⟨5, .direct, none, none, none, none, none, none⟩ 0 inv :=
  (create_lasts_iff .new 1 "t" 7 ⟨5, .direct, none, none, none, none, none, none⟩ (by decide)).2 (by decide)

/-- The longest lifetime there is ends a second before it begins, and one of ten thousand billion seconds panics. -/
theorem create_not_lasting :
    ((InMemoryInvitationStore.new : InMemoryInvitationStore Nat).create 1 "t" 7
        ⟨5, .direct, none, none, none, none, some 18446744073709551615, none⟩ 0).2 =
      .ok (newInvitation 1 "t" 7 ⟨5, .direct, none, none, none, none, some 18446744073709551615, none⟩ 0 (-10 ^ 9)) ∧
    ((InMemoryInvitationStore.new : InMemoryInvitationStore Nat).create 1 "t" 7
        ⟨5, .direct, none, none, none, none, some 10000000000000, none⟩ 0).2 = .error .panicked := by
  refine ⟨?_, ?_⟩
  · rfl
  · rfl

end
end Invitations
end Kirino
