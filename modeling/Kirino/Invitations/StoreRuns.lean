import Kirino.Invitations.Store
/-!
# StoreRuns — the uses and the end of an invitation, over runs

A call either redeems an invitation or keeps its uses, its limit and its expiry, and never revives it (`step_cases`).  From
this the uses are counted, and what has ended stays ended; the two ways in which the store breaks its limits are stated as
conditions on the state before a call.
-/
namespace Kirino
namespace Invitations

open Lib (HashMap Machine numSeconds)

/-! ## What a call does to one invitation -/

section Single
variable {U : Type}

/-- The invitation can be accepted, from the address and at the instant. -/
def Invitation.Acceptable (inv : Invitation U) (clientIp : Option String) (now : Int) : Prop :=
  inv.isLive = true ∧ now ≤ inv.expiresAt ∧
    (inv.mode = .direct → inv.windowPassed now = false ∧ inv.ipDiffers clientIp = false)

/-- A call that is no redemption: the uses, the limit and the expiry stay, and nothing is revived. -/
structure Keeps (inv inv' : Invitation U) : Prop where
  useCount : inv'.useCount = inv.useCount
  maxUses : inv'.maxUses = inv.maxUses
  expiresAt : inv'.expiresAt = inv.expiresAt
  live : inv'.isLive = true → inv.isLive = true

/-- A redemption of a live invitation: one use more, and it stays live only below its limit. -/
structure Redeemed (now : Int) (inv inv' : Invitation U) : Prop where
  wasLive : inv.isLive = true
  inTime : now ≤ inv.expiresAt
  useCount : inv'.useCount.toNat = inv.useCount.toNat + 1
  maxUses : inv'.maxUses = inv.maxUses
  expiresAt : inv'.expiresAt = inv.expiresAt
  live : inv'.isLive = true → inv'.useCount < inv.maxUses

theorem keeps_refl (inv : Invitation U) : Keeps inv inv := ⟨rfl, rfl, rfl, id⟩

theorem keeps_status {inv : Invitation U} {status : InvitationStatus} (h : status ≠ .pending ∧ status ≠ .opened) :
    Keeps inv { inv with status := status } := by
  refine ⟨rfl, rfl, rfl, fun hlive => ?_⟩
  unfold Invitation.isLive at hlive
  dsimp only at hlive
  rw [Bool.or_eq_true, decide_eq_true_iff, decide_eq_true_iff] at hlive
  rcases hlive with hlive | hlive
  · exact absurd hlive h.1
  · exact absurd hlive h.2

theorem isLive_iff {inv : Invitation U} : inv.isLive = true ↔ inv.status = .pending ∨ inv.status = .opened := by
  unfold Invitation.isLive
  rw [Bool.or_eq_true, decide_eq_true_iff, decide_eq_true_iff]

theorem keeps_openWindow {inv : Invitation U} (hlive : inv.isLive = true) (clientIp clientUa : Option String) (token : String)
    (now : Int) : Keeps inv (inv.openWindow clientIp clientUa token now).1 := by
  have hmark : Keeps inv (inv.markOpened clientIp clientUa now) := by
    unfold Invitation.markOpened
    cases inv.openedAt with
    | some t => exact keeps_refl inv
    | none => exact ⟨rfl, rfl, rfl, fun _ => hlive⟩
  unfold Invitation.openWindow
  dsimp only
  by_cases hpast : windowSecs - numSeconds (now - inv.openedAt.getD now) ≤ 0
  · rw [if_pos hpast]
    exact ⟨hmark.useCount, hmark.maxUses, hmark.expiresAt, fun _ => hlive⟩
  · rw [if_neg hpast]
    exact hmark

/-- What an open does: past the expiry of a direct invitation it writes the status, whatever it was. -/
theorem open_spec (inv : Invitation U) (clientIp clientUa : Option String) (token : String) (now : Int) :
    Keeps inv (inv.open clientIp clientUa token now).1 ∧
      (inv.mode = .direct → inv.expiresAt < now → (inv.open clientIp clientUa token now).1.status = .expired) ∧
        (inv.isLive = false → ¬ (inv.mode = .direct ∧ inv.expiresAt < now) →
          (inv.open clientIp clientUa token now).1 = inv) := by
  unfold Invitation.open
  by_cases hmode : inv.mode = .direct
  · rw [if_neg (not_not_intro hmode)]
    by_cases hpast : now > inv.expiresAt
    · rw [if_pos hpast]
      exact ⟨keeps_status ⟨nofun, nofun⟩, fun _ _ => rfl, fun _ h => absurd ⟨hmode, hpast⟩ h⟩
    · rw [if_neg hpast]
      by_cases hended : inv.status ≠ .pending ∧ inv.status ≠ .opened
      · rw [if_pos hended]
        exact ⟨keeps_refl inv, fun _ h => absurd h hpast, fun _ _ => rfl⟩
      · rw [if_neg hended]
        rw [not_and_or, not_not, not_not] at hended
        have hlive := isLive_iff.2 hended
        refine ⟨keeps_openWindow hlive clientIp clientUa token now, fun _ h => absurd h hpast, fun h _ => ?_⟩
        rw [hlive] at h
        cases h
  · rw [if_pos hmode]
    exact ⟨keeps_refl inv, fun h _ => absurd h hmode, fun _ _ => rfl⟩

theorem redeem_spec {inv : Invitation U} (acceptedBy : U) {now : Int} (hlive : inv.isLive = true)
    (htime : now ≤ inv.expiresAt) :
    ((inv.redeem acceptedBy now).2.isOk = true ∧ Redeemed now inv (inv.redeem acceptedBy now).1) ∨
      ((inv.redeem acceptedBy now).2.isOk = false ∧ (inv.redeem acceptedBy now).1 = inv ∧ inv.useCount.toNat + 1 = 2 ^ 16) := by
  unfold Invitation.redeem
  by_cases hfits : inv.useCount.toNat + 1 < 2 ^ 16
  · rw [if_pos hfits]
    refine Or.inl ⟨rfl, hlive, htime, Nat.mod_eq_of_lt hfits, rfl, rfl, fun hafter => ?_⟩
    by_cases hfull : inv.useCount + 1 ≥ inv.maxUses
    · rw [isLive_iff] at hafter
      dsimp only at hafter
      rw [if_pos hfull] at hafter
      rcases hafter with hafter | hafter <;> cases hafter
    · exact UInt16.not_le.1 hfull
  · rw [if_neg hfits]
    have := inv.useCount.toNat_lt
    exact Or.inr ⟨rfl, rfl, by omega⟩

/-- The tests of an acceptance of a live invitation, in their order. -/
theorem accept_of_live {inv : Invitation U} (hlive : inv.isLive = true) (clientIp : Option String) (acceptedBy : U)
    (now : Int) : inv.accept clientIp acceptedBy now =
      if now > inv.expiresAt then ({ inv with status := .expired }, .error (.error .expired))
      else if inv.mode = .direct ∧ inv.windowPassed now then
        ({ inv with status := .expired }, .error (.error (.openWindowExpired 0)))
      else if inv.mode = .direct ∧ inv.ipDiffers clientIp then (inv, .error (.error .ipMismatch))
      else inv.redeem acceptedBy now := by
  unfold Invitation.accept
  rcases isLive_iff.1 hlive with hstatus | hstatus <;> rw [hstatus]

theorem accept_of_not_live {inv : Invitation U} (hlive : ¬ inv.isLive = true) (clientIp : Option String) (acceptedBy : U)
    (now : Int) : ∃ e, inv.accept clientIp acceptedBy now = (inv, .error (.error e)) := by
  rw [isLive_iff, not_or] at hlive
  unfold Invitation.accept
  split
  · exact ⟨_, rfl⟩
  · exact ⟨_, rfl⟩
  · exact ⟨_, rfl⟩
  · exact ⟨_, rfl⟩
  · exact absurd ‹_› hlive.1
  · exact absurd ‹_› hlive.2

/-- What an accept does: a redemption, or nothing but the status of a live invitation. -/
theorem accept_spec (inv : Invitation U) (clientIp : Option String) (acceptedBy : U) (now : Int) :
    ((inv.accept clientIp acceptedBy now).2.isOk = true ∧ inv.Acceptable clientIp now ∧
        Redeemed now inv (inv.accept clientIp acceptedBy now).1) ∨
      ((inv.accept clientIp acceptedBy now).2.isOk = false ∧ Keeps inv (inv.accept clientIp acceptedBy now).1 ∧
        (inv.isLive = false → (inv.accept clientIp acceptedBy now).1 = inv) ∧
          (inv.Acceptable clientIp now → inv.useCount.toNat + 1 = 2 ^ 16)) := by
  by_cases hlive : inv.isLive = true
  · have hopen := accept_of_live hlive clientIp acceptedBy now
    have hnever : inv.isLive = false → (inv.accept clientIp acceptedBy now).1 = inv := by
      intro h
      rw [hlive] at h
      cases h
    rw [hopen] at hnever ⊢
    by_cases hpast : now > inv.expiresAt
    · rw [if_pos hpast] at hnever ⊢
      exact Or.inr ⟨rfl, keeps_status ⟨nofun, nofun⟩, hnever, fun h => absurd h.2.1 (Int.not_le.2 hpast)⟩
    · rw [if_neg hpast] at hnever ⊢
      by_cases hwindow : inv.mode = .direct ∧ inv.windowPassed now
      · rw [if_pos hwindow] at hnever ⊢
        refine Or.inr ⟨rfl, keeps_status ⟨nofun, nofun⟩, hnever, fun h => ?_⟩
        exact nomatch (h.2.2 hwindow.1).1.symm.trans hwindow.2
      · rw [if_neg hwindow] at hnever ⊢
        by_cases hip : inv.mode = .direct ∧ inv.ipDiffers clientIp
        · rw [if_pos hip] at hnever ⊢
          refine Or.inr ⟨rfl, keeps_refl inv, hnever, fun h => ?_⟩
          exact nomatch (h.2.2 hip.1).2.symm.trans hip.2
        · rw [if_neg hip] at hnever ⊢
          have hacceptable : inv.Acceptable clientIp now := by
            refine ⟨hlive, Int.not_lt.1 hpast, fun hmode => ⟨?_, ?_⟩⟩
            · exact Bool.eq_false_iff.2 (fun h => hwindow ⟨hmode, h⟩)
            · exact Bool.eq_false_iff.2 (fun h => hip ⟨hmode, h⟩)
          rcases redeem_spec acceptedBy hlive hacceptable.2.1 with ⟨hok, hredeemed⟩ | ⟨herror, hsame, hfull⟩
          · exact Or.inl ⟨hok, hacceptable, hredeemed⟩
          · refine Or.inr ⟨herror, ?_, hnever, fun _ => hfull⟩
            rw [hsame]
            exact keeps_refl inv
  · obtain ⟨e, hsame⟩ := accept_of_not_live hlive clientIp acceptedBy now
    rw [hsame]
    exact Or.inr ⟨rfl, keeps_refl inv, fun _ => rfl, fun h => absurd h.1 hlive⟩

theorem revoke_spec (inv : Invitation U) : Keeps inv inv.revoke ∧ inv.revoke.status = .revoked := by
  unfold Invitation.revoke
  by_cases hrevoked : inv.status ≠ .revoked
  · rw [if_pos hrevoked]
    exact ⟨keeps_status ⟨nofun, nofun⟩, rfl⟩
  · rw [if_neg hrevoked]
    exact ⟨keeps_refl inv, not_not.1 hrevoked⟩

theorem expireStale_spec (inv : Invitation U) (now : Int) :
    Keeps inv (inv.expireStale now) ∧ (inv.isLive = false → inv.expireStale now = inv) := by
  unfold Invitation.expireStale
  by_cases hstale : inv.isStale now = true
  · rw [if_pos hstale]
    refine ⟨keeps_status ⟨nofun, nofun⟩, fun hended => ?_⟩
    unfold Invitation.isStale at hstale
    rw [hended] at hstale
    cases hstale
  · rw [if_neg hstale]
    exact ⟨keeps_refl inv, fun _ => rfl⟩

theorem accept_ne_panicked {inv : Invitation U} (h : inv.isLive = true → inv.useCount.toNat + 1 < 2 ^ 16)
    (clientIp : Option String) (acceptedBy : U) (now : Int) :
    (inv.accept clientIp acceptedBy now).2 ≠ .error .panicked := by
  by_cases hlive : inv.isLive = true
  · have hredeem : (inv.redeem acceptedBy now).2 ≠ .error .panicked := by
      unfold Invitation.redeem
      rw [if_pos (h hlive)]
      exact nofun
    rw [accept_of_live hlive]
    split
    · exact nofun
    · split
      · exact nofun
      · split
        · exact nofun
        · exact hredeem
  · obtain ⟨e, hsame⟩ := accept_of_not_live hlive clientIp acceptedBy now
    rw [hsame]
    exact nofun

end Single

/-! ## Calls and runs -/

/-- A call, with the ids that it draws. -/
inductive InvitationCall (U : Type) where
  | create (id : U) (token : String) (invitedBy : U) (params : CreateInvitationParams U)
  | «open» (token : String) (clientIp clientUa : Option String)
  | accept (acceptedBy : U) (token : String) (clientIp : Option String)
  | revoke (token : String)
  | expireStale

structure InvitationEvent (U : Type) where
  now : Int
  call : InvitationCall U

inductive InvitationAnswer (U : Type) where
  | created (result : Except Failure (Invitation U))
  | opened (result : Except Failure (OpenInvitationResult U))
  | accepted (result : Except Failure (U × String))
  | revoked (result : Except Failure Unit)
  | swept (result : Except Failure Nat)

section Runs
variable {U : Type} [DecidableEq U]

/-- The call on the store. -/
def callStore (store : InMemoryInvitationStore U) (event : InvitationEvent U) :
    InMemoryInvitationStore U × InvitationAnswer U :=
  match event.call with
  | .create id token invitedBy params =>
    ((store.create id token invitedBy params event.now).1, .created (store.create id token invitedBy params event.now).2)
  | .open token clientIp clientUa =>
    ((store.open token clientIp clientUa event.now).1, .opened (store.open token clientIp clientUa event.now).2)
  | .accept acceptedBy token clientIp =>
    ((store.accept token clientIp acceptedBy event.now).1, .accepted (store.accept token clientIp acceptedBy event.now).2)
  | .revoke token => ((store.revoke token).1, .revoked (store.revoke token).2)
  | .expireStale => ((store.expireStale event.now).1, .swept (store.expireStale event.now).2)

def invitationMachine (U : Type) [DecidableEq U] :
    Machine (InMemoryInvitationStore U) (InvitationEvent U) (InvitationAnswer U) where
  step store event := (callStore store event).1
  out store event := (callStore store event).2

/-- The store after the first events of a run from the empty store. -/
def storeAt (es : List (InvitationEvent U)) (n : Nat) : InMemoryInvitationStore U :=
  (invitationMachine U).run .new (es.take n)

/-- The call makes a new invitation of the id. -/
def creates (event : InvitationEvent U) (id : U) : Bool :=
  match event.call with
  | .create id' _ _ params => decide (id' = id) && (expiryOf event.now (params.ttlSecs.getD defaultTtlSecs)).isSome
  | _ => false

/-- The call is an accept of the invitation with the id, and succeeds. -/
def redeems (store : InMemoryInvitationStore U) (event : InvitationEvent U) (id : U) : Bool :=
  match event.call with
  | .accept acceptedBy token clientIp =>
    decide (store.tokenIndex.get? token = some id) && (store.accept token clientIp acceptedBy event.now).2.isOk
  | _ => false

/-- The successful accepts of the invitation with the id since its creation, `n` of them before the events. -/
def redemptionsFrom (id : U) : InMemoryInvitationStore U → Nat → List (InvitationEvent U) → Nat
  | _, n, [] => n
  | store, n, e :: es =>
    redemptionsFrom id ((invitationMachine U).step store e)
      (if creates e id then 0 else if redeems store e id then n + 1 else n) es

/-- The successful accepts of the invitation with the id since its creation, over a run from the empty store. -/
def redemptions (id : U) (es : List (InvitationEvent U)) : Nat := redemptionsFrom id .new 0 es

/-! ## The properties -/

/-- The uses are counted, and within the limit, at every moment of the run. -/
def UsesLimited (es : List (InvitationEvent U)) : Prop :=
  ∀ n id inv, (storeAt es n).inner.get? id = some inv →
    redemptions id (es.take n) = inv.useCount.toNat ∧ redemptions id (es.take n) ≤ inv.maxUses.toNat

/-- No accept is made of an acceptable invitation without uses. -/
def SparesUseless (store : InMemoryInvitationStore U) (event : InvitationEvent U) : Prop :=
  match event.call with
  | .accept _ token clientIp =>
    ∀ inv, store.findByToken token = some inv → inv.maxUses = 0 → ¬ inv.Acceptable clientIp event.now
  | _ => True

/-- The call is an open, an accept or a sweep. -/
def InvitationCall.keepsEnds : InvitationCall U → Prop
  | .open _ _ _ | .accept _ _ _ | .expireStale => True
  | .create _ _ _ _ | .revoke _ => False

/-- What has ended stays as it ended, and is not accepted any more. -/
structure EndsAbsorb (es : List (InvitationEvent U)) : Prop where
  absorbed : ∀ j e id inv, es[j]? = some e → e.call.keepsEnds → (storeAt es j).inner.get? id = some inv →
    inv.isLive = false → ∃ inv', (storeAt es (j + 1)).inner.get? id = some inv' ∧ inv'.status = inv.status
  afterRevoke : ∀ i j e f token id inv, i < j → es[i]? = some e → es[j]? = some f → e.call = .revoke token →
    (storeAt es i).tokenIndex.get? token = some id → (storeAt es i).inner.get? id = some inv →
      (∀ k g, i < k → k < j → es[k]? = some g → creates g id = false) → redeems (storeAt es j) f id = false
  afterExpiry : ∀ i j f id inv, i ≤ j → es[j]? = some f → (storeAt es i).inner.get? id = some inv → inv.expiresAt < f.now →
    (∀ k g, i ≤ k → k < j → es[k]? = some g → creates g id = false) → redeems (storeAt es j) f id = false

/-- No direct invitation that was accepted, revoked or exhausted is opened after its expiry. -/
def SparesEnded (store : InMemoryInvitationStore U) (event : InvitationEvent U) : Prop :=
  match event.call with
  | .open token _ _ =>
    ∀ inv, store.findByToken token = some inv → inv.mode = .direct → inv.expiresAt < event.now →
      inv.isLive = true ∨ inv.status = .expired
  | _ => True

/-! ## What a call does to the store -/

/-- What the call makes of the invitation with the id, when the store has one. -/
def change (store : InMemoryInvitationStore U) (event : InvitationEvent U) (id : U) (inv : Invitation U) : Invitation U :=
  match event.call with
  | .create _ _ _ _ => inv
  | .open token clientIp clientUa =>
    if store.tokenIndex.get? token = some id then (inv.open clientIp clientUa token event.now).1 else inv
  | .accept acceptedBy token clientIp =>
    if store.tokenIndex.get? token = some id then (inv.accept clientIp acceptedBy event.now).1 else inv
  | .revoke token => if store.tokenIndex.get? token = some id then inv.revoke else inv
  | .expireStale => inv.expireStale event.now

theorem get?_withToken {α : Type} (store : InMemoryInvitationStore U) (token : String)
    (call : Invitation U → Invitation U × Except Failure α) (id : U) :
    (store.withToken token call).1.inner.get? id =
      (store.inner.get? id).map (fun inv => if store.tokenIndex.get? token = some id then (call inv).1 else inv) := by
  unfold InMemoryInvitationStore.withToken
  cases htoken : store.tokenIndex.get? token with
  | none => simp
  | some found =>
    by_cases hid : found = id
    · subst hid
      cases hget : store.inner.get? found with
      | none => simp [hget]
      | some inv =>
        simp only [hget, Option.map_some, if_pos]
        exact (HashMap.get?_insert _ _ _ _).trans (if_pos rfl)
    · have hne : ¬ some found = some id := fun h => hid (Option.some.inj h)
      simp only [if_neg hne, Option.map_id']
      cases store.inner.get? found with
      | none => rfl
      | some inv => exact HashMap.get?_insert_of_ne _ _ (Ne.symm hid)

theorem isOk_withToken {α : Type} {store : InMemoryInvitationStore U} {token : String} {id : U} {inv : Invitation U}
    (call : Invitation U → Invitation U × Except Failure α) (htoken : store.tokenIndex.get? token = some id)
    (hget : store.inner.get? id = some inv) : (store.withToken token call).2 = (call inv).2 := by
  unfold InMemoryInvitationStore.withToken
  simp only [htoken, hget]

theorem get?_step {store : InMemoryInvitationStore U} {event : InvitationEvent U} {id : U} (hnew : creates event id = false) :
    ((invitationMachine U).step store event).inner.get? id = (store.inner.get? id).map (change store event id) := by
  obtain ⟨now, call⟩ := event
  cases call with
  | create id' token invitedBy params =>
    show (store.create id' token invitedBy params now).1.inner.get? id = (store.inner.get? id).map (fun inv => inv)
    unfold InMemoryInvitationStore.create
    rw [Option.map_id']
    cases hexpiry : expiryOf now (params.ttlSecs.getD defaultTtlSecs) with
    | none => rfl
    | some expiresAt =>
      have hne : id ≠ id' := by
        rintro rfl
        simp [creates, hexpiry] at hnew
      exact HashMap.get?_insert_of_ne _ _ hne
  | «open» token clientIp clientUa => exact get?_withToken store token _ id
  | accept acceptedBy token clientIp => exact get?_withToken store token _ id
  | revoke token => exact get?_withToken store token _ id
  | expireStale => exact HashMap.get?_mapValues _ _ _

theorem get?_step_of_creates (store : InMemoryInvitationStore U) {event : InvitationEvent U} {id : U}
    (hnew : creates event id = true) : ∃ token invitedBy params expiresAt, event.call = .create id token invitedBy params ∧
      ((invitationMachine U).step store event).inner.get? id =
        some (newInvitation id token invitedBy params event.now expiresAt) := by
  obtain ⟨now, call⟩ := event
  cases call with
  | create id' token invitedBy params =>
    simp only [creates, Bool.and_eq_true, decide_eq_true_eq, Option.isSome_iff_exists] at hnew
    obtain ⟨rfl, expiresAt, hexpiry⟩ := hnew
    refine ⟨token, invitedBy, params, expiresAt, rfl, ?_⟩
    show (store.create id' token invitedBy params now).1.inner.get? id' = _
    unfold InMemoryInvitationStore.create
    rw [hexpiry]
    exact (HashMap.get?_insert _ _ _ _).trans (if_pos rfl)
  | «open» token clientIp clientUa => cases hnew
  | accept acceptedBy token clientIp => cases hnew
  | revoke token => cases hnew
  | expireStale => cases hnew

/-- **A call redeems an invitation, or keeps its terms** and does not revive it. -/
theorem step_cases {store : InMemoryInvitationStore U} {event : InvitationEvent U} {id : U} {inv : Invitation U}
    (hget : store.inner.get? id = some inv) (hnew : creates event id = false) :
    ((invitationMachine U).step store event).inner.get? id = some (change store event id inv) ∧
      ((redeems store event id = true ∧ Redeemed event.now inv (change store event id inv)) ∨
        (redeems store event id = false ∧ Keeps inv (change store event id inv))) := by
  refine ⟨by rw [get?_step hnew, hget]; rfl, ?_⟩
  obtain ⟨now, call⟩ := event
  unfold change redeems
  cases call with
  | create id' token invitedBy params => exact Or.inr ⟨rfl, keeps_refl inv⟩
  | «open» token clientIp clientUa =>
    refine Or.inr ⟨rfl, ?_⟩
    dsimp only
    split
    · exact (open_spec inv clientIp clientUa token now).1
    · exact keeps_refl inv
  | accept acceptedBy token clientIp =>
    dsimp only
    by_cases htoken : store.tokenIndex.get? token = some id
    · have hanswer := isOk_withToken (fun inv => inv.accept clientIp acceptedBy now) htoken hget
      unfold InMemoryInvitationStore.accept
      rw [if_pos htoken, hanswer, decide_eq_true htoken, Bool.true_and]
      rcases accept_spec inv clientIp acceptedBy now with ⟨hok, -, hredeemed⟩ | ⟨herror, hkeeps, -, -⟩
      · exact Or.inl ⟨hok, hredeemed⟩
      · exact Or.inr ⟨herror, hkeeps⟩
    · rw [if_neg htoken, decide_eq_false htoken]
      exact Or.inr ⟨rfl, keeps_refl inv⟩
  | revoke token =>
    refine Or.inr ⟨rfl, ?_⟩
    dsimp only
    split
    · exact (revoke_spec inv).1
    · exact keeps_refl inv
  | expireStale => exact Or.inr ⟨rfl, (expireStale_spec inv now).1⟩

/-- What the token leads to. -/
theorem findByToken_eq_some_iff {store : InMemoryInvitationStore U} {token : String} {inv : Invitation U} :
    store.findByToken token = some inv ↔ ∃ id, store.tokenIndex.get? token = some id ∧ store.inner.get? id = some inv := by
  unfold InMemoryInvitationStore.findByToken
  rw [Option.bind_eq_some_iff]

/-- What an accept redeems can be accepted. -/
theorem acceptable_of_redeems {store : InMemoryInvitationStore U} {event : InvitationEvent U} {id : U} {inv : Invitation U}
    (hget : store.inner.get? id = some inv) (h : redeems store event id = true) :
    ∃ acceptedBy token clientIp, event.call = .accept acceptedBy token clientIp ∧ store.findByToken token = some inv ∧
      inv.Acceptable clientIp event.now := by
  obtain ⟨now, call⟩ := event
  cases call with
  | accept acceptedBy token clientIp =>
    unfold redeems at h
    simp only [Bool.and_eq_true, decide_eq_true_eq] at h
    obtain ⟨htoken, hok⟩ := h
    have hanswer := isOk_withToken (fun inv => inv.accept clientIp acceptedBy now) htoken hget
    unfold InMemoryInvitationStore.accept at hok
    rw [hanswer] at hok
    refine ⟨acceptedBy, token, clientIp, rfl, findByToken_eq_some_iff.2 ⟨id, htoken, hget⟩, ?_⟩
    rcases accept_spec inv clientIp acceptedBy now with ⟨-, hacceptable, -⟩ | ⟨herror, -⟩
    · exact hacceptable
    · cases hok.symm.trans herror
  | create _ _ _ _ => cases h
  | «open» _ _ _ => cases h
  | revoke _ => cases h
  | expireStale => cases h

theorem storeAt_succ {es : List (InvitationEvent U)} {j : Nat} {e : InvitationEvent U} (he : es[j]? = some e) :
    storeAt es (j + 1) = (invitationMachine U).step (storeAt es j) e := Machine.run_take_succ _ _ he

/-! ## The uses -/

/-- The number of uses is what was counted, within the limit or a single one; a live invitation has some left. -/
structure Counted (inv : Invitation U) (n : Nat) : Prop where
  count : inv.useCount.toNat = n
  within : n ≤ max 1 inv.maxUses.toNat
  live : inv.isLive = true → n < max 1 inv.maxUses.toNat

theorem redemptionsFrom_append (id : U) : ∀ (es : List (InvitationEvent U)) (store : InMemoryInvitationStore U) (n : Nat)
    (e : InvitationEvent U), redemptionsFrom id store n (es ++ [e]) =
      if creates e id then 0
      else if redeems ((invitationMachine U).run store es) e id then redemptionsFrom id store n es + 1
      else redemptionsFrom id store n es
  | [], _, _, _ => rfl
  | f :: es, store, _, e => redemptionsFrom_append id es ((invitationMachine U).step store f) _ e

theorem counted_step {store : InMemoryInvitationStore U} (event : InvitationEvent U) {id : U} {n : Nat}
    (h : ∀ inv, store.inner.get? id = some inv → Counted inv n) :
    ∀ inv', ((invitationMachine U).step store event).inner.get? id = some inv' →
      Counted inv' (if creates event id then 0 else if redeems store event id then n + 1 else n) := by
  intro inv' hget'
  cases hnew : creates event id with
  | true =>
    obtain ⟨token, invitedBy, params, expiresAt, -, hmade⟩ := get?_step_of_creates store hnew
    obtain rfl := Option.some.inj (hmade.symm.trans hget')
    rw [if_pos rfl]
    exact ⟨rfl, Nat.zero_le _, fun _ => by omega⟩
  | false =>
    rw [if_neg (Bool.false_ne_true)]
    cases hget : store.inner.get? id with
    | none =>
      rw [get?_step hnew, hget] at hget'
      cases hget'
    | some inv =>
      obtain ⟨hcount, hwithin, hlive⟩ := h inv hget
      obtain ⟨hafter, hcases⟩ := step_cases hget hnew
      obtain rfl := Option.some.inj (hafter.symm.trans hget')
      rcases hcases with ⟨hredeems, hredeemed⟩ | ⟨hredeems, hkeeps⟩
      · rw [if_pos hredeems]
        have hlt := hlive hredeemed.wasLive
        have hnext : (change store event id inv).useCount.toNat = n + 1 := by rw [hredeemed.useCount, hcount]
        refine ⟨hnext, ?_, fun hstill => ?_⟩
        · rw [hredeemed.maxUses]
          omega
        · have hbelow := UInt16.lt_iff_toNat_lt.1 (hredeemed.live hstill)
          rw [hredeemed.maxUses]
          omega
      · rw [if_neg (Bool.eq_false_iff.1 hredeems)]
        refine ⟨hkeeps.useCount ▸ hcount, hkeeps.maxUses ▸ hwithin, fun hstill => ?_⟩
        rw [hkeeps.maxUses]
        exact hlive (hkeeps.live hstill)

/-- **The uses of an invitation are its successful accepts**, in every reached state. -/
theorem counted_run (es : List (InvitationEvent U)) (id : U) :
    ∀ inv, ((invitationMachine U).run .new es).inner.get? id = some inv → Counted inv (redemptions id es) := by
  refine Machine.run_history (invitationMachine U) (fun _ _ => True)
    (fun es store => ∀ inv, store.inner.get? id = some inv → Counted inv (redemptions id es)) .new ?_ ?_ es
    (Machine.along_of_forall _ _ _ _ (fun _ _ _ => trivial))
  · intro inv hget
    cases hget
  · intro es e ih _
    have hstep := counted_step e ih
    unfold redemptions
    rw [redemptionsFrom_append]
    exact hstep

/-- **No accept panics** over the number of uses, in a reached state. -/
theorem accept_never_panics (es : List (InvitationEvent U)) (token : String) (clientIp : Option String) (acceptedBy : U)
    (now : Int) : (((invitationMachine U).run .new es).accept token clientIp acceptedBy now).2 ≠ .error .panicked := by
  unfold InMemoryInvitationStore.accept
  cases htoken : ((invitationMachine U).run .new es).tokenIndex.get? token with
  | none =>
    unfold InMemoryInvitationStore.withToken
    rw [htoken]
    simp
  | some id =>
    cases hget : ((invitationMachine U).run .new es).inner.get? id with
    | none =>
      unfold InMemoryInvitationStore.withToken
      simp [htoken, hget]
    | some inv =>
      rw [isOk_withToken _ htoken hget]
      obtain ⟨hcount, -, hlive⟩ := counted_run es id inv hget
      refine accept_ne_panicked (fun h => ?_) clientIp acceptedBy now
      have hbelow := hlive h
      have hmax := inv.maxUses.toNat_lt
      omega

/-- Without an accept of an acceptable invitation without uses, one without uses is never used. -/
theorem unused_run {es : List (InvitationEvent U)} (h : (invitationMachine U).Along SparesUseless .new es) (id : U) :
    ∀ inv, ((invitationMachine U).run .new es).inner.get? id = some inv → inv.maxUses = 0 → inv.useCount = 0 := by
  refine Machine.run_invariant (invitationMachine U) SparesUseless
    (fun store => ∀ inv, store.inner.get? id = some inv → inv.maxUses = 0 → inv.useCount = 0) ?_ .new es ?_ h
  · intro store event ih hspares inv' hget' hnone
    cases hnew : creates event id with
    | true =>
      obtain ⟨token, invitedBy, params, expiresAt, -, hmade⟩ := get?_step_of_creates store hnew
      obtain rfl := Option.some.inj (hmade.symm.trans hget')
      rfl
    | false =>
      cases hget : store.inner.get? id with
      | none =>
        rw [get?_step hnew, hget] at hget'
        cases hget'
      | some inv =>
        obtain ⟨hafter, hcases⟩ := step_cases hget hnew
        obtain rfl := Option.some.inj (hafter.symm.trans hget')
        rcases hcases with ⟨hredeems, hredeemed⟩ | ⟨-, hkeeps⟩
        · rw [hredeemed.maxUses] at hnone
          obtain ⟨acceptedBy, token, clientIp, hcall, hfound, hacceptable⟩ := acceptable_of_redeems hget hredeems
          unfold SparesUseless at hspares
          rw [hcall] at hspares
          exact absurd hacceptable (hspares inv hfound hnone)
        · rw [hkeeps.maxUses] at hnone
          rw [hkeeps.useCount]
          exact ih inv hget hnone
  · intro inv hget
    cases hget

/-- **The limit holds exactly when no acceptable invitation without uses is accepted.** -/
theorem usesLimited_iff (es : List (InvitationEvent U)) :
    UsesLimited es ↔ (invitationMachine U).Along SparesUseless .new es := by
  constructor
  · intro h
    refine Machine.along_of_getElem? _ _ _ _ (fun j e he => ?_)
    obtain ⟨now, call⟩ := e
    cases call with
    | accept acceptedBy token clientIp =>
      intro inv hfound hnone hacceptable
      obtain ⟨id, htoken, hget⟩ := findByToken_eq_some_iff.1 hfound
      have hcounted := counted_run (es.take j) id inv hget
      have hzero : inv.maxUses.toNat = 0 := by rw [hnone]; rfl
      have hlt := hcounted.live hacceptable.1
      have hnew : creates (⟨now, .accept acceptedBy token clientIp⟩ : InvitationEvent U) id = false := rfl
      obtain ⟨hafter, hcases⟩ := step_cases hget hnew
      obtain ⟨hsame, hle⟩ := h (j + 1) id _ ((congrArg (fun s => s.inner.get? id) (storeAt_succ he)).trans hafter)
      rcases hcases with ⟨-, hredeemed⟩ | ⟨hnot, -⟩
      · -- the use that was redeemed is over the limit
        rw [hsame, hredeemed.maxUses, hredeemed.useCount, hzero] at hle
        exact absurd hle (Nat.not_succ_le_zero _)
      · have hanswer := isOk_withToken (fun inv => inv.accept clientIp acceptedBy now) htoken hget
        rcases accept_spec inv clientIp acceptedBy now with ⟨hok, -, -⟩ | ⟨-, -, -, hfull⟩
        · unfold redeems InMemoryInvitationStore.accept at hnot
          dsimp only at hnot
          rw [decide_eq_true htoken, hanswer, hok] at hnot
          cases hnot
        · have hused := hfull hacceptable
          rw [hcounted.count] at hused
          omega
    | create _ _ _ _ => trivial
    | «open» _ _ _ => trivial
    | revoke _ => trivial
    | expireStale => trivial
  · intro h n id inv hget
    have hcounted := counted_run (es.take n) id inv hget
    refine ⟨hcounted.count.symm, ?_⟩
    by_cases hnone : inv.maxUses = 0
    · have hsplit : (invitationMachine U).Along SparesUseless .new (es.take n ++ es.drop n) := by
        rwa [List.take_append_drop]
      have hunused := unused_run ((Machine.along_append _ _ _ _ _).1 hsplit).1 id inv hget hnone
      rw [← hcounted.count, hunused]
      exact Nat.zero_le _
    · have hpos : inv.maxUses.toNat ≠ 0 := fun hzero => hnone (UInt16.toNat_inj.1 hzero)
      have := hcounted.within
      omega

/-- The invitation that the call makes has uses. -/
def GivesUses (event : InvitationEvent U) : Prop :=
  match event.call with
  | .create _ _ _ params => params.maxUses ≠ some 0
  | _ => True

theorem hasUses_step {store : InMemoryInvitationStore U} {event : InvitationEvent U} (hgives : GivesUses event)
    (h : ∀ id inv, store.inner.get? id = some inv → inv.maxUses ≠ 0) :
    ∀ id inv, ((invitationMachine U).step store event).inner.get? id = some inv → inv.maxUses ≠ 0 := by
  intro id inv' hget'
  cases hnew : creates event id with
  | true =>
    obtain ⟨token, invitedBy, params, expiresAt, hcall, hmade⟩ := get?_step_of_creates store hnew
    obtain rfl := Option.some.inj (hmade.symm.trans hget')
    unfold GivesUses at hgives
    rw [hcall] at hgives
    show params.maxUses.getD 1 ≠ 0
    cases hmax : params.maxUses with
    | none => exact (by decide : (1 : UInt16) ≠ 0)
    | some uses =>
      rintro rfl
      exact hgives hmax
  | false =>
    cases hget : store.inner.get? id with
    | none =>
      rw [get?_step hnew, hget] at hget'
      cases hget'
    | some inv =>
      obtain ⟨hafter, hcases⟩ := step_cases hget hnew
      obtain rfl := Option.some.inj (hafter.symm.trans hget')
      rcases hcases with ⟨-, hredeemed⟩ | ⟨-, hkeeps⟩
      · rw [hredeemed.maxUses]
        exact h id inv hget
      · rw [hkeeps.maxUses]
        exact h id inv hget

/-- **The limit holds when no invitation is created without uses.** -/
theorem usesLimited_of_givesUses {es : List (InvitationEvent U)} (h : ∀ e ∈ es, GivesUses e) : UsesLimited es := by
  rw [usesLimited_iff]
  refine Machine.along_of_getElem? _ _ _ _ (fun j e _ => ?_)
  have hall := Machine.run_invariant (invitationMachine U) (fun _ e => GivesUses e)
    (fun store => ∀ id inv, store.inner.get? id = some inv → inv.maxUses ≠ 0)
    (fun _ _ hinv hgives => hasUses_step hgives hinv) .new (es.take j) (fun _ _ hget => nomatch hget)
    (Machine.along_of_forall _ _ _ _ (fun _ e he => h e (List.mem_of_mem_take he)))
  obtain ⟨now, call⟩ := e
  cases call with
  | accept acceptedBy token clientIp =>
    intro inv hfound hnone
    obtain ⟨id, -, hget⟩ := findByToken_eq_some_iff.1 hfound
    exact absurd hnone (hall id inv hget)
  | create _ _ _ _ => trivial
  | «open» _ _ _ => trivial
  | revoke _ => trivial
  | expireStale => trivial

/-! ## The ends -/

/-- The invitation has ended, and stays so until the id is made again. -/
theorem ended_between {es : List (InvitationEvent U)} {id : U} {i j : Nat} (hij : i ≤ j)
    (hnew : ∀ k g, i ≤ k → k < j → es[k]? = some g → creates g id = false)
    (h : ∃ inv, (storeAt es i).inner.get? id = some inv ∧ inv.isLive = false) :
    ∃ inv, (storeAt es j).inner.get? id = some inv ∧ inv.isLive = false := by
  refine Machine.run_invariant_between (invitationMachine U)
    (fun store => ∃ inv, store.inner.get? id = some inv ∧ inv.isLive = false) .new es hij h ?_
  rintro k g hik hkj hg ⟨inv, hget, hended⟩
  obtain ⟨hafter, hcases⟩ := step_cases hget (hnew k g hik hkj hg)
  refine ⟨_, hafter, ?_⟩
  rcases hcases with ⟨-, hredeemed⟩ | ⟨-, hkeeps⟩
  · exact nomatch hended.symm.trans hredeemed.wasLive
  · exact Bool.eq_false_iff.2 (fun hlive => nomatch hended.symm.trans (hkeeps.live hlive))

/-- The expiry stays as it is until the id is made again. -/
theorem expiresAt_between {es : List (InvitationEvent U)} {id : U} {i j : Nat} {expiresAt : Int} (hij : i ≤ j)
    (hnew : ∀ k g, i ≤ k → k < j → es[k]? = some g → creates g id = false)
    (h : ∃ inv, (storeAt es i).inner.get? id = some inv ∧ inv.expiresAt = expiresAt) :
    ∃ inv, (storeAt es j).inner.get? id = some inv ∧ inv.expiresAt = expiresAt := by
  refine Machine.run_invariant_between (invitationMachine U)
    (fun store => ∃ inv, store.inner.get? id = some inv ∧ inv.expiresAt = expiresAt) .new es hij h ?_
  rintro k g hik hkj hg ⟨inv, hget, hexpires⟩
  obtain ⟨hafter, hcases⟩ := step_cases hget (hnew k g hik hkj hg)
  refine ⟨_, hafter, ?_⟩
  rcases hcases with ⟨-, hredeemed⟩ | ⟨-, hkeeps⟩
  · exact hredeemed.expiresAt.trans hexpires
  · exact hkeeps.expiresAt.trans hexpires

/-- A call that is to keep an end keeps the status, but for an open past the expiry of a direct invitation. -/
theorem change_of_ended {store : InMemoryInvitationStore U} {event : InvitationEvent U} {id : U} {inv : Invitation U}
    (hget : store.inner.get? id = some inv) (hkeeps : event.call.keepsEnds) (hended : inv.isLive = false)
    (hspares : SparesEnded store event) : (change store event id inv).status = inv.status := by
  obtain ⟨now, call⟩ := event
  unfold change
  cases call with
  | «open» token clientIp clientUa =>
    dsimp only
    by_cases htoken : store.tokenIndex.get? token = some id
    · rw [if_pos htoken]
      obtain ⟨-, hpast, hsame⟩ := open_spec inv clientIp clientUa token now
      by_cases hreopened : inv.mode = .direct ∧ inv.expiresAt < now
      · have hfound := findByToken_eq_some_iff.2 ⟨id, htoken, hget⟩
        rcases hspares inv hfound hreopened.1 hreopened.2 with hlive | hexpired
        · exact nomatch hended.symm.trans hlive
        · rw [hpast hreopened.1 hreopened.2, hexpired]
      · rw [hsame hended hreopened]
    · rw [if_neg htoken]
  | accept acceptedBy token clientIp =>
    dsimp only
    split
    · rcases accept_spec inv clientIp acceptedBy now with ⟨-, -, hredeemed⟩ | ⟨-, -, hsame, -⟩
      · exact nomatch hended.symm.trans hredeemed.wasLive
      · rw [hsame hended]
    · rfl
  | expireStale =>
    dsimp only
    rw [(expireStale_spec inv now).2 hended]
  | create _ _ _ _ => exact hkeeps.elim
  | revoke _ => exact hkeeps.elim

theorem afterRevoke_run {es : List (InvitationEvent U)} {i j : Nat} {e f : InvitationEvent U} {token : String} {id : U}
    {inv : Invitation U} (hij : i < j) (he : es[i]? = some e) (hcall : e.call = .revoke token)
    (htoken : (storeAt es i).tokenIndex.get? token = some id) (hget : (storeAt es i).inner.get? id = some inv)
    (hnew : ∀ k g, i < k → k < j → es[k]? = some g → creates g id = false) : redeems (storeAt es j) f id = false := by
  have hnotnew : creates e id = false := by
    unfold creates
    rw [hcall]
  obtain ⟨hafter, -⟩ := step_cases hget hnotnew
  have hrevoked : (change (storeAt es i) e id inv).isLive = false := by
    unfold change
    rw [hcall]
    dsimp only
    rw [if_pos htoken]
    unfold Invitation.isLive
    rw [(revoke_spec inv).2]
    rfl
  rw [← storeAt_succ he] at hafter
  obtain ⟨inv', hget', hended⟩ := ended_between hij hnew ⟨_, hafter, hrevoked⟩
  refine Bool.eq_false_iff.2 (fun hredeems => ?_)
  obtain ⟨_, _, _, -, -, hacceptable⟩ := acceptable_of_redeems hget' hredeems
  exact nomatch hended.symm.trans hacceptable.1

theorem afterExpiry_run {es : List (InvitationEvent U)} {i j : Nat} {f : InvitationEvent U} {id : U} {inv : Invitation U}
    (hij : i ≤ j) (hget : (storeAt es i).inner.get? id = some inv) (hpast : inv.expiresAt < f.now)
    (hnew : ∀ k g, i ≤ k → k < j → es[k]? = some g → creates g id = false) : redeems (storeAt es j) f id = false := by
  obtain ⟨inv', hget', hexpires⟩ := expiresAt_between hij hnew ⟨inv, hget, rfl⟩
  refine Bool.eq_false_iff.2 (fun hredeems => ?_)
  obtain ⟨_, _, _, -, -, hacceptable⟩ := acceptable_of_redeems hget' hredeems
  have hintime := hacceptable.2.1
  omega

/-- **Ends are absorbing exactly when no ended direct invitation is opened past its expiry.** -/
theorem endsAbsorb_iff (es : List (InvitationEvent U)) :
    EndsAbsorb es ↔ (invitationMachine U).Along SparesEnded .new es := by
  constructor
  · intro h
    refine Machine.along_of_getElem? _ _ _ _ (fun j e he => ?_)
    obtain ⟨now, call⟩ := e
    cases call with
    | «open» token clientIp clientUa =>
      intro inv hfound hmode hpast
      by_contra hended
      rw [not_or, Bool.not_eq_true] at hended
      obtain ⟨id, htoken, hget⟩ := findByToken_eq_some_iff.1 hfound
      have hnew : creates (⟨now, .open token clientIp clientUa⟩ : InvitationEvent U) id = false := rfl
      obtain ⟨hafter, -⟩ := step_cases hget hnew
      obtain ⟨inv', hget', hstatus⟩ := h.absorbed j _ id inv he trivial hget hended.1
      rw [storeAt_succ he] at hget'
      obtain rfl := Option.some.inj (hafter.symm.trans hget')
      unfold change at hstatus
      dsimp only at hstatus
      rw [if_pos htoken, (open_spec inv clientIp clientUa token now).2.1 hmode hpast] at hstatus
      exact hended.2 hstatus.symm
    | create _ _ _ _ => trivial
    | accept _ _ _ => trivial
    | revoke _ => trivial
    | expireStale => trivial
  · intro h
    refine ⟨fun j e id inv he hkeeps hget hended => ?_, ?_, ?_⟩
    · have hnew : creates e id = false := by
        obtain ⟨now, call⟩ := e
        cases call with
        | create _ _ _ _ => exact hkeeps.elim
        | «open» _ _ _ => rfl
        | accept _ _ _ => rfl
        | revoke _ => rfl
        | expireStale => rfl
      obtain ⟨hafter, -⟩ := step_cases hget hnew
      rw [← storeAt_succ he] at hafter
      exact ⟨_, hafter, change_of_ended hget hkeeps hended (Machine.along_getElem? _ _ _ _ h j e he)⟩
    · intro i j e f token id inv hij he _ hcall htoken hget hnew
      exact afterRevoke_run hij he hcall htoken hget hnew
    · intro i j f id inv hij _ hget hpast hnew
      exact afterExpiry_run hij hget hpast hnew

/-! ## Two runs of a test -/

/-- An invitation of one day without uses is created, and accepted. -/
def uselessRun : List (InvitationEvent Nat) :=
  [⟨0, .create 1 "t" 7 ⟨5, .direct, none, none, some 0, none, some 86400, none⟩⟩, ⟨1, .accept 8 "t" none⟩]

theorem uselessRun_used : ¬ UsesLimited uselessRun := by
  intro h
  obtain ⟨-, hle⟩ := h 2 1 ((storeAt uselessRun 2).inner.get? 1 |>.get (by decide +kernel)) (by decide +kernel)
  exact absurd hle (by decide +kernel)

/-- A direct invitation of one second is created, accepted, and opened two seconds later. -/
def reopenedRun : List (InvitationEvent Nat) :=
  [⟨0, .create 1 "t" 7 ⟨5, .direct, none, none, none, none, some 1, none⟩⟩, ⟨0, .accept 8 "t" none⟩,
    ⟨2 * 10 ^ 9, .open "t" none none⟩]

theorem reopenedRun_changes : ¬ EndsAbsorb reopenedRun := by
  intro h
  obtain ⟨inv', hget', hstatus⟩ := h.absorbed 2 _ 1 ((storeAt reopenedRun 2).inner.get? 1 |>.get (by decide +kernel)) rfl
    trivial (by decide +kernel) (by decide +kernel)
  have hexpired : ((storeAt reopenedRun 3).inner.get? 1).map Invitation.status = some .expired := by decide +kernel
  have haccepted : ((storeAt reopenedRun 2).inner.get? 1 |>.get (by decide +kernel)).status = .accepted := by decide +kernel
  rw [hget', Option.map_some, hstatus, haccepted] at hexpired
  cases hexpired

end Runs
end Invitations
end Kirino
