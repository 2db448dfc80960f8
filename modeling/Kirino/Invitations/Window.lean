import Kirino.Invitations.StoreRuns
/-!
# Window — the opening of a direct invitation, over runs (`invitation/store.rs`)

The first open that succeeds records its instant and its address, and no later call changes them (`opened_run`).  An open
and an accept test the window from that instant on by comparisons of their own, and neither reads the window that the
invitation was created with: `window_exact` says at which instants they both agree with it.
-/
namespace Kirino
namespace Invitations

open Lib (HashMap Machine nanosPerSec numSeconds)

section Single
variable {U : Type}

/-- The call leaves the mode and the opening alone. -/
structure KeepsOpening (inv inv' : Invitation U) : Prop where
  mode : inv'.mode = inv.mode
  openedAt : inv'.openedAt = inv.openedAt
  openedIp : inv'.openedIp = inv.openedIp

theorem accept_keepsOpening (inv : Invitation U) (clientIp : Option String) (acceptedBy : U) (now : Int) :
    KeepsOpening inv (inv.accept clientIp acceptedBy now).1 := by
  have hredeem : KeepsOpening inv (inv.redeem acceptedBy now).1 := by
    unfold Invitation.redeem
    split
    · exact ⟨rfl, rfl, rfl⟩
    · exact ⟨rfl, rfl, rfl⟩
  by_cases hlive : inv.isLive = true
  · rw [accept_of_live hlive]
    split
    · exact ⟨rfl, rfl, rfl⟩
    · split
      · exact ⟨rfl, rfl, rfl⟩
      · split
        · exact ⟨rfl, rfl, rfl⟩
        · exact hredeem
  · obtain ⟨e, hsame⟩ := accept_of_not_live hlive clientIp acceptedBy now
    rw [hsame]
    exact ⟨rfl, rfl, rfl⟩

theorem revoke_keepsOpening (inv : Invitation U) : KeepsOpening inv inv.revoke := by
  unfold Invitation.revoke
  split
  · exact ⟨rfl, rfl, rfl⟩
  · exact ⟨rfl, rfl, rfl⟩

theorem expireStale_keepsOpening (inv : Invitation U) (now : Int) : KeepsOpening inv (inv.expireStale now) := by
  unfold Invitation.expireStale
  split
  · exact ⟨rfl, rfl, rfl⟩
  · exact ⟨rfl, rfl, rfl⟩

/-- An open leaves a recorded opening alone, and records one exactly when it succeeds. -/
theorem open_opening (inv : Invitation U) (clientIp clientUa : Option String) (token : String) (now : Int) :
    KeepsOpening inv (inv.open clientIp clientUa token now).1 ∧
        (inv.openedAt = none → (inv.open clientIp clientUa token now).2.isOk = false) ∨
      inv.openedAt = none ∧ (inv.open clientIp clientUa token now).2.isOk = true ∧
        (inv.open clientIp clientUa token now).1.mode = inv.mode ∧
          (inv.open clientIp clientUa token now).1.openedAt = some now ∧
            (inv.open clientIp clientUa token now).1.openedIp = clientIp := by
  unfold Invitation.open
  split
  · exact Or.inl ⟨⟨rfl, rfl, rfl⟩, fun _ => rfl⟩
  · split
    · exact Or.inl ⟨⟨rfl, rfl, rfl⟩, fun _ => rfl⟩
    · split
      · exact Or.inl ⟨⟨rfl, rfl, rfl⟩, fun _ => rfl⟩
      · cases hopened : inv.openedAt with
        | some openedAt =>
          have hmark : inv.markOpened clientIp clientUa now = inv := by rw [Invitation.markOpened, hopened]
          unfold Invitation.openWindow
          rw [hmark]
          dsimp only
          split
          · exact Or.inl ⟨⟨rfl, rfl, rfl⟩, fun h => by cases h⟩
          · exact Or.inl ⟨⟨rfl, rfl, rfl⟩, fun h => by cases h⟩
        | none =>
          have hmark : inv.markOpened clientIp clientUa now =
              { inv with openedAt := some now, openedIp := clientIp, openedUa := clientUa, status := .opened } := by
            rw [Invitation.markOpened, hopened]
          -- the window is whole at the instant it begins
          have hwhole : ¬ windowSecs - numSeconds (now - (none : Option Int).getD now) ≤ 0 := by
            have hzero : now - (none : Option Int).getD now = 0 := Int.sub_self now
            rw [hzero]
            decide
          unfold Invitation.openWindow
          rw [hmark, hopened]
          dsimp only
          rw [if_neg hwhole]
          exact Or.inr ⟨rfl, rfl, rfl, rfl, rfl⟩

/-- The call is refused because the window has expired. -/
def RefusedForWindow {α : Type} (result : Except Failure α) : Prop :=
  ∃ remaining, result = .error (.error (.openWindowExpired remaining))

/-- At the instant both calls refuse the invitation for its window exactly when this many seconds have passed since it was
opened. -/
structure OneWindow (inv : Invitation U) (secs : Nat) (openedAt now : Int) : Prop where
  ofOpen : ∀ clientIp clientUa token,
    RefusedForWindow (inv.open clientIp clientUa token now).2 ↔ secs ≤ numSeconds (now - openedAt)
  ofAccept : ∀ clientIp acceptedBy,
    RefusedForWindow (inv.accept clientIp acceptedBy now).2 ↔ secs ≤ numSeconds (now - openedAt)

variable {inv : Invitation U} {openedAt now : Int}

theorem open_refusedForWindow_iff (hmode : inv.mode = .direct) (hlive : inv.isLive = true) (htime : now ≤ inv.expiresAt)
    (hopened : inv.openedAt = some openedAt) (clientIp clientUa : Option String) (token : String) :
    RefusedForWindow (inv.open clientIp clientUa token now).2 ↔ 300 ≤ numSeconds (now - openedAt) := by
  have hstatus : ¬ (inv.status ≠ .pending ∧ inv.status ≠ .opened) := by
    rw [not_and_or, not_not, not_not]
    exact isLive_iff.1 hlive
  unfold Invitation.open
  rw [if_neg (not_not_intro hmode), if_neg (Int.not_lt.2 htime), if_neg hstatus]
  unfold Invitation.openWindow windowSecs RefusedForWindow
  rw [hopened]
  dsimp only [Option.getD_some]
  split
  · next hpast => exact ⟨fun _ => by omega, fun _ => ⟨_, rfl⟩⟩
  · next hleft => exact ⟨fun h => absurd h (by simp), fun h => absurd h (by omega)⟩

theorem redeem_not_refusedForWindow (inv : Invitation U) (acceptedBy : U) (now : Int) :
    ¬ RefusedForWindow (inv.redeem acceptedBy now).2 := by
  rintro ⟨remaining, h⟩
  unfold Invitation.redeem at h
  split at h
  · cases h
  · cases h

theorem accept_refusedForWindow_iff (hmode : inv.mode = .direct) (hlive : inv.isLive = true) (htime : now ≤ inv.expiresAt)
    (hopened : inv.openedAt = some openedAt) (clientIp : Option String) (acceptedBy : U) :
    RefusedForWindow (inv.accept clientIp acceptedBy now).2 ↔ 300 < numSeconds (now - openedAt) := by
  have hpassed : inv.windowPassed now = decide (300 < numSeconds (now - openedAt)) := by
    rw [Invitation.windowPassed, hopened]
    rfl
  rw [accept_of_live hlive, if_neg (Int.not_lt.2 htime), hpassed]
  split
  · next h => exact ⟨fun _ => of_decide_eq_true h.2, fun _ => ⟨0, rfl⟩⟩
  · next h =>
    have hearly : ¬ 300 < numSeconds (now - openedAt) := fun hlt => h ⟨hmode, decide_eq_true hlt⟩
    refine ⟨fun hrefused => ?_, fun hlt => absurd hlt hearly⟩
    split at hrefused
    · obtain ⟨remaining, herror⟩ := hrefused
      cases herror
    · exact absurd hrefused (redeem_not_refusedForWindow inv acceptedBy now)

/-- An ended invitation, and one past its expiry, is refused for that by both calls. -/
theorem not_refusedForWindow_of_ended (h : inv.isLive = false ∨ inv.expiresAt < now) :
    (∀ clientIp clientUa token, ¬ RefusedForWindow (inv.open clientIp clientUa token now).2) ∧
      ∀ clientIp acceptedBy, ¬ RefusedForWindow (inv.accept clientIp acceptedBy now).2 := by
  constructor
  · rintro clientIp clientUa token ⟨remaining, hrefused⟩
    unfold Invitation.open at hrefused
    split at hrefused
    · cases hrefused
    · split at hrefused
      · cases hrefused
      · next htime =>
        split at hrefused
        · cases hrefused
        · next hstatus =>
          rw [not_and_or, not_not, not_not] at hstatus
          rcases h with hended | hpast
          · rw [isLive_iff.2 hstatus] at hended
            cases hended
          · exact htime hpast
  · rintro clientIp acceptedBy ⟨remaining, hrefused⟩
    by_cases hlive : inv.isLive = true
    · have hpast : now > inv.expiresAt := h.resolve_left (by simp [hlive])
      rw [accept_of_live hlive, if_pos hpast] at hrefused
      cases hrefused
    · have hended := Bool.eq_false_iff.2 hlive
      unfold Invitation.isLive at hended
      unfold Invitation.accept at hrefused
      cases hstatus : inv.status <;> simp [hstatus] at hrefused hended

/-- **Both calls apply one window exactly at the instants where the fixed window and the wanted one agree**: before both have
passed, or when both have and the 300th second is over. -/
theorem oneWindow_iff (hmode : inv.mode = .direct) (hlive : inv.isLive = true) (htime : now ≤ inv.expiresAt)
    (hopened : inv.openedAt = some openedAt) (acceptedBy : U) (secs : Nat) :
    OneWindow inv secs openedAt now ↔
      numSeconds (now - openedAt) < min (secs : Int) 300 ∨ max (secs : Int) 301 ≤ numSeconds (now - openedAt) := by
  have hopen := open_refusedForWindow_iff hmode hlive htime hopened
  have haccept := accept_refusedForWindow_iff hmode hlive htime hopened
  constructor
  · rintro ⟨ofOpen, ofAccept⟩
    have h₁ := (hopen none none "").symm.trans (ofOpen none none "")
    have h₂ := (haccept none acceptedBy).symm.trans (ofAccept none acceptedBy)
    omega
  · intro h
    refine ⟨fun clientIp clientUa token => (hopen clientIp clientUa token).trans ?_,
      fun clientIp acceptedBy => (haccept clientIp acceptedBy).trans ?_⟩
    · omega
    · omega

end Single

/-! ## Runs -/

section Runs
variable {U : Type} [DecidableEq U]

/-- The call is an open of the invitation with the id, and succeeds. -/
def opens (store : InMemoryInvitationStore U) (event : InvitationEvent U) (id : U) : Bool :=
  match event.call with
  | .open token clientIp clientUa =>
    decide (store.tokenIndex.get? token = some id) && (store.open token clientIp clientUa event.now).2.isOk
  | _ => false

/-- Event `c` makes the direct invitation, and no event after it and before `n` makes one with its id. -/
structure MadeDirect (es : List (InvitationEvent U)) (id : U) (params : CreateInvitationParams U) (c n : Nat) : Prop where
  before : c < n
  made : ∃ e token invitedBy, es[c]? = some e ∧ e.call = .create id token invitedBy params ∧ creates e id = true
  direct : params.mode = .direct
  only : ∀ k g, c < k → k < n → es[k]? = some g → creates g id = false

/-- Event `o` is the first open of the invitation that succeeds, at this instant and from this address. -/
structure FirstOpened (es : List (InvitationEvent U)) (id : U) (c o n : Nat) (openedAt : Int) (openedIp : Option String) :
    Prop where
  after : c < o
  before : o < n
  opened : ∃ token clientUa, es[o]? = some ⟨openedAt, .open token openedIp clientUa⟩ ∧
    opens (storeAt es o) ⟨openedAt, .open token openedIp clientUa⟩ id = true
  first : ∀ k g, c < k → k < o → es[k]? = some g → opens (storeAt es k) g id = false

variable {store : InMemoryInvitationStore U} {id : U} {inv : Invitation U}

/-- **A call leaves the opening of an invitation alone, unless it is its first open.** -/
theorem change_opening (event : InvitationEvent U) (hget : store.inner.get? id = some inv) :
    KeepsOpening inv (change store event id inv) ∧ (inv.openedAt = none → opens store event id = false) ∨
      inv.openedAt = none ∧ opens store event id = true ∧ (change store event id inv).mode = inv.mode ∧
        ∃ token clientIp clientUa, event.call = .open token clientIp clientUa ∧
          (change store event id inv).openedAt = some event.now ∧ (change store event id inv).openedIp = clientIp := by
  obtain ⟨now, call⟩ := event
  unfold change opens
  cases call with
  | create id' token invitedBy params => exact Or.inl ⟨⟨rfl, rfl, rfl⟩, fun _ => rfl⟩
  | «open» token clientIp clientUa =>
    dsimp only
    by_cases htoken : store.tokenIndex.get? token = some id
    · have hanswer := isOk_withToken (fun inv => inv.open clientIp clientUa token now) htoken hget
      unfold InMemoryInvitationStore.open
      rw [if_pos htoken, hanswer, decide_eq_true htoken, Bool.true_and]
      rcases open_opening inv clientIp clientUa token now with hkeeps | ⟨hnone, hok, hmode, hat, hip⟩
      · exact Or.inl hkeeps
      · exact Or.inr ⟨hnone, hok, hmode, token, clientIp, clientUa, rfl, hat, hip⟩
    · rw [if_neg htoken, decide_eq_false htoken]
      exact Or.inl ⟨⟨rfl, rfl, rfl⟩, fun _ => rfl⟩
  | accept acceptedBy token clientIp =>
    refine Or.inl ⟨?_, fun _ => rfl⟩
    dsimp only
    split
    · exact accept_keepsOpening inv clientIp acceptedBy now
    · exact ⟨rfl, rfl, rfl⟩
  | revoke token =>
    refine Or.inl ⟨?_, fun _ => rfl⟩
    dsimp only
    split
    · exact revoke_keepsOpening inv
    · exact ⟨rfl, rfl, rfl⟩
  | expireStale => exact Or.inl ⟨expireStale_keepsOpening inv now, fun _ => rfl⟩

variable {es : List (InvitationEvent U)} {params : CreateInvitationParams U} {c o n : Nat} {openedAt : Int}
  {openedIp : Option String}

/-- Until its first open an invitation has no opening. -/
theorem unopened_run (hmade : MadeDirect es id params c n) (hlt : c < o) (hon : o ≤ n)
    (hfirst : ∀ k g, c < k → k < o → es[k]? = some g → opens (storeAt es k) g id = false) :
    ∃ inv, (storeAt es o).inner.get? id = some inv ∧ inv.mode = .direct ∧ inv.openedAt = none := by
  obtain ⟨e, token, invitedBy, he, hcall, hcreates⟩ := hmade.made
  refine Machine.run_invariant_between (invitationMachine U)
    (fun store => ∃ inv, store.inner.get? id = some inv ∧ inv.mode = .direct ∧ inv.openedAt = none) .new es
    (Nat.succ_le_of_lt hlt) ?_ ?_
  · obtain ⟨token', invitedBy', params', expiresAt, hcall', hget⟩ := get?_step_of_creates (storeAt es c) hcreates
    have hparams : params' = params := by
      rw [hcall] at hcall'
      cases hcall'
      rfl
    rw [← storeAt_succ he] at hget
    exact ⟨_, hget, by rw [← hmade.direct, ← hparams]; rfl, rfl⟩
  · rintro k g hck hko hg ⟨inv, hget, hmode, hnone⟩
    obtain ⟨hafter, -⟩ := step_cases hget (hmade.only k g hck (Nat.lt_of_lt_of_le hko hon) hg)
    refine ⟨_, hafter, ?_⟩
    rcases change_opening g hget with ⟨hkeeps, -⟩ | ⟨-, hopens, -⟩
    · exact ⟨hkeeps.mode.trans hmode, hkeeps.openedAt.trans hnone⟩
    · exact absurd ((hfirst k g hck hko hg).symm.trans hopens) Bool.false_ne_true

/-- **The first open's instant and address stay on record**, whatever is opened, accepted, revoked or swept later. -/
theorem opened_run (hmade : MadeDirect es id params c n) (hopened : FirstOpened es id c o n openedAt openedIp) :
    ∃ inv, (storeAt es n).inner.get? id = some inv ∧ inv.mode = .direct ∧ inv.openedAt = some openedAt ∧
      inv.openedIp = openedIp := by
  obtain ⟨inv, hget, hmode, hnone⟩ := unopened_run hmade hopened.after (Nat.le_of_lt hopened.before) hopened.first
  obtain ⟨token, clientUa, he, hopens⟩ := hopened.opened
  refine Machine.run_invariant_between (invitationMachine U)
    (fun store => ∃ inv, store.inner.get? id = some inv ∧ inv.mode = .direct ∧ inv.openedAt = some openedAt ∧
      inv.openedIp = openedIp) .new es (Nat.succ_le_of_lt hopened.before) ?_ ?_
  · have hafter := (step_cases hget (hmade.only o _ hopened.after hopened.before he)).1
    rw [← storeAt_succ he] at hafter
    refine ⟨_, hafter, ?_⟩
    rcases change_opening ⟨openedAt, .open token openedIp clientUa⟩ hget with
      ⟨-, hnot⟩ | ⟨-, -, hkept, token', clientIp, clientUa', hcall, hat, hip⟩
    · exact absurd ((hnot hnone).symm.trans hopens) Bool.false_ne_true
    · cases hcall
      exact ⟨hkept.trans hmode, hat, hip⟩
  · rintro k g hok hkn hg ⟨inv, hget, hmode, hat, hip⟩
    obtain ⟨hafter, -⟩ := step_cases hget (hmade.only k g (Nat.lt_trans hopened.after hok) hkn hg)
    refine ⟨_, hafter, ?_⟩
    rcases change_opening g hget with ⟨hkeeps, -⟩ | ⟨hnever, -⟩
    · exact ⟨hkeeps.mode.trans hmode, hkeeps.openedAt.trans hat, hkeeps.openedIp.trans hip⟩
    · rw [hat] at hnever
      cases hnever

/-- An accept from another address than the one on record does not succeed. -/
theorem accept_of_ipDiffers (hget : store.inner.get? id = some inv) (hmode : inv.mode = .direct) {storedIp reqIp : String}
    (hip : inv.openedIp = some storedIp) (hne : reqIp ≠ storedIp) {token : String}
    (htoken : store.tokenIndex.get? token = some id) (acceptedBy : U) (now : Int) :
    (store.accept token (some reqIp) acceptedBy now).2.isOk = false := by
  have hanswer := isOk_withToken (fun inv => inv.accept (some reqIp) acceptedBy now) htoken hget
  unfold InMemoryInvitationStore.accept
  rw [hanswer]
  rcases accept_spec inv (some reqIp) acceptedBy now with ⟨-, hacceptable, -⟩ | ⟨herror, -⟩
  · have hsame := (hacceptable.2.2 hmode).2
    unfold Invitation.ipDiffers at hsame
    rw [hip] at hsame
    exact absurd (Eq.symm (not_not.1 (of_decide_eq_false hsame))) hne
  · exact herror

/-- **One window for open and accept, where the fixed 300 seconds and the window asked for agree.**  In every state that a
run reaches after the first open of a direct invitation, its instant and its address are on record, and no other address
gets in; at every instant of its life the two calls refuse it for the window that it was created with exactly when
neither that window nor 300 seconds have passed, or both have and a second more than 300. -/
theorem window_exact (hmade : MadeDirect es id params c n) (hopened : FirstOpened es id c o n openedAt openedIp) :
    ∃ inv, (storeAt es n).inner.get? id = some inv ∧ inv.openedAt = some openedAt ∧ inv.openedIp = openedIp ∧
      (∀ now, inv.isLive = true → now ≤ inv.expiresAt →
        (OneWindow inv (params.openWindowSecs.getD 300).toNat openedAt now ↔
          numSeconds (now - openedAt) < min ((params.openWindowSecs.getD 300).toNat : Int) 300 ∨
            max ((params.openWindowSecs.getD 300).toNat : Int) 301 ≤ numSeconds (now - openedAt))) ∧
      (∀ now, inv.isLive = false ∨ inv.expiresAt < now →
        (∀ clientIp clientUa token, ¬ RefusedForWindow (inv.open clientIp clientUa token now).2) ∧
          ∀ clientIp acceptedBy, ¬ RefusedForWindow (inv.accept clientIp acceptedBy now).2) ∧
      ∀ storedIp reqIp, openedIp = some storedIp → reqIp ≠ storedIp → ∀ token acceptedBy now,
        (storeAt es n).tokenIndex.get? token = some id →
          ((storeAt es n).accept token (some reqIp) acceptedBy now).2.isOk = false := by
  obtain ⟨inv, hget, hmode, hat, hip⟩ := opened_run hmade hopened
  refine ⟨inv, hget, hat, hip, fun now hlive htime => ?_, fun now hended => not_refusedForWindow_of_ended hended, ?_⟩
  · exact oneWindow_iff hmode hlive htime hat inv.id _
  · intro storedIp reqIp hstored hne token acceptedBy now htoken
    exact accept_of_ipDiffers hget hmode (hip.trans hstored) hne htoken acceptedBy now

/-- A direct invitation with a window of ten minutes is created, opened, and opened again at the 300th second. -/
def windowRun : List (InvitationEvent Nat) :=
  [⟨0, .create 1 "t" 7 ⟨5, .direct, none, none, none, none, none, some 600⟩⟩, ⟨0, .open "t" (some "10.0.0.1") none⟩,
    ⟨300 * 10 ^ 9, .open "t" (some "10.0.0.2") none⟩]

theorem windowRun_made : MadeDirect windowRun 1 ⟨5, .direct, none, none, none, none, none, some 600⟩ 0 3 := by
  refine ⟨by decide, ⟨_, "t", 7, rfl, rfl, by decide +kernel⟩, rfl, fun k g hk hkn hg => ?_⟩
  obtain rfl | rfl : k = 1 ∨ k = 2 := by omega
  · cases hg
    rfl
  · cases hg
    rfl

theorem windowRun_opened : FirstOpened windowRun 1 0 1 3 0 (some "10.0.0.1") :=
  ⟨by decide, by decide, ⟨"t", none, rfl, by decide +kernel⟩, fun k _ hk hk1 _ => by omega⟩

/-- The second open does not begin the window again, nor put its address on record. -/
theorem windowRun_exact : ∃ inv, (storeAt windowRun 3).inner.get? 1 = some inv ∧ inv.openedAt = some 0 ∧
    inv.openedIp = some "10.0.0.1" := by
  obtain ⟨inv, hget, hat, hip, -⟩ := window_exact windowRun_made windowRun_opened
  exact ⟨inv, hget, hat, hip⟩

/-- **Two windows, and neither the one asked for**: at the 300th second of a window of 600 the open is refused for it, and
the accept goes through; a second later both are refused for it. -/
theorem windowRun_two_windows :
    ((storeAt windowRun 2).open "t" none none (300 * 10 ^ 9)).2 = .error (.error (.openWindowExpired 0)) ∧
      ((storeAt windowRun 2).accept "t" none 8 (300 * 10 ^ 9)).2 = .ok (5, "member") ∧
      ((storeAt windowRun 2).accept "t" none 8 (301 * 10 ^ 9)).2 = .error (.error (.openWindowExpired 0)) := by
  refine ⟨?_, ?_, ?_⟩
  · rfl
  · rfl
  · rfl

end Runs
end Invitations
end Kirino
