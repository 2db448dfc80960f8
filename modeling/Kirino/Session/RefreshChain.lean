import Kirino.Session.Revocation
import Kirino.Session.Agreement
import Kirino.Session.Rotation
/-!
# RefreshChain — what passes from a token pair to the pairs refreshed from it

A chain starts with the pair of `issue_pair`, and every accepted call, rotating or not, adds a pair.  The new claims are
made from the presented token alone, so the user, the name and the roles of a pair are those of the pair before it.
-/
namespace Kirino
namespace Session

/-- A pair and the identifiers drawn for it. -/
structure ChainLink where
  ids : TokenManager.PairIds
  pair : TokenPair

/-- The two ways to refresh, the rotating one with the store as the call finds it. -/
inductive RefreshPath where
  | refresh
  | refreshRotating (revocations : RefreshRevocationStore)

structure ChainCall where
  now : Nat
  path : RefreshPath
  refreshToken : String
  ids : TokenManager.PairIds

section
variable {L : Crates}

def chainAnswer (m : TokenManager L) (e : ChainCall) : SessionResult TokenPair :=
  match e.path with
  | .refresh => m.refresh e.now e.ids e.refreshToken
  | .refreshRotating revocations => (m.refreshRotating e.now e.ids e.refreshToken revocations).1

/-- The links so far, an answered pair joining them. -/
def chainMachine (m : TokenManager L) : Lib.Machine (List ChainLink) ChainCall (SessionResult TokenPair) where
  step links e :=
    match chainAnswer m e with
    | .ok pair => links ++ [⟨e.ids, pair⟩]
    | .error _ => links
  out _ e := chainAnswer m e

/-- The call presents a token of a pair of the chain. -/
def Presented (links : List ChainLink) (e : ChainCall) : Prop :=
  ∃ link ∈ links, e.refreshToken = link.pair.accessToken ∨ e.refreshToken = link.pair.refreshToken

/-- What the rotating path asks beyond a verified token: a session, whose first use the store answers. -/
def RefreshPath.Admits (L : Crates) (path : RefreshPath) (now : Nat) (claims : TokenClaims) : Prop :=
  match path with
  | .refresh => True
  | .refreshRotating revocations => ∃ sid, claims.sid = some sid ∧ (revocations.checkAndRevoke L.overflowChecks sid now).1 = some true

/-- The call is not rejected: the token verifies as a refresh token, and the path admits it. -/
def ChainCall.Accepted (m : TokenManager L) (e : ChainCall) : Prop :=
  ∃ userId claims, m.verifyRefreshClaims e.now e.refreshToken = .ok (userId, claims) ∧ e.path.Admits L e.now claims

/-- The session id that a token carries. -/
def sidOf (L : Crates) (token : String) : Option String := (claimsOf L token).bind TokenClaims.sid

/-- The token carries the user, the name and the roles, for the manager's issuer and audience, and no permissions. -/
structure Carries (m : TokenManager L) (userId : L.Uuid) (username : String) (roles : List String)
    (tokenType : TokenType) (sid : String) (token : String) (c : TokenClaims) : Prop where
  claims : claimsOf L token = some c
  sub : c.sub = L.uuidToString userId
  username : c.username = username
  roles : c.roles = roles
  iss : c.iss = m.config.issuer
  aud : c.aud = m.config.audience
  permissions : c.permissions = []
  tokenType : c.tokenType = tokenType
  sid : c.sid = some sid

/-- Both tokens of the pair carry the first call's authority, in the session drawn for the pair. -/
structure LinkCarries (m : TokenManager L) (userId : L.Uuid) (username : String) (roles : List String)
    (link : ChainLink) : Prop where
  access : ∃ c, Carries m userId username roles .access link.ids.sid link.pair.accessToken c
  refresh : ∃ c, Carries m userId username roles .refresh link.ids.sid link.pair.refreshToken c

/-- Authority is neither gained nor lost along the chain. -/
structure KeepsAuthority (m : TokenManager L) (userId : L.Uuid) (username : String) (roles : List String)
    (links : List ChainLink) : Prop where
  carries : ∀ link ∈ links, LinkCarries m userId username roles link
  shares : ∀ link ∈ links, sidOf L link.pair.accessToken = sidOf L link.pair.refreshToken
  differs : links.Pairwise (fun a b => sidOf L a.pair.refreshToken ≠ sidOf L b.pair.refreshToken)
  accessRefused : ∀ link ∈ links, ∀ e : ChainCall, e.refreshToken = link.pair.accessToken → ¬ e.Accepted m
  rejected : ∀ e : ChainCall, ¬ e.Accepted m →
    (∀ pair, chainAnswer m e ≠ .ok pair) ∧ (chainMachine m).step links e = links

variable {m : TokenManager L} {signed : L.DecodingKey → Algorithm → String → Bool}

/-! ## What a call does -/

/-- **When a call answers with a pair**: it is accepted, and the pair is issued for the presented claims. -/
theorem chainAnswer_eq_ok_iff {e : ChainCall} {pair : TokenPair} : chainAnswer m e = .ok pair ↔
    ∃ userId claims, m.verifyRefreshClaims e.now e.refreshToken = .ok (userId, claims) ∧ e.path.Admits L e.now claims ∧
      m.issuePair e.now e.ids userId claims.username claims.roles = .ok pair := by
  obtain ⟨now, path, token, ids⟩ := e
  unfold chainAnswer RefreshPath.Admits
  dsimp only
  cases path with
  | refresh =>
    unfold TokenManager.refresh
    cases hv : m.verifyRefreshClaims now token with
    | error fault => simp [bind, Except.bind]
    | ok p => simp [bind, Except.bind, Prod.ext_iff]
  | refreshRotating revocations =>
    unfold TokenManager.refreshRotating
    cases hv : m.verifyRefreshClaims now token with
    | error fault => simp
    | ok p =>
      obtain ⟨userId, claims⟩ := p
      dsimp only
      constructor
      · intro h
        cases hsid : claims.sid with
        | none => rw [hsid] at h; cases h
        | some sid =>
          rw [hsid] at h
          dsimp only at h
          cases hc : revocations.checkAndRevoke L.overflowChecks sid now with
          | mk answer st =>
            rw [hc] at h
            match answer with
            | none => cases h
            | some false => cases h
            | some true => exact ⟨userId, claims, rfl, ⟨sid, hsid, congrArg Prod.fst hc⟩, h⟩
      · rintro ⟨_, _, haccepted, ⟨sid, hsid, hfirst⟩, hissue⟩
        obtain ⟨rfl, rfl⟩ := Prod.mk.inj (Except.ok.inj haccepted)
        rw [hsid]
        dsimp only
        cases hc : revocations.checkAndRevoke L.overflowChecks sid now with
        | mk answer st =>
          obtain rfl : answer = some true := (congrArg Prod.fst hc).symm.trans hfirst
          exact hissue

theorem step_of_answer {links : List ChainLink} {e : ChainCall} {pair : TokenPair} (h : chainAnswer m e = .ok pair) :
    (chainMachine m).step links e = links ++ [⟨e.ids, pair⟩] := by
  unfold chainMachine
  dsimp only
  rw [h]

theorem step_cases (m : TokenManager L) (links : List ChainLink) (e : ChainCall) :
    (∃ pair, chainAnswer m e = .ok pair ∧ (chainMachine m).step links e = links ++ [⟨e.ids, pair⟩]) ∨
      (∀ pair, chainAnswer m e ≠ .ok pair) ∧ (chainMachine m).step links e = links := by
  cases hpair : chainAnswer m e with
  | ok pair => exact Or.inl ⟨pair, rfl, step_of_answer hpair⟩
  | error fault =>
    refine Or.inr ⟨nofun, ?_⟩
    unfold chainMachine
    dsimp only
    rw [hpair]

/-! ## What the tokens carry -/

/-- **Both tokens of an issued pair carry what it was issued for.** -/
theorem linkCarries_of_issuePair (hD : L.Documented signed) {now : Nat} {ids : TokenManager.PairIds} {userId : L.Uuid}
    {username : String} {roles : List String} {pair : TokenPair}
    (h : m.issuePair now ids userId username roles = .ok pair) : LinkCarries m userId username roles ⟨ids, pair⟩ := by
  have hcarries : ∀ {jti : String} {tokenType : TokenType} {ttlSecs : Nat} {claims : TokenClaims} {token : String},
      m.pairClaims now ids.sid jti (L.uuidToString userId) username roles tokenType ttlSecs = .ok claims →
        m.sign claims = .ok token → Carries m userId username roles tokenType ids.sid token claims := by
    intro jti tokenType ttlSecs claims token hclaims hsign
    obtain rfl := TokenManager.claims_of_pairClaims hclaims
    exact ⟨(TokenManager.parts_of_sign hD hsign).2, rfl, rfl, rfl, rfl, rfl, rfl, rfl, rfl⟩
  obtain ⟨access, refresh, hissued⟩ := TokenManager.issued_of_issuePair h
  exact ⟨⟨access, hcarries hissued.accessClaims hissued.accessToken⟩,
    ⟨refresh, hcarries hissued.refreshClaims hissued.refreshToken⟩⟩

/-- **A token accepted for a refresh is a refresh token**, read with the claims it carries. -/
theorem carried_of_verifyRefreshClaims (hD : L.Documented signed) {now : Nat} {token : String} {userId userId' : L.Uuid}
    {username sid : String} {roles : List String} {tokenType : TokenType} {c claims : TokenClaims}
    (hcarries : Carries m userId username roles tokenType sid token c)
    (hv : m.verifyRefreshClaims now token = .ok (userId', claims)) :
    claims = c ∧ tokenType = .refresh ∧ L.uuidParseStr (L.uuidToString userId) = some userId' := by
  obtain ⟨hverify, htype, hparse⟩ := TokenManager.verifyRefreshClaims_eq_ok_iff.1 hv
  have hclaims : claimsOf L token = some claims := (TokenManager.accepts_of_verifyWith hD hverify).2.2.1
  obtain rfl : claims = c := Option.some.inj (hclaims.symm.trans hcarries.claims)
  exact ⟨rfl, hcarries.tokenType.symm.trans htype, hcarries.sub ▸ hparse⟩

theorem access_not_accepted (hD : L.Documented signed) {userId : L.Uuid} {username : String} {roles : List String}
    {link : ChainLink} (hlink : LinkCarries m userId username roles link) {e : ChainCall}
    (he : e.refreshToken = link.pair.accessToken) : ¬ e.Accepted m := by
  rintro ⟨userId', claims, hv, -⟩
  obtain ⟨c, hcarries⟩ := hlink.access
  rw [he] at hv
  exact absurd (carried_of_verifyRefreshClaims hD hcarries hv).2.1 (by decide)

/-- **A pair refreshed from a token of the chain carries what the chain does.** -/
theorem linkCarries_of_chainAnswer (hD : L.Documented signed) (hUuid : ∀ id, L.uuidParseStr (L.uuidToString id) = some id)
    {userId : L.Uuid} {username : String} {roles : List String} {links : List ChainLink}
    (hlinks : ∀ link ∈ links, LinkCarries m userId username roles link) {e : ChainCall} (he : Presented links e)
    {pair : TokenPair} (hpair : chainAnswer m e = .ok pair) : LinkCarries m userId username roles ⟨e.ids, pair⟩ := by
  obtain ⟨userId', claims, hv, hadmits, hissue⟩ := chainAnswer_eq_ok_iff.1 hpair
  obtain ⟨link, hlink, haccess | hrefresh⟩ := he
  · exact absurd ⟨userId', claims, hv, hadmits⟩ (access_not_accepted hD (hlinks link hlink) haccess)
  · obtain ⟨c, hcarries⟩ := (hlinks link hlink).refresh
    rw [hrefresh] at hv
    obtain ⟨rfl, -, hparse⟩ := carried_of_verifyRefreshClaims hD hcarries hv
    obtain rfl : userId = userId' := Option.some.inj ((hUuid userId).symm.trans hparse)
    rw [hcarries.username, hcarries.roles] at hissue
    exact linkCarries_of_issuePair hD hissue

/-! ## The whole chain -/

/-- **A call keeps the tokens of the chain carrying the first call's authority.** -/
theorem linksCarry_step (hD : L.Documented signed) (hUuid : ∀ id, L.uuidParseStr (L.uuidToString id) = some id)
    {userId : L.Uuid} {username : String} {roles : List String} {links : List ChainLink} {e : ChainCall}
    (hlinks : ∀ link ∈ links, LinkCarries m userId username roles link) (he : Presented links e) :
    ∀ link ∈ (chainMachine m).step links e, LinkCarries m userId username roles link := by
  rcases step_cases m links e with ⟨pair, hpair, hstep⟩ | ⟨-, hstep⟩
  · rw [hstep]
    intro link hlink
    rcases List.mem_append.1 hlink with hold | hnew
    · exact hlinks link hold
    · obtain rfl := List.mem_singleton.1 hnew
      exact linkCarries_of_chainAnswer hD hUuid hlinks he hpair
  · rw [hstep]
    exact hlinks

theorem sidOf_of_carries {userId : L.Uuid} {username sid : String} {roles : List String} {tokenType : TokenType}
    {token : String} {c : TokenClaims} (h : Carries m userId username roles tokenType sid token c) :
    sidOf L token = some sid := by
  unfold sidOf
  rw [h.claims]
  exact h.sid

/-- **Refresh chains neither gain nor lose authority**, the drawn session ids being distinct. -/
theorem chain_keepsAuthority (hD : L.Documented signed) (hUuid : ∀ id, L.uuidParseStr (L.uuidToString id) = some id)
    {now : Nat} {ids : TokenManager.PairIds} {userId : L.Uuid} {username : String} {roles : List String}
    {pair : TokenPair} (hissue : m.issuePair now ids userId username roles = .ok pair) (es : List ChainCall)
    (halong : (chainMachine m).Along Presented [⟨ids, pair⟩] es)
    (hsids : (((chainMachine m).run [⟨ids, pair⟩] es).map (fun link => link.ids.sid)).Nodup) :
    KeepsAuthority m userId username roles ((chainMachine m).run [⟨ids, pair⟩] es) := by
  have hcarries : ∀ link ∈ (chainMachine m).run [⟨ids, pair⟩] es, LinkCarries m userId username roles link := by
    refine (chainMachine m).run_invariant Presented (fun links => ∀ link ∈ links, LinkCarries m userId username roles link)
      (fun links e hlinks he => linksCarry_step hD hUuid hlinks he) _ es ?_ halong
    intro link hlink
    obtain rfl := List.mem_singleton.1 hlink
    exact linkCarries_of_issuePair hD hissue
  refine ⟨hcarries, ?_, ?_, ?_, ?_⟩
  · intro link hlink
    obtain ⟨_, haccess⟩ := (hcarries link hlink).access
    obtain ⟨_, hrefresh⟩ := (hcarries link hlink).refresh
    rw [sidOf_of_carries haccess, sidOf_of_carries hrefresh]
  · refine (List.pairwise_map.1 hsids).imp_of_mem (fun {a b} ha hb hne => ?_)
    obtain ⟨_, ha⟩ := (hcarries a ha).refresh
    obtain ⟨_, hb⟩ := (hcarries b hb).refresh
    rw [sidOf_of_carries ha, sidOf_of_carries hb]
    exact fun heq => hne (Option.some.inj heq)
  · intro link hlink e he
    exact access_not_accepted hD (hcarries link hlink) he
  · intro e hrejected
    rcases step_cases m ((chainMachine m).run [⟨ids, pair⟩] es) e with ⟨pair', hpair, -⟩ | hnone
    · obtain ⟨userId', claims, hv, hadmits, -⟩ := chainAnswer_eq_ok_iff.1 hpair
      exact absurd ⟨userId', claims, hv, hadmits⟩ hrejected
    · exact hnone

/-! ## Live tokens -/

/-- **A live refresh token refreshes** under a manager that trusts its own key, on either path, at a clock that fits. -/
theorem chainAnswer_of_live (hD : L.Documented signed) (hUuid : ∀ id, L.uuidParseStr (L.uuidToString id) = some id)
    (htrusts : TokenManager.Trusts signed m.keys m.keys) {iat now : Nat} {ids ids' : TokenManager.PairIds}
    {userId : L.Uuid} {username : String} {roles : List String} {pair : TokenPair}
    (hissue : m.issuePair iat ids userId username roles = .ok pair)
    (hrange : iat + m.config.refreshTtlSecs + validationLeeway < 2 ^ 63)
    (hlive : now ≤ iat + m.config.refreshTtlSecs + validationLeeway) (hclock : TokenManager.ClockFits m.keys now)
    (haccess : now + m.config.accessTtlSecs < 2 ^ 64)
    (hrefresh : now + m.config.refreshTtlSecs < 2 ^ 64) {path : RefreshPath}
    (hadmits : ∀ claims : TokenClaims, claims.sid = some ids.sid → path.Admits L now claims) :
    ∃ pair', chainAnswer m ⟨now, path, pair.refreshToken, ids'⟩ = .ok pair' ∧
      m.issuePair now ids' userId username roles = .ok pair' := by
  obtain ⟨access, claims, hissued⟩ := TokenManager.issued_of_issuePair hissue
  have hclaims := TokenManager.claims_of_pairClaims hissued.refreshClaims
  have hsid : claims.sid = some ids.sid := by rw [hclaims]
  have hexp : claims.exp = iat + m.config.refreshTtlSecs := by
    rw [hclaims]
    exact Nat.mod_eq_of_lt (by omega)
  have hmints := (mints_of_issued hissued).2
  have hverify : m.verify now pair.refreshToken = .ok claims := by
    have hkid : TokenManager.KidPasses m.config.kid m.config.kid :=
      fun kid kid' h h' => Option.some.inj (h.symm.trans h')
    refine (TokenManager.verify_live_iff hD htrusts hmints.sign hmints.iss hmints.aud hmints.exp).2 ?_ now ?_
      hclock
    · intro _ _ _
      rw [hexp]
      exact ⟨hkid, hrange⟩
    · rw [hexp]
      exact hlive
  obtain ⟨c, hcarries⟩ := (linkCarries_of_issuePair hD hissue).refresh
  obtain rfl : claims = c := by
    have hcarried := (TokenManager.accepts_of_verifyWith hD hverify).2.2.1
    exact Option.some.inj (hcarried.symm.trans hcarries.claims)
  have hv : m.verifyRefreshClaims now pair.refreshToken = .ok (userId, claims) :=
    TokenManager.verifyRefreshClaims_eq_ok_iff.2 ⟨hverify, hcarries.tokenType, hcarries.sub ▸ hUuid userId⟩
  have hsigns : ∀ claims, ∃ token, m.sign claims = .ok token := by
    intro claims
    obtain ⟨token, hsign, -⟩ := TokenManager.sign_of_trusts hD htrusts claims
    exact ⟨token, hsign⟩
  obtain ⟨pair', hpair'⟩ := TokenManager.issuePair_of_sign hsigns haccess hrefresh ids' userId username roles
  refine ⟨pair', chainAnswer_eq_ok_iff.2 ⟨userId, claims, hv, hadmits claims hsid, ?_⟩, hpair'⟩
  rw [hcarries.username, hcarries.roles]
  exact hpair'

end

/-! ## A chain of three pairs -/

def chainIds (suffix : String) : TokenManager.PairIds := ⟨"sid-" ++ suffix, "access-" ++ suffix, "refresh-" ++ suffix⟩

/-- A refresh, and a rotation at a fresh store. -/
def chainCalls (first second : String) : List ChainCall :=
  [⟨100, .refresh, first, chainIds "2"⟩, ⟨200, .refreshRotating ⟨3600, Lib.HashMap.empty⟩, second, chainIds "3"⟩]

theorem edChain_keepsAuthority : ∃ pair es, edManager.issuePair 0 (chainIds "1") "ada-id" "ada" ["viewer"] = .ok pair ∧
    ((chainMachine edManager).run [⟨chainIds "1", pair⟩] es).length = 3 ∧
      KeepsAuthority edManager "ada-id" "ada" ["viewer"] ((chainMachine edManager).run [⟨chainIds "1", pair⟩] es) := by
  have htrusts : TokenManager.Trusts plainSigned edManager.keys edManager.keys :=
    ⟨"k", List.mem_singleton_self _, plainEncode_pair .edDsa "k"⟩
  have hsigns : ∀ claims, ∃ token, edManager.sign claims = .ok token := fun claims => ⟨_, rfl⟩
  obtain ⟨pair₁, h₁⟩ : ∃ pair, edManager.issuePair 0 (chainIds "1") "ada-id" "ada" ["viewer"] = .ok pair :=
    TokenManager.issuePair_of_sign hsigns (by decide) (by decide) _ _ _ _
  obtain ⟨pair₂, hanswer₂, h₂⟩ : ∃ pair, chainAnswer edManager ⟨100, .refresh, pair₁.refreshToken, chainIds "2"⟩ = .ok pair ∧
      edManager.issuePair 100 (chainIds "2") "ada-id" "ada" ["viewer"] = .ok pair :=
    chainAnswer_of_live plainCrates_documented (fun _ => rfl) htrusts h₁ (by decide) (by decide)
      (by decide : validationLeeway ≤ 100) (by decide) (by decide)
      (fun _ _ => trivial)
  obtain ⟨pair₃, hanswer₃, -⟩ : ∃ pair, chainAnswer edManager
      ⟨200, .refreshRotating ⟨3600, Lib.HashMap.empty⟩, pair₂.refreshToken, chainIds "3"⟩ = .ok pair ∧
        edManager.issuePair 200 (chainIds "3") "ada-id" "ada" ["viewer"] = .ok pair :=
    chainAnswer_of_live plainCrates_documented (fun _ => rfl) htrusts h₂ (by decide) (by decide)
      (by decide : validationLeeway ≤ 200) (by decide) (by decide)
      (fun claims hsid => ⟨"sid-2", hsid, by decide +kernel⟩)
  have hrun : (chainMachine edManager).run [⟨chainIds "1", pair₁⟩] (chainCalls pair₁.refreshToken pair₂.refreshToken) =
      [⟨chainIds "1", pair₁⟩, ⟨chainIds "2", pair₂⟩, ⟨chainIds "3", pair₃⟩] := by
    unfold chainCalls
    rw [Lib.Machine.run_cons, step_of_answer hanswer₂, Lib.Machine.run_cons, step_of_answer hanswer₃]
    rfl
  refine ⟨pair₁, chainCalls pair₁.refreshToken pair₂.refreshToken, h₁, congrArg List.length hrun, ?_⟩
  refine chain_keepsAuthority plainCrates_documented (fun _ => rfl) h₁ _ ?_ ?_
  · refine ⟨⟨_, List.mem_singleton_self _, Or.inr rfl⟩, ?_, trivial⟩
    rw [step_of_answer hanswer₂]
    exact ⟨_, List.mem_append_right _ (List.mem_singleton_self _), Or.inr rfl⟩
  · rw [hrun]
    change ["sid-1", "sid-2", "sid-3"].Nodup
    decide

end Session
end Kirino
