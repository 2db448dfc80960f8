import Kirino.Auth.Credential
/-!
# RevocationLife — how long a revocation has to be kept (`src/auth/credential/basic.rs`)

A revocation refuses a token by a record of an instant from the token's issue on.  Two sweeps drop records: the cleanup
a host asks for, and the automatic one of a full table.  Both count an entry as dead once it is older than the lifetime
they are given, the library accepts a token for a leeway longer.  The invariant of a revoked token (`Refused`) is that
one of its keys is on record from its issue on, or the token is past its leeway; the sweeps that keep it are the condition
`SafePrune`.
-/
namespace Kirino
namespace Auth

open Lib (HashMap Machine subI64)

/-- The map a statement sweeps and the cutoff it sweeps at, when it sweeps. -/
def MemoryRevocationBackend.sweeping (b : MemoryRevocationBackend) : Statement → Option (HashMap String Int × Int)
  | .revoke key notBefore =>
    if (b.map.insert key notBefore).len > revocationMaxEntries then
      (subI64 notBefore revocationAutoCleanupWindowSecs).map (fun cutoff => (b.map.insert key notBefore, cutoff))
    else none
  | .cleanupBefore cutoff => some (b.map, cutoff)

/-- The sweep of the call, if any, drops no record that may still refuse a token that verifies. -/
def SafePrune (life : Int) (b : MemoryRevocationBackend) (e : JwtEvent) : Prop :=
  ∀ s ∈ e.statement, ∀ swept ∈ b.sweeping s, ∀ entry ∈ swept.1.entries, entry.2 < swept.2 →
    entry.2 + life + validationLeeway < e.now

instance (life : Int) (b : MemoryRevocationBackend) (e : JwtEvent) : Decidable (SafePrune life b e) :=
  inferInstanceAs (Decidable (∀ s ∈ e.statement, ∀ swept ∈ b.sweeping s, ∀ entry ∈ swept.1.entries, _ → _))

/-- The call revokes the token with the claims: by its id, by its user or by its session. -/
def Revokes (c : Claims) (e : JwtEvent) : Prop :=
  match e.call with
  | .revokeToken jti => c.jti = some jti
  | .revokeAllForUser userId => c.userId = userId
  | .revokeSession sessionId => c.sessionId = some sessionId
  | _ => False

/-- One of the token's keys is on record from its issue on, or the token is past its leeway. -/
def Refused (c : Claims) (life : Int) (b : MemoryRevocationBackend) (now : Int) : Prop :=
  (∃ key ∈ JwtManager.revocationKeys c, b.map.RecordedFrom key c.iat) ∨ c.iat + life + validationLeeway < now

section
variable {J : JwtCrate} {m : JwtManager J} {b : MemoryRevocationBackend} {c : Claims} {life : Int} {e : JwtEvent}

/-- The event at the position accepts the token. -/
def AcceptedAt {σ : Type} [RevocationBackend σ] (m : JwtManager J) (b : σ) (es : List JwtEvent) (token : String)
    (j : Nat) : Prop :=
  ∃ now c, es[j]? = some ⟨now, .verifyWithRevocation token⟩ ∧
    ((jwtMachine σ m).outs b es)[j]? = some (.verified (.ok c))

theorem recorded_run {s : Statement} {key : String} (hs : e.statement = some s) (hsafe : SafePrune life b e)
    (hiat : c.iat ≤ e.now) (h : b.map.RecordedFrom key c.iat) :
    (s.run b).2.map.RecordedFrom key c.iat ∨ c.iat + life + validationLeeway < e.now := by
  cases s with
  | revoke key' notBefore =>
    have hnb : c.iat ≤ notBefore := by
      rcases notBefore_of_statement hs with ⟨rfl, -⟩ | ⟨rfl, -⟩ <;> omega
    refine HashMap.recorded_insertSweep (fun x cutoff hx hle hcap hcut hlt => ?_)
      (HashMap.recorded_insert (fun _ => hnb) h)
    have hswept : b.sweeping (.revoke key' notBefore) = some (b.map.insert key' notBefore, cutoff) := by
      simp [MemoryRevocationBackend.sweeping, hcap, hcut]
    have := hsafe _ hs _ hswept (key, x) ((HashMap.get?_eq_some_iff _ _ _).1 hx) hlt
    dsimp only at this
    omega
  | cleanupBefore cutoff =>
    refine HashMap.recorded_retain (fun x hx hle hdrop => ?_) h
    have := hsafe _ hs (b.map, cutoff) rfl (key, x) ((HashMap.get?_eq_some_iff _ _ _).1 hx)
      (Int.not_le.1 (of_decide_eq_false hdrop))
    dsimp only at this
    omega

/-- **A call with a safe sweep keeps a revoked token refused.** -/
theorem refused_step (hsafe : SafePrune life b e) (hiat : c.iat ≤ e.now) (h : Refused c life b e.now) :
    Refused c life ((jwtMachine MemoryRevocationBackend m).step b e) e.now := by
  rw [jwtMachine_step]
  cases hs : e.statement with
  | none => exact h
  | some s =>
    rcases h with ⟨key, hkey, hrec⟩ | hpast
    · exact (recorded_run hs hsafe hiat hrec).imp_left (fun hrec' => ⟨key, hkey, hrec'⟩)
    · exact Or.inr hpast

theorem statement_of_revokes (h : Revokes c e) : ∃ key ∈ JwtManager.revocationKeys c, ∃ notBefore,
    e.statement = some (.revoke key notBefore) ∧ e.now ≤ notBefore := by
  obtain ⟨now, call⟩ := e
  cases call with
  | issue request => cases h
  | verifyWithRevocation token => cases h
  | revokeToken jti =>
    have hjti : c.jti = some jti := h
    exact ⟨jti, by simp [JwtManager.revocationKeys, hjti], now, rfl, Int.le_refl now⟩
  | revokeAllForUser userId =>
    obtain rfl : c.userId = userId := h
    exact ⟨c.userId, by simp [JwtManager.revocationKeys], now + 1, rfl, by dsimp only; omega⟩
  | revokeSession sessionId =>
    have hsid : c.sessionId = some sessionId := h
    exact ⟨sessionKey sessionId, by simp [JwtManager.revocationKeys, hsid], now, rfl, Int.le_refl now⟩
  | cleanupRevocation life => cases h

/-- A revocation puts a key of the token on record; the sweep of its own insertion keeps it. -/
theorem refused_of_revokes (hrev : Revokes c e) (hiat : c.iat ≤ e.now) :
    Refused c life ((jwtMachine MemoryRevocationBackend m).step b e) e.now := by
  obtain ⟨key, hkey, notBefore, hs, hle⟩ := statement_of_revokes hrev
  rw [jwtMachine_step, hs]
  obtain ⟨x, hx, rfl⟩ := b.recorded_revoke key notBefore
  exact Or.inl ⟨key, hkey, x, hx, by omega⟩

/-- **A refused token is not accepted.** -/
theorem not_accepted_of_refused (hL : J.Lawful) {iat now : Int} {r : JwtManager.IssueRequest} {token : String}
    (hissue : m.issueWithOptions iat r = .ok token) (h : Refused (m.issueClaims iat r) m.lifetimeSecs b now) (c : Claims) :
    m.verifyWithRevocation b now token ≠ .ok c := by
  intro hok
  obtain ⟨hv, hkeys⟩ := JwtManager.verifyWithRevocation_ok hok
  obtain rfl := JwtManager.verify_of_issue hL hissue hv
  rcases h with ⟨key, hkey, x, hx, hle⟩ | hpast
  · have := hkeys key hkey x hx
    omega
  · have hexp := hL.decode_exp (JwtManager.verify_ok hv)
    have : (m.issueClaims iat r).exp = (m.issueClaims iat r).iat + m.lifetimeSecs := rfl
    omega

/-- **A token revoked after its issue is never accepted again**, in every run of calls whose clock does not go back and
whose sweeps are safe for the manager's lifetime. -/
theorem revoked_never_accepted (hL : J.Lawful) {iat : Int} {r : JwtManager.IssueRequest} {token : String}
    (hissue : m.issueWithOptions iat r = .ok token) (b : MemoryRevocationBackend) (es : List JwtEvent)
    (hiat : ∀ e ∈ es, iat ≤ e.now) (hclock : es.Pairwise (fun e f => e.now ≤ f.now))
    (hsafe : (jwtMachine MemoryRevocationBackend m).Along (SafePrune m.lifetimeSecs) b es) (i j : Nat) (e : JwtEvent)
    (he : es[i]? = some e) (hrev : Revokes (m.issueClaims iat r) e) (hij : i < j) : ¬ AcceptedAt m b es token j := by
  rintro ⟨now, c, hf, hout⟩
  have hrefused := (jwtMachine MemoryRevocationBackend m).timed_invariant_after JwtEvent.now
    (fun b e => SafePrune m.lifetimeSecs b e ∧ iat ≤ e.now) (Refused (m.issueClaims iat r) m.lifetimeSecs)
    (fun _ _ _ hle h => h.imp_right (fun hpast => by omega)) (fun _ _ h hP => refused_step hP.1 hP.2 h) b es hclock
    ((jwtMachine MemoryRevocationBackend m).along_and _ _ b es hsafe hiat) i j e _ hij he hf
    (refused_of_revokes hrev (hiat e (List.mem_of_getElem? he)))
  exact not_accepted_of_refused hL hissue hrefused c
    (JwtAnswer.verified.inj ((jwtMachine MemoryRevocationBackend m).out_of_getElem? hf hout))

/-- **Sweeps with the leeway as a margin are safe**: the automatic one for a lifetime below its window by more than the
leeway, a cleanup given the leeway on top of the lifetime. -/
theorem safePrune_of_margin (hlife : life + validationLeeway < revocationAutoCleanupWindowSecs)
    (hcleanup : ∀ l, e.call = .cleanupRevocation l → life + validationLeeway ≤ l) : SafePrune life b e := by
  intro s hs swept hswept entry _ hlt
  cases s with
  | revoke key notBefore =>
    have hnb : notBefore ≤ e.now + 1 := by
      rcases notBefore_of_statement hs with ⟨rfl, -⟩ | ⟨rfl, -⟩ <;> omega
    simp only [MemoryRevocationBackend.sweeping, Option.mem_def, Option.ite_none_right_eq_some,
      Option.map_eq_some_iff] at hswept
    obtain ⟨-, cutoff, hcut, rfl⟩ := hswept
    have := Lib.subI64_eq_some hcut
    dsimp only at hlt
    omega
  | cleanupBefore cutoff =>
    obtain rfl : swept = (b.map, cutoff) := (Option.some.inj hswept).symm
    obtain ⟨now, call⟩ := e
    cases call with
    | cleanupRevocation l =>
      obtain ⟨cutoff', hcut, hcutoff⟩ := Option.map_eq_some_iff.1 hs
      obtain rfl : cutoff' = cutoff := Statement.cleanupBefore.inj hcutoff
      have := Lib.subI64_eq_some hcut
      have := hcleanup l rfl
      dsimp only at *
      omega
    | _ => cases hs

end

/-- A cleanup at the expiry keeps the record. -/
theorem revoked_never_accepted_alice :
    ¬ AcceptedAt (tableJwtManager jwtTokens) MemoryRevocationBackend.new
      [⟨1000, .revokeToken "jti-1"⟩, ⟨4600, .cleanupRevocation 3600⟩, ⟨4600, .verifyWithRevocation "token-1"⟩] "token-1" 2 :=
  revoked_never_accepted (tableJwt_lawful jwtTokens)
    (rfl : (tableJwtManager jwtTokens).issueWithOptions 1000 aliceRequest = .ok "token-1") MemoryRevocationBackend.new
    [⟨1000, .revokeToken "jti-1"⟩, ⟨4600, .cleanupRevocation 3600⟩, ⟨4600, .verifyWithRevocation "token-1"⟩]
    (by decide) (by decide) (by decide) 0 2 ⟨1000, .revokeToken "jti-1"⟩ rfl rfl (by decide)

/-- A cleanup a second later drops it, and the token is accepted within its leeway. -/
theorem accepted_after_cleanup :
    (jwtMachine MemoryRevocationBackend (tableJwtManager jwtTokens)).outs MemoryRevocationBackend.new
        [⟨1000, .issue aliceRequest⟩, ⟨1000, .revokeToken "jti-1"⟩, ⟨4600, .verifyWithRevocation "token-1"⟩,
          ⟨4601, .cleanupRevocation (tableJwtManager jwtTokens).lifetimeSecs⟩, ⟨4601, .verifyWithRevocation "token-1"⟩] =
      [.issued (.ok "token-1"), .done (some ()), .verified (.error (.error "token has been revoked")), .done (some ()),
        .verified (.ok jwtClaims)] :=
  rfl

end Auth
end Kirino
