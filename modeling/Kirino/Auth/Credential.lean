import Kirino.Lib.Fallible
import Kirino.Lib.Machine
import Kirino.Lib.Records
/-!
# Credential — signed tokens with a revocation table (`src/auth/credential/basic.rs`)

The manager issues and verifies tokens through the JWT library, and keeps revocations in a backend of three operations:
a key is a user id, a token id or a session key, its record the instant up to which tokens issued are refused.  The
manager is the same over every backend; the process-local one is here.  Clock readings are arguments, and so is the
token id an issue draws.
-/
namespace Kirino
namespace Auth

open Lib (HashMap Machine subI64 ok_of_bind ok_of_mapError)

structure Claims where
  sub : String
  userId : String
  roles : List String
  permissions : List String
  sessionId : Option String
  jti : Option String
  iat : Int
  exp : Int
deriving DecidableEq, Repr

/-! ## The JWT library -/

/-- The library's default leeway, in seconds. -/
def validationLeeway : Int := 60

/-- What the manager uses of the library: HS256 with the default header and the default validation. -/
structure JwtCrate where
  EncodingKey : Type
  DecodingKey : Type
  encodingKeyFromSecret : String → EncodingKey
  decodingKeyFromSecret : String → DecodingKey
  encode : Claims → EncodingKey → Except String String
  decode : String → DecodingKey → Int → Except String Claims

/-- What the library documents: a decoded token's claims are its payload, whatever the key and the instant; the payload
of an encoded token is what was encoded; expiry is checked with the leeway. -/
structure JwtCrate.Lawful (J : JwtCrate) : Prop where
  decode_unique : ∀ {token k k' now now' c c'}, J.decode token k now = .ok c → J.decode token k' now' = .ok c' → c = c'
  decode_encode : ∀ {c ek token k now c'}, J.encode c ek = .ok token → J.decode token k now = .ok c' → c' = c
  decode_exp : ∀ {token k now c}, J.decode token k now = .ok c → now ≤ c.exp + validationLeeway

/-! ## The revocation table -/

/-- The backend's operations; `none` is a panic. -/
class RevocationBackend (σ : Type) where
  revoke : σ → String → Int → Option Unit × σ
  getNotBefore : σ → String → Option Int
  cleanupBefore : σ → Int → σ

structure MemoryRevocationBackend where
  map : HashMap String Int

def revocationMaxEntries : Nat := 50000

def revocationAutoCleanupWindowSecs : Int := 86400 * 7

namespace MemoryRevocationBackend

def new : MemoryRevocationBackend := ⟨HashMap.empty⟩

def revoke (b : MemoryRevocationBackend) (key : String) (notBefore : Int) : Option Unit × MemoryRevocationBackend :=
  let r := b.map.insertSweep revocationMaxEntries key notBefore (subI64 notBefore revocationAutoCleanupWindowSecs)
  (r.1, ⟨r.2⟩)

def getNotBefore (b : MemoryRevocationBackend) (key : String) : Option Int := b.map.get? key

def cleanupBefore (b : MemoryRevocationBackend) (cutoff : Int) : MemoryRevocationBackend :=
  ⟨b.map.retain (fun _ nb => decide (nb ≥ cutoff))⟩

instance : RevocationBackend MemoryRevocationBackend := ⟨revoke, getNotBefore, cleanupBefore⟩

/-- A revocation stands, its own sweep cutting before it. -/
theorem recorded_revoke (b : MemoryRevocationBackend) (key : String) (notBefore : Int) :
    (b.revoke key notBefore).2.map.Recorded key (fun x => x = notBefore) := by
  refine HashMap.recorded_insertSweep_self (fun limit hlimit => ?_)
  have := Lib.subI64_eq_some hlimit
  unfold revocationAutoCleanupWindowSecs at this
  omega

end MemoryRevocationBackend

/-! ## The manager -/

/-- How a call ends that does not return a value. -/
inductive Fault where
  | error (text : String)
  | panicked
deriving DecidableEq, Repr

def minJwtSecretLength : Nat := 32

def maxJwtExpirationHours : Int := 87600

/-- The last second of a date-time. -/
def maxTimestamp : Int := 8210266876799

/-- The lifetime is clamped when the manager is built. -/
structure JwtManager (J : JwtCrate) where
  encodingKey : J.EncodingKey
  decodingKey : J.DecodingKey
  expirationHours : Int
  clamped : 1 ≤ expirationHours ∧ expirationHours ≤ maxJwtExpirationHours

def sessionKey (sessionId : String) : String := "session:" ++ sessionId

section
variable {J : JwtCrate} {σ : Type}

namespace JwtManager

def new (J : JwtCrate) (secret : String) (expirationHours : Int) : Except String (JwtManager J) :=
  if secret.utf8ByteSize < minJwtSecretLength then
    .error "JWT secret must be at least 32 bytes for HS256 security"
  else
    .ok ⟨J.encodingKeyFromSecret secret, J.decodingKeyFromSecret secret,
      max 1 (min expirationHours maxJwtExpirationHours), by unfold maxJwtExpirationHours; omega⟩

/-- A manager built again, with the lifetime it was given, has the same lifetime. -/
theorem new_expirationHours {secret : String} {expirationHours : Int} {m : JwtManager J}
    (h : new J secret expirationHours = .ok m) : new J secret m.expirationHours = .ok m := by
  unfold new at h ⊢
  split at h
  · nomatch h
  · next hlen =>
    have hagain : max 1 (min (max 1 (min expirationHours maxJwtExpirationHours)) maxJwtExpirationHours) =
        max 1 (min expirationHours maxJwtExpirationHours) := by
      unfold maxJwtExpirationHours
      omega
    obtain rfl := Except.ok.inj h
    rw [if_neg hlen]
    simp only [hagain]

/-- The configured lifetime, in seconds. -/
def lifetimeSecs (m : JwtManager J) : Int := m.expirationHours * 3600

/-- What an issue draws and is given. -/
structure IssueRequest where
  jti : String
  userId : String
  username : String
  roles : List String
  permissions : List String
  sessionId : Option String

def issueClaims (m : JwtManager J) (now : Int) (r : IssueRequest) : Claims :=
  { sub := r.username, userId := r.userId, roles := r.roles, permissions := r.permissions, sessionId := r.sessionId,
    jti := some r.jti, iat := now, exp := now + m.lifetimeSecs }

/-- The sum of a date-time and the lifetime panics past the last date-time. -/
def issueWithOptions (m : JwtManager J) (now : Int) (r : IssueRequest) : Except Fault String :=
  if now + m.lifetimeSecs ≤ maxTimestamp then
    (J.encode (m.issueClaims now r) m.encodingKey).mapError (fun e => .error ("JWT encode failed: " ++ e))
  else .error .panicked

def verify (m : JwtManager J) (now : Int) (token : String) : Except Fault Claims :=
  (J.decode token m.decodingKey now).mapError (fun e => .error ("JWT verify failed: " ++ e))

section Backend
variable [RevocationBackend σ]

open RevocationBackend (getNotBefore)

/-- The test of the record of one key. -/
def checkNotBefore (b : σ) (claims : Claims) (key : String) : Except Fault Unit :=
  match getNotBefore b key with
  | some notBefore => if claims.iat ≤ notBefore then .error (.error "token has been revoked") else .ok ()
  | none => .ok ()

/-- The test of a key the claims may lack. -/
def checkPresent (b : σ) (claims : Claims) : Option String → Except Fault Unit
  | some key => checkNotBefore b claims key
  | none => .ok ()

def verifyWithRevocation (m : JwtManager J) (b : σ) (now : Int) (token : String) : Except Fault Claims := do
  let claims ← m.verify now token
  checkNotBefore b claims claims.userId
  checkPresent b claims claims.jti
  checkPresent b claims (claims.sessionId.map sessionKey)
  return claims

def revokeToken (b : σ) (now : Int) (jti : String) : Option Unit × σ := RevocationBackend.revoke b jti now

/-- A date-time's seconds are never the last of a signed 64-bit integer. -/
def revokeAllForUser (b : σ) (now : Int) (userId : String) : Option Unit × σ :=
  RevocationBackend.revoke b userId (now + 1)

def revokeSession (b : σ) (now : Int) (sessionId : String) : Option Unit × σ :=
  RevocationBackend.revoke b (sessionKey sessionId) now

def cleanupRevocation (b : σ) (now maxTokenLifetimeSecs : Int) : Option Unit × σ :=
  match subI64 now maxTokenLifetimeSecs with
  | some cutoff => (some (), RevocationBackend.cleanupBefore b cutoff)
  | none => (none, b)

end Backend

end JwtManager

/-! ## Runs of calls -/

inductive JwtCall where
  | issue (request : JwtManager.IssueRequest)
  | verifyWithRevocation (token : String)
  | revokeToken (jti : String)
  | revokeAllForUser (userId : String)
  | revokeSession (sessionId : String)
  | cleanupRevocation (maxTokenLifetimeSecs : Int)

/-- A call and the clock reading it is made with. -/
structure JwtEvent where
  now : Int
  call : JwtCall

inductive JwtAnswer where
  | issued (result : Except Fault String)
  | verified (result : Except Fault Claims)
  | done (result : Option Unit)

section
variable [RevocationBackend σ]

def jwtAnswer (m : JwtManager J) (b : σ) (e : JwtEvent) : JwtAnswer × σ :=
  match e.call with
  | .issue request => (.issued (m.issueWithOptions e.now request), b)
  | .verifyWithRevocation token => (.verified (m.verifyWithRevocation b e.now token), b)
  | .revokeToken jti =>
    let r := JwtManager.revokeToken b e.now jti
    (.done r.1, r.2)
  | .revokeAllForUser userId =>
    let r := JwtManager.revokeAllForUser b e.now userId
    (.done r.1, r.2)
  | .revokeSession sessionId =>
    let r := JwtManager.revokeSession b e.now sessionId
    (.done r.1, r.2)
  | .cleanupRevocation life =>
    let r := JwtManager.cleanupRevocation b e.now life
    (.done r.1, r.2)

def jwtMachine (σ : Type) [RevocationBackend σ] (m : JwtManager J) : Machine σ JwtEvent JwtAnswer where
  step b e := (jwtAnswer m b e).2
  out b e := (jwtAnswer m b e).1

end

/-- The statement a call makes of the backend, when it makes one. -/
inductive Statement where
  | revoke (key : String) (notBefore : Int)
  | cleanupBefore (cutoff : Int)

def JwtEvent.statement (e : JwtEvent) : Option Statement :=
  match e.call with
  | .revokeToken jti => some (.revoke jti e.now)
  | .revokeAllForUser userId => some (.revoke userId (e.now + 1))
  | .revokeSession sessionId => some (.revoke (sessionKey sessionId) e.now)
  | .cleanupRevocation life => (subI64 e.now life).map .cleanupBefore
  | _ => none

def Statement.run [RevocationBackend σ] (b : σ) : Statement → Option Unit × σ
  | .revoke key notBefore => RevocationBackend.revoke b key notBefore
  | .cleanupBefore cutoff => (some (), RevocationBackend.cleanupBefore b cutoff)

/-- **A call changes the backend by its statement, or not at all.** -/
theorem jwtMachine_step [RevocationBackend σ] (m : JwtManager J) (b : σ) (e : JwtEvent) :
    (jwtMachine σ m).step b e = match e.statement with
      | some s => (s.run b).2
      | none => b := by
  obtain ⟨now, call⟩ := e
  cases call with
  | issue request => rfl
  | verifyWithRevocation token => rfl
  | revokeToken jti => rfl
  | revokeAllForUser userId => rfl
  | revokeSession sessionId => rfl
  | cleanupRevocation life =>
    simp only [jwtMachine, jwtAnswer, JwtManager.cleanupRevocation, JwtEvent.statement]
    cases subI64 now life <;> rfl

theorem jwtMachine_out_congr {τ : Type} [RevocationBackend σ] [RevocationBackend τ] (m : JwtManager J) {b : σ} {b' : τ}
    {e : JwtEvent} (hread : ∀ now token, m.verifyWithRevocation b now token = m.verifyWithRevocation b' now token)
    (hrun : ∀ s, e.statement = some s → (s.run b).1 = (s.run b').1) :
    (jwtMachine σ m).out b e = (jwtMachine τ m).out b' e := by
  obtain ⟨now, call⟩ := e
  cases call with
  | issue request => rfl
  | verifyWithRevocation token => exact congrArg JwtAnswer.verified (hread now token)
  | revokeToken jti => exact congrArg JwtAnswer.done (hrun _ rfl)
  | revokeAllForUser userId => exact congrArg JwtAnswer.done (hrun _ rfl)
  | revokeSession sessionId => exact congrArg JwtAnswer.done (hrun _ rfl)
  | cleanupRevocation life =>
    simp only [jwtMachine, jwtAnswer, JwtManager.cleanupRevocation]
    cases subI64 now life <;> rfl

theorem notBefore_of_statement {e : JwtEvent} {key : String} {notBefore : Int}
    (h : e.statement = some (.revoke key notBefore)) :
    notBefore = e.now ∧ (∀ userId, e.call ≠ .revokeAllForUser userId) ∨
      notBefore = e.now + 1 ∧ e.call = .revokeAllForUser key := by
  obtain ⟨now, call⟩ := e
  cases call with
  | issue request => cases h
  | verifyWithRevocation token => cases h
  | revokeToken jti => cases h; exact Or.inl ⟨rfl, nofun⟩
  | revokeAllForUser userId => cases h; exact Or.inr ⟨rfl, rfl⟩
  | revokeSession sessionId => cases h; exact Or.inl ⟨rfl, nofun⟩
  | cleanupRevocation life => simp [JwtEvent.statement] at h

/-! ## What an accepted token is refused by -/

namespace JwtManager

variable {m : JwtManager J}

/-- The keys whose records may refuse a token with the claims. -/
def revocationKeys (c : Claims) : List String := c.userId :: (c.jti.toList ++ (c.sessionId.map sessionKey).toList)

theorem verify_ok {now : Int} {token : String} {c : Claims} (h : m.verify now token = .ok c) :
    J.decode token m.decodingKey now = .ok c :=
  ok_of_mapError h

theorem verify_of_issue (hL : J.Lawful) {iat now : Int} {r : IssueRequest} {token : String} {c : Claims}
    (hissue : m.issueWithOptions iat r = .ok token) (h : m.verify now token = .ok c) : c = m.issueClaims iat r := by
  unfold issueWithOptions at hissue
  split at hissue
  · exact hL.decode_encode (ok_of_mapError hissue) (verify_ok h)
  · cases hissue

variable [RevocationBackend σ] {b : σ}

theorem checkNotBefore_ok {c : Claims} {key : String} (h : checkNotBefore b c key = .ok ()) {notBefore : Int}
    (hrec : RevocationBackend.getNotBefore b key = some notBefore) : notBefore < c.iat := by
  unfold checkNotBefore at h
  rw [hrec] at h
  by_cases hle : c.iat ≤ notBefore
  · simp [hle] at h
  · omega

/-- **An accepted token verifies, and is issued after the record of each of its keys.** -/
theorem verifyWithRevocation_ok {now : Int} {token : String} {c : Claims}
    (h : m.verifyWithRevocation b now token = .ok c) : m.verify now token = .ok c ∧
      ∀ key ∈ revocationKeys c, ∀ notBefore, RevocationBackend.getNotBefore b key = some notBefore → notBefore < c.iat := by
  unfold verifyWithRevocation at h
  obtain ⟨claims, hv, h⟩ := ok_of_bind h
  obtain ⟨⟨⟩, huser, h⟩ := ok_of_bind h
  obtain ⟨⟨⟩, hjti, h⟩ := ok_of_bind h
  obtain ⟨⟨⟩, hsid, h⟩ := ok_of_bind h
  obtain rfl : claims = c := Except.ok.inj h
  refine ⟨hv, fun key hkey notBefore hrec => ?_⟩
  simp only [revocationKeys, List.mem_cons, List.mem_append, Option.mem_toList] at hkey
  rcases hkey with rfl | hj | hs
  · exact checkNotBefore_ok huser hrec
  · rw [hj] at hjti
    exact checkNotBefore_ok hjti hrec
  · rw [hs] at hsid
    exact checkNotBefore_ok hsid hrec

theorem checkNotBefore_eq_ok {c : Claims} {key : String}
    (h : ∀ notBefore, RevocationBackend.getNotBefore b key = some notBefore → notBefore < c.iat) :
    checkNotBefore b c key = .ok () := by
  unfold checkNotBefore
  cases hrec : RevocationBackend.getNotBefore b key with
  | none => rfl
  | some notBefore => exact if_neg (Int.not_le.2 (h notBefore hrec))

theorem checkPresent_eq_ok {c : Claims} {key : Option String} (h : ∀ k ∈ key, checkNotBefore b c k = .ok ()) :
    checkPresent b c key = .ok () := by
  cases key with
  | none => rfl
  | some k => exact h k rfl

/-- **The backend changes no answer exactly when every token that verifies is issued after the record of each of its
keys.** -/
theorem verifyWithRevocation_eq_verify_iff {now : Int} {token : String} :
    m.verifyWithRevocation b now token = m.verify now token ↔
      ∀ c, m.verify now token = .ok c → ∀ key ∈ revocationKeys c, ∀ notBefore,
        RevocationBackend.getNotBefore b key = some notBefore → notBefore < c.iat := by
  refine ⟨fun h c hv => (verifyWithRevocation_ok (h.trans hv)).2, fun h => ?_⟩
  unfold verifyWithRevocation
  cases hv : m.verify now token with
  | error e => rfl
  | ok c =>
    have hcheck : ∀ key ∈ revocationKeys c, checkNotBefore b c key = .ok () :=
      fun key hkey => checkNotBefore_eq_ok (h c hv key hkey)
    have huser := hcheck c.userId (by simp [revocationKeys])
    have hjti : checkPresent b c c.jti = .ok () := checkPresent_eq_ok
      (fun k hk => hcheck k (by simp [revocationKeys, Option.mem_def.1 hk]))
    have hsid : checkPresent b c (c.sessionId.map sessionKey) = .ok () := checkPresent_eq_ok
      (fun k hk => hcheck k (by simp [revocationKeys, Option.mem_def.1 hk]))
    change (checkNotBefore b c c.userId >>= fun _ => checkPresent b c c.jti >>= fun _ =>
      checkPresent b c (c.sessionId.map sessionKey) >>= fun _ => Except.ok c) = Except.ok c
    rw [huser, hjti, hsid]
    rfl

/-- **Backends with the same records answer alike.** -/
theorem verifyWithRevocation_congr {τ : Type} [RevocationBackend τ] {b' : τ}
    (h : ∀ key, RevocationBackend.getNotBefore b key = RevocationBackend.getNotBefore b' key) (now : Int)
    (token : String) : m.verifyWithRevocation b now token = m.verifyWithRevocation b' now token := by
  have hcheck : (checkNotBefore b : Claims → String → Except Fault Unit) = checkNotBefore b' := by
    funext c key
    simp [checkNotBefore, h]
  have hpresent : (checkPresent b : Claims → Option String → Except Fault Unit) = checkPresent b' := by
    funext c key
    cases key <;> simp [checkPresent, hcheck]
  simp only [verifyWithRevocation, hcheck, hpresent]

end JwtManager

end

/-! ## A library of known tokens -/

/-- A library for a test: the tokens and their claims are a table, and a token decodes under the key "secret" with the
library's check of the expiry. -/
def tableJwt (table : List (String × Claims)) : JwtCrate where
  EncodingKey := String
  DecodingKey := String
  encodingKeyFromSecret := id
  decodingKeyFromSecret := id
  encode c _ :=
    match table.find? (fun e => decide (e.2 = c ∧ table.lookup e.1 = some c)) with
    | some e => .ok e.1
    | none => .error "unknown claims"
  decode token key now :=
    match table.lookup token with
    | some c =>
      if c.exp + validationLeeway < now then .error "ExpiredSignature"
      else if key = "secret" then .ok c
      else .error "InvalidSignature"
    | none => .error "InvalidToken"

theorem tableJwt_decode {table : List (String × Claims)} {token key : String} {now : Int} {c : Claims}
    (h : (tableJwt table).decode token key now = .ok c) :
    table.lookup token = some c ∧ now ≤ c.exp + validationLeeway := by
  simp only [tableJwt] at h
  cases hl : table.lookup token with
  | none => rw [hl] at h; cases h
  | some c' =>
    rw [hl] at h
    by_cases hexp : c'.exp + validationLeeway < now
    · simp [hexp] at h
    · by_cases hkey : key = "secret"
      · simp only [hexp, hkey, if_true, if_false] at h
        obtain rfl := Except.ok.inj h
        exact ⟨rfl, Int.not_lt.1 hexp⟩
      · simp [hexp, hkey] at h

theorem tableJwt_lawful (table : List (String × Claims)) : (tableJwt table).Lawful where
  decode_unique h h' := Option.some.inj ((tableJwt_decode h).1.symm.trans (tableJwt_decode h').1)
  decode_encode {c ek token k now c'} he hd := by
    simp only [tableJwt] at he
    cases hf : table.find? (fun e => decide (e.2 = c ∧ table.lookup e.1 = some c)) with
    | none => rw [hf] at he; cases he
    | some e =>
      rw [hf] at he
      obtain rfl : e.1 = token := Except.ok.inj he
      have hfound := List.find?_some hf
      exact Option.some.inj ((tableJwt_decode hd).1.symm.trans (of_decide_eq_true hfound).2)
  decode_exp h := (tableJwt_decode h).2

def tableJwtManager (table : List (String × Claims)) : JwtManager (tableJwt table) :=
  ⟨"secret", "secret", 1, by decide⟩

def jwtClaims : Claims :=
  { sub := "alice", userId := "user-1", roles := ["admin"], permissions := [], sessionId := some "sess-123",
    jti := some "jti-1", iat := 1000, exp := 4600 }

def jwtTokens : List (String × Claims) := [("token-1", jwtClaims)]

def aliceRequest : JwtManager.IssueRequest := ⟨"jti-1", "user-1", "alice", ["admin"], [], some "sess-123"⟩

end Auth
end Kirino
