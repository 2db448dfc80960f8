import Kirino.Auth.Credential
import Kirino.Auth.Webauthn.CborWalk
/-!
# AuthData — authenticator data (`auth/passport/webauthn/auth_data.rs`)

A header of 37 bytes, attested credential data where the AT flag is set, and extension data where the ED flag is set, with
nothing left over.  What is parsed are exactly the concatenations of such fields (`parse_exact`).
-/
namespace Kirino
namespace Auth
namespace Webauthn

open Lib (ok_of_bind)
open Lib.Cbor (beNat beBytes length_beBytes beNat_beBytes beNat_lt beBytes_beNat IsItem)

def flagUp : UInt8 := 0x01

def flagUv : UInt8 := 0x04

def flagBe : UInt8 := 0x08

def flagBs : UInt8 := 0x10

def flagAt : UInt8 := 0x40

def flagEd : UInt8 := 0x80

def headerLen : Nat := 37

def aaguidLen : Nat := 16

def maxCredentialIdLen : Nat := 2048

/-- A slice is no longer than the largest `isize`. -/
structure ByteSlice where
  bytes : List UInt8
  fits : bytes.length < 2 ^ 63

structure AttestedCredentialData where
  aaguid : List UInt8
  credentialId : List UInt8
  credentialPublicKeyCbor : List UInt8
deriving DecidableEq, Repr

structure AuthenticatorData where
  raw : List UInt8
  rpIdHash : List UInt8
  flags : UInt8
  signCount : Nat
  attested : Option AttestedCredentialData
deriving DecidableEq, Repr

/-- The flag is set. -/
def hasFlag (flags flag : UInt8) : Bool := decide (flags &&& flag ≠ 0)

namespace AuthenticatorData

def userPresent (data : AuthenticatorData) : Bool := hasFlag data.flags flagUp

def userVerified (data : AuthenticatorData) : Bool := hasFlag data.flags flagUv

def backupEligible (data : AuthenticatorData) : Bool := hasFlag data.flags flagBe

def backupState (data : AuthenticatorData) : Bool := hasFlag data.flags flagBs

end AuthenticatorData

/-! ## Reading slices -/

/-- The byte at an index, which panics past the end. -/
def byteAt (raw : List UInt8) (i : Nat) : Except Fault UInt8 :=
  match raw[i]? with
  | some b => .ok b
  | none => .error .panicked

/-- The bytes of a range, none past the end. -/
def getRange (raw : List UInt8) (start stop : Nat) : Option (List UInt8) :=
  if start ≤ stop ∧ stop ≤ raw.length then some ((raw.take stop).drop start) else none

/-- The bytes of a range, which panics past the end. -/
def sliceRange (raw : List UInt8) (start stop : Nat) : Except Fault (List UInt8) :=
  match getRange raw start stop with
  | some bytes => .ok bytes
  | none => .error .panicked

def orError {α : Type} (text : String) : Option α → Except Fault α
  | some a => .ok a
  | none => .error (.error text)

/-- The length of the item at the cursor. -/
def itemLenAt (raw : List UInt8) (cursor : Nat) (text : String) : Except Fault Nat := do
  let rest ← sliceRange raw cursor raw.length
  match cborItemLen rest with
  | .ok len => .ok len
  | .error .refused => .error (.error text)
  | .error .panicked => .error .panicked

/-- A sum of `usize`s. -/
def addUsize (x y : Nat) : Except Fault Nat :=
  match Lib.addU64 x y with
  | some sum => .ok sum
  | none => .error .panicked

/-! ## The parser -/

/-- The credential id and the key at the cursor. -/
def parseCredential (raw aaguid : List UInt8) (cursor credLen : Nat) : Except Fault (AttestedCredentialData × Nat) := do
  let credentialId ← orError "attested credential id truncated" (getRange raw cursor (cursor + credLen))
  let cursor := cursor + credLen
  let len ← itemLenAt raw cursor "credential public key CBOR truncated"
  let keyEnd ← addUsize len cursor
  let keySlice ← orError "credential public key CBOR overruns buffer" (getRange raw cursor keyEnd)
  .ok (⟨aaguid, credentialId, keySlice⟩, keyEnd)

/-- The attested credential data at the end of the header, and where it ends. -/
def parseAttested (raw : List UInt8) : Except Fault (AttestedCredentialData × Nat) := do
  if raw.length < headerLen + aaguidLen + 2 then
    .error (.error "attested credential data truncated at AAGUID")
  else do
    let aaguid ← sliceRange raw headerLen (headerLen + aaguidLen)
    let cursor := headerLen + aaguidLen
    let high ← byteAt raw cursor
    let low ← byteAt raw (cursor + 1)
    let credLen := beNat [high, low]
    if credLen = 0 then .error (.error "credential id must not be empty")
    else if maxCredentialIdLen < credLen then
      .error (.error ("credential id length " ++ toString credLen ++ " exceeds limit"))
    else parseCredential raw aaguid (cursor + 2) credLen

/-- The attested credential data, where the flags say so, and where it ends. -/
def attestedSection (raw : List UInt8) (flags : UInt8) : Except Fault (Option AttestedCredentialData × Nat) :=
  if hasFlag flags flagAt then (parseAttested raw).map (fun p => (some p.1, p.2)) else .ok (none, headerLen)

/-- The extension data, where the flags say so: where it ends. -/
def extensionSection (raw : List UInt8) (flags : UInt8) (cursor : Nat) : Except Fault Nat :=
  if hasFlag flags flagEd then do
    let len ← itemLenAt raw cursor "extension data CBOR truncated"
    addUsize cursor len
  else .ok cursor

/-- The cursor is at the end. -/
def checkTrailing (raw : List UInt8) (cursor : Nat) : Except Fault Unit :=
  if cursor = raw.length then .ok ()
  else if raw.length < cursor then .error .panicked
  else .error (.error ("trailing bytes after authenticatorData: " ++ toString (raw.length - cursor) ++ " extra"))

def AuthenticatorData.parse (slice : ByteSlice) : Except Fault AuthenticatorData :=
  let raw := slice.bytes
  if raw.length < headerLen then
    .error (.error ("authenticatorData too short: " ++ toString raw.length ++ " < " ++ toString headerLen))
  else do
    let flags ← byteAt raw 32
    let b0 ← byteAt raw 33
    let b1 ← byteAt raw 34
    let b2 ← byteAt raw 35
    let b3 ← byteAt raw 36
    let (attested, cursor) ← attestedSection raw flags
    let cursor ← extensionSection raw flags cursor
    checkTrailing raw cursor
    let rpIdHash ← sliceRange raw 0 32
    .ok ⟨raw, rpIdHash, flags, beNat [b0, b1, b2, b3], attested⟩

/-! ## The fields -/

namespace AttestedCredentialData

def concat (attested : AttestedCredentialData) : List UInt8 :=
  attested.aaguid ++ (beBytes 2 attested.credentialId.length ++
    (attested.credentialId ++ attested.credentialPublicKeyCbor))

structure WellFormed (attested : AttestedCredentialData) : Prop where
  aaguid : attested.aaguid.length = aaguidLen
  credentialId : 1 ≤ attested.credentialId.length ∧ attested.credentialId.length ≤ maxCredentialIdLen
  key : IsItem (maxCborDepth + 1) attested.credentialPublicKeyCbor

end AttestedCredentialData

/-- The fields of authenticator data, those present that the flags say. -/
structure AuthDataFields where
  rpIdHash : List UInt8
  flags : UInt8
  signCount : Nat
  attested : Option AttestedCredentialData
  extension : Option (List UInt8)
  rpIdHash_length : rpIdHash.length = 32
  signCount_lt : signCount < 2 ^ 32
  attested_isSome : attested.isSome = hasFlag flags flagAt
  attested_wellFormed : ∀ a, attested = some a → a.WellFormed
  extension_isSome : extension.isSome = hasFlag flags flagEd
  extension_item : ∀ e, extension = some e → IsItem (maxCborDepth + 1) e

namespace AuthDataFields

/-- The bytes of the fields, one after the other. -/
def concat (fields : AuthDataFields) : List UInt8 :=
  fields.rpIdHash ++ (fields.flags :: (beBytes 4 fields.signCount ++
    ((fields.attested.map AttestedCredentialData.concat).getD [] ++ fields.extension.getD [])))

/-- What is read of the fields. -/
def view (fields : AuthDataFields) : AuthenticatorData :=
  ⟨fields.concat, fields.rpIdHash, fields.flags, fields.signCount, fields.attested⟩

end AuthDataFields

/-! ## Reading at a place -/

section Reading
variable {before x tail : List UInt8}

theorem getRange_append : getRange (before ++ (x ++ tail)) before.length (before.length + x.length) = some x := by
  unfold getRange
  rw [if_pos (by simp only [List.length_append]; omega), ← List.append_assoc, ← List.length_append, List.take_left,
    List.drop_left]

theorem getRange_past {n : Nat} (h : tail.length < n) :
    getRange (before ++ tail) before.length (before.length + n) = none := by
  unfold getRange
  rw [if_neg]
  rw [List.length_append]
  omega

theorem sliceRange_append (before x tail : List UInt8) :
    sliceRange (before ++ (x ++ tail)) before.length (before.length + x.length) = .ok x := by
  unfold sliceRange
  rw [getRange_append]

theorem byteAt_append (before tail : List UInt8) (b : UInt8) : byteAt (before ++ b :: tail) before.length = .ok b := by
  unfold byteAt
  rw [List.getElem?_append_right (Nat.le_refl _), Nat.sub_self]
  rfl

/-- **The item at a place**: its length is found exactly when there is one. -/
theorem itemLenAt_spec (hfits : (before ++ tail).length < 2 ^ 63) (text : String) :
    itemLenAt (before ++ tail) before.length text ≠ .error .panicked ∧
      ∀ len, itemLenAt (before ++ tail) before.length text = .ok len ↔
        ∃ x rest, tail = x ++ rest ∧ x.length = len ∧ IsItem (maxCborDepth + 1) x := by
  have hslice : sliceRange (before ++ tail) before.length (before ++ tail).length = .ok tail := by
    have happend := sliceRange_append before tail []
    rwa [List.append_nil, ← List.length_append] at happend
  rw [List.length_append] at hfits
  obtain ⟨hsafe, hlen⟩ := measures_cborItemLenDepth (maxCborDepth + 1) tail (by omega)
  have hread : itemLenAt (before ++ tail) before.length text = match cborItemLenDepth (maxCborDepth + 1) tail with
      | .ok len => .ok len
      | .error .refused => .error (.error text)
      | .error .panicked => .error .panicked := by
    unfold itemLenAt
    rw [hslice]
    rfl
  rw [hread]
  cases hitem : cborItemLenDepth (maxCborDepth + 1) tail with
  | ok found =>
    refine ⟨nofun, fun len => ?_⟩
    rw [← hlen, hitem]
    exact ⟨fun h => congrArg Except.ok (Except.ok.inj h), fun h => congrArg Except.ok (Except.ok.inj h)⟩
  | error stop =>
    cases stop with
    | panicked => exact absurd hitem hsafe
    | refused =>
      refine ⟨nofun, fun len => ?_⟩
      rw [← hlen, hitem]
      exact ⟨nofun, nofun⟩

theorem addUsize_eq {x y : Nat} (h : x + y < 2 ^ 64) : addUsize x y = .ok (x + y) := by
  unfold addUsize
  rw [show Lib.addU64 x y = some (x + y) from if_pos h]

/-- **The extension data** is one item, when the flags say that it is there. -/
theorem extensionSection_spec (hfits : (before ++ tail).length < 2 ^ 63) (flags : UInt8) :
    extensionSection (before ++ tail) flags before.length ≠ .error .panicked ∧
      ∀ stop, extensionSection (before ++ tail) flags before.length = .ok stop ↔
        ∃ (extension : Option (List UInt8)) (rest : List UInt8),
          tail = extension.getD [] ++ rest ∧ stop = before.length + (extension.getD []).length ∧
          extension.isSome = hasFlag flags flagEd ∧ ∀ e, extension = some e → IsItem (maxCborDepth + 1) e := by
  unfold extensionSection
  cases hflag : hasFlag flags flagEd with
  | false =>
    refine ⟨nofun, fun stop => ⟨fun h => ?_, ?_⟩⟩
    · exact ⟨none, tail, rfl, (Except.ok.inj h).symm, rfl, nofun⟩
    · rintro ⟨extension, rest, -, rfl, hnone, -⟩
      obtain rfl := Option.isSome_eq_false_iff.1 hnone |> Option.isNone_iff_eq_none.1
      rfl
  | true =>
    obtain ⟨hsafe, hlen⟩ := itemLenAt_spec hfits "extension data CBOR truncated"
    show (itemLenAt _ _ _).bind _ ≠ _ ∧ ∀ stop, (itemLenAt _ _ _).bind _ = _ ↔ _
    cases hitem : itemLenAt (before ++ tail) before.length "extension data CBOR truncated" with
    | error e =>
      refine ⟨fun hpanic => hsafe (hitem.trans hpanic), fun stop => ⟨nofun, ?_⟩⟩
      rintro ⟨extension, rest, hsplit, -, hsome, hx⟩
      obtain ⟨x, rfl⟩ := Option.isSome_iff_exists.1 hsome
      cases hitem.symm.trans ((hlen _).2 ⟨x, rest, hsplit, rfl, hx x rfl⟩)
    | ok len =>
      obtain ⟨x, rest, rfl, rfl, hx⟩ := (hlen len).1 hitem
      simp only [List.length_append] at hfits
      show addUsize _ _ ≠ _ ∧ ∀ stop, addUsize _ _ = _ ↔ _
      rw [addUsize_eq (by omega)]
      refine ⟨nofun, fun stop => ⟨fun hok => ?_, ?_⟩⟩
      · refine ⟨some x, rest, rfl, (Except.ok.inj hok).symm, rfl, fun e he => ?_⟩
        rwa [← Option.some.inj he]
      · rintro ⟨extension, rest', hsplit, rfl, hsome, hx'⟩
        obtain ⟨x', rfl⟩ := Option.isSome_iff_exists.1 hsome
        rw [Except.ok.inj (hitem.symm.trans ((hlen _).2 ⟨x', rest', hsplit, rfl, hx' x' rfl⟩))]
        rfl

end Reading

/-! ## Attested credential data -/

section Attested
variable {aaguid tail : List UInt8} {high low : UInt8} {attested : AttestedCredentialData} {rest : List UInt8}

theorem length_concat (h : attested.WellFormed) : aaguidLen + 2 ≤ attested.concat.length := by
  unfold AttestedCredentialData.concat
  rw [List.length_append, h.aaguid, List.length_append, length_beBytes]
  omega

theorem concat_split (h : attested.WellFormed) (haaguid : aaguid.length = aaguidLen)
    (hsplit : aaguid ++ high :: low :: tail = attested.concat ++ rest) :
    attested.aaguid = aaguid ∧ attested.credentialId.length = beNat [high, low] ∧
      tail = attested.credentialId ++ (attested.credentialPublicKeyCbor ++ rest) := by
  unfold AttestedCredentialData.concat at hsplit
  rw [List.append_assoc] at hsplit
  obtain ⟨rfl, htail⟩ := List.append_inj hsplit (haaguid.trans h.aaguid.symm)
  have hlength : [high, low] ++ tail =
      beBytes 2 attested.credentialId.length ++ ((attested.credentialId ++ attested.credentialPublicKeyCbor) ++ rest) := by
    rw [← List.append_assoc]
    exact htail
  obtain ⟨hbytes, rfl⟩ := List.append_inj hlength (length_beBytes 2 _).symm
  refine ⟨rfl, ?_, List.append_assoc _ _ _⟩
  have hle := h.credentialId.2
  have hmax : maxCredentialIdLen < 256 ^ 2 := by decide
  rw [hbytes, beNat_beBytes 2 _ (by omega)]

theorem parseCredential_eq {here credentialId : List UInt8} (aaguid tail : List UInt8) :
    parseCredential (here ++ (credentialId ++ tail)) aaguid here.length credentialId.length =
      (itemLenAt (here ++ (credentialId ++ tail)) (here.length + credentialId.length)
        "credential public key CBOR truncated").bind (fun len =>
          (addUsize len (here.length + credentialId.length)).bind (fun keyEnd =>
            (orError "credential public key CBOR overruns buffer" (getRange (here ++ (credentialId ++ tail))
              (here.length + credentialId.length) keyEnd)).bind (fun keySlice =>
                .ok (⟨aaguid, credentialId, keySlice⟩, keyEnd)))) := by
  unfold parseCredential
  rw [getRange_append]
  rfl

/-- A key that is there is read whole, since no sum overflows. -/
theorem parseCredential_of_itemLen {here credentialId key rest : List UInt8} (aaguid : List UInt8)
    (hfits : (here ++ (credentialId ++ (key ++ rest))).length < 2 ^ 63)
    (hitem : itemLenAt (here ++ (credentialId ++ (key ++ rest))) (here.length + credentialId.length)
      "credential public key CBOR truncated" = .ok key.length) :
    parseCredential (here ++ (credentialId ++ (key ++ rest))) aaguid here.length credentialId.length =
      .ok (⟨aaguid, credentialId, key⟩, here.length + credentialId.length + key.length) := by
  have hsum : addUsize key.length (here.length + credentialId.length) =
      .ok (here.length + credentialId.length + key.length) := by
    simp only [List.length_append] at hfits
    rw [addUsize_eq (by omega), Nat.add_comm]
  have hget : getRange (here ++ (credentialId ++ (key ++ rest))) (here.length + credentialId.length)
      (here.length + credentialId.length + key.length) = some key := by
    rw [← List.append_assoc, ← List.length_append]
    exact getRange_append
  rw [parseCredential_eq, hitem]
  show (addUsize _ _).bind _ = _
  rw [hsum]
  show (orError _ (getRange _ _ _)).bind _ = _
  rw [hget]
  rfl

/-- **The credential id and the key** stand at the cursor. -/
theorem parseCredential_spec {here : List UInt8} (aaguid : List UInt8) (credLen : Nat)
    (hfits : (here ++ tail).length < 2 ^ 63) : parseCredential (here ++ tail) aaguid here.length credLen ≠ .error .panicked ∧
      ∀ attested stop, parseCredential (here ++ tail) aaguid here.length credLen = .ok (attested, stop) ↔
        ∃ rest, attested.aaguid = aaguid ∧ attested.credentialId.length = credLen ∧
          tail = attested.credentialId ++ (attested.credentialPublicKeyCbor ++ rest) ∧
          stop = here.length + credLen + attested.credentialPublicKeyCbor.length ∧
          IsItem (maxCborDepth + 1) attested.credentialPublicKeyCbor := by
  by_cases hshort : tail.length < credLen
  · have hparse : parseCredential (here ++ tail) aaguid here.length credLen =
        .error (.error "attested credential id truncated") := by
      unfold parseCredential
      rw [getRange_past hshort]
      rfl
    rw [hparse]
    refine ⟨nofun, fun attested stop => ⟨nofun, ?_⟩⟩
    rintro ⟨rest, -, rfl, rfl, -⟩
    rw [List.length_append] at hshort
    omega
  · obtain ⟨credentialId, tail, rfl, rfl⟩ :
        ∃ credentialId tail', tail = credentialId ++ tail' ∧ credentialId.length = credLen :=
      ⟨tail.take credLen, tail.drop credLen, (List.take_append_drop credLen tail).symm, List.length_take_of_le (by omega)⟩
    have hplace : here ++ (credentialId ++ tail) = (here ++ credentialId) ++ tail := (List.append_assoc _ _ _).symm
    rw [hplace] at hfits
    obtain ⟨hsafe, hlen⟩ := itemLenAt_spec hfits "credential public key CBOR truncated"
    rw [← hplace, List.length_append] at hsafe hlen
    cases hitem : itemLenAt (here ++ (credentialId ++ tail)) (here.length + credentialId.length)
        "credential public key CBOR truncated" with
    | error e =>
      rw [parseCredential_eq, hitem]
      refine ⟨fun hpanic => hsafe (hitem.trans (congrArg _ (Except.error.inj hpanic))), fun attested stop => ⟨nofun, ?_⟩⟩
      rintro ⟨rest, -, hid, hsplit, -, hkey⟩
      obtain ⟨-, rfl⟩ := List.append_inj hsplit hid.symm
      cases hitem.symm.trans ((hlen _).2 ⟨_, rest, rfl, rfl, hkey⟩)
    | ok len =>
      obtain ⟨key, rest, rfl, rfl, hkey⟩ := (hlen len).1 hitem
      rw [← hplace] at hfits
      rw [parseCredential_of_itemLen aaguid hfits hitem]
      refine ⟨nofun, fun attested stop => ⟨fun h => ?_, ?_⟩⟩
      · obtain ⟨rfl, rfl⟩ := Prod.mk.inj (Except.ok.inj h)
        exact ⟨rest, rfl, rfl, rfl, rfl, hkey⟩
      · rintro ⟨rest', rfl, hid, hsplit, rfl, hkey'⟩
        obtain ⟨hcredential, hrest⟩ := List.append_inj hsplit hid.symm
        have hsame := Except.ok.inj (hitem.symm.trans ((hlen _).2 ⟨_, rest', hrest, rfl, hkey'⟩))
        obtain ⟨rfl, -⟩ := List.append_inj hrest hsame
        subst hcredential
        rfl

theorem parseAttested_eq {before : List UInt8} (hbefore : before.length = headerLen) (haaguid : aaguid.length = aaguidLen) :
    parseAttested (before ++ (aaguid ++ high :: low :: tail)) =
      if beNat [high, low] = 0 then .error (.error "credential id must not be empty")
      else if maxCredentialIdLen < beNat [high, low] then
        .error (.error ("credential id length " ++ toString (beNat [high, low]) ++ " exceeds limit"))
      else parseCredential (before ++ (aaguid ++ high :: low :: tail)) aaguid (headerLen + aaguidLen + 2)
        (beNat [high, low]) := by
  have hlong : ¬ (before ++ (aaguid ++ high :: low :: tail)).length < headerLen + aaguidLen + 2 := by
    simp only [List.length_append, List.length_cons, hbefore, haaguid]
    omega
  have hslice : sliceRange (before ++ (aaguid ++ high :: low :: tail)) headerLen (headerLen + aaguidLen) = .ok aaguid := by
    rw [← hbefore, ← haaguid]
    exact sliceRange_append before aaguid _
  have hhigh : byteAt (before ++ (aaguid ++ high :: low :: tail)) (headerLen + aaguidLen) = .ok high := by
    have happend := byteAt_append (before ++ aaguid) (low :: tail) high
    rwa [List.length_append, hbefore, haaguid, List.append_assoc] at happend
  have hlow : byteAt (before ++ (aaguid ++ high :: low :: tail)) (headerLen + aaguidLen + 1) = .ok low := by
    have happend := byteAt_append (before ++ (aaguid ++ [high])) tail low
    simp only [List.length_append, hbefore, haaguid, List.length_singleton, List.append_assoc, List.singleton_append] at happend
    rwa [← Nat.add_assoc] at happend
  unfold parseAttested
  rw [if_neg hlong, hslice]
  dsimp only [bind, Except.bind]
  rw [hhigh]
  dsimp only
  rw [hlow]

theorem exists_aaguid {bytes : List UInt8} (h : aaguidLen + 2 ≤ bytes.length) :
    ∃ aaguid high low tail, aaguid.length = aaguidLen ∧ bytes = aaguid ++ high :: low :: tail := by
  have hlength : (bytes.drop aaguidLen).length = bytes.length - aaguidLen := List.length_drop
  obtain ⟨high, low, tail, hdrop⟩ : ∃ high low tail, bytes.drop aaguidLen = high :: low :: tail := by
    match bytes.drop aaguidLen, hlength with
    | [], h => simp at h; omega
    | [_], h => simp at h; omega
    | high :: low :: tail, _ => exact ⟨high, low, tail, rfl⟩
  refine ⟨bytes.take aaguidLen, high, low, tail, List.length_take_of_le (by omega), ?_⟩
  rw [← hdrop, List.take_append_drop]

/-- The parts at the cursor are well-formed data at the end of the header. -/
theorem at_cursor_iff {before : List UInt8} (hbefore : before.length = headerLen) (haaguid : aaguid.length = aaguidLen)
    (hzero : beNat [high, low] ≠ 0) (hmax : beNat [high, low] ≤ maxCredentialIdLen) (attested : AttestedCredentialData)
    (stop : Nat) :
    (∃ rest, attested.aaguid = aaguid ∧ attested.credentialId.length = beNat [high, low] ∧
      tail = attested.credentialId ++ (attested.credentialPublicKeyCbor ++ rest) ∧
      stop = headerLen + aaguidLen + 2 + beNat [high, low] + attested.credentialPublicKeyCbor.length ∧
      IsItem (maxCborDepth + 1) attested.credentialPublicKeyCbor) ↔
    ∃ rest, aaguid ++ high :: low :: tail = attested.concat ++ rest ∧ stop = before.length + attested.concat.length ∧
      attested.WellFormed := by
  constructor
  · rintro ⟨rest, rfl, hid, rfl, rfl, hkey⟩
    have hbytes : [high, low] = beBytes 2 attested.credentialId.length := by
      rw [hid]
      exact (beBytes_beNat [high, low]).symm
    have hconcat : attested.concat =
        attested.aaguid ++ ([high, low] ++ (attested.credentialId ++ attested.credentialPublicKeyCbor)) := by
      rw [hbytes]
      rfl
    refine ⟨rest, by simp [hconcat], ?_, haaguid, ⟨by omega, by omega⟩, hkey⟩
    rw [hconcat]
    simp only [List.length_append, hbefore, haaguid, hid, List.length_cons, List.length_nil]
    omega
  · rintro ⟨rest, hsplit, rfl, hwf⟩
    obtain ⟨hids, hid, htail⟩ := concat_split hwf haaguid hsplit
    refine ⟨rest, hids, hid, htail, ?_, hwf.key⟩
    unfold AttestedCredentialData.concat
    simp only [List.length_append, length_beBytes, hbefore, hids, haaguid, hid]
    omega

/-- **Attested credential data**: what is parsed is what stands at the end of the header, and where it ends. -/
theorem parseAttested_spec {before bytes : List UInt8} (hbefore : before.length = headerLen)
    (hfits : (before ++ bytes).length < 2 ^ 63) : parseAttested (before ++ bytes) ≠ .error .panicked ∧
      ∀ attested stop, parseAttested (before ++ bytes) = .ok (attested, stop) ↔ ∃ rest,
        bytes = attested.concat ++ rest ∧ stop = before.length + attested.concat.length ∧ attested.WellFormed := by
  by_cases hshort : bytes.length < aaguidLen + 2
  · -- no room for the AAGUID and the length
    have hparse : parseAttested (before ++ bytes) = .error (.error "attested credential data truncated at AAGUID") := by
      unfold parseAttested
      rw [if_pos (by rw [List.length_append, hbefore]; omega)]
    rw [hparse]
    refine ⟨nofun, fun attested stop => ⟨nofun, ?_⟩⟩
    rintro ⟨rest, rfl, -, hwf⟩
    have hle := length_concat hwf
    rw [List.length_append] at hshort
    omega
  · obtain ⟨aaguid, high, low, tail, haaguid, rfl⟩ := exists_aaguid (Nat.le_of_not_lt hshort)
    rw [parseAttested_eq hbefore haaguid]
    by_cases hzero : beNat [high, low] = 0
    · rw [if_pos hzero]
      refine ⟨nofun, fun attested stop => ⟨nofun, ?_⟩⟩
      rintro ⟨rest, hsplit, -, hwf⟩
      have hlength := (concat_split hwf haaguid hsplit).2.1
      have hid := hwf.credentialId.1
      omega
    · rw [if_neg hzero]
      by_cases hmax : maxCredentialIdLen < beNat [high, low]
      · rw [if_pos hmax]
        refine ⟨nofun, fun attested stop => ⟨nofun, ?_⟩⟩
        rintro ⟨rest, hsplit, -, hwf⟩
        have hlength := (concat_split hwf haaguid hsplit).2.1
        have hid := hwf.credentialId.2
        omega
      · rw [if_neg hmax]
        have hplace : before ++ (aaguid ++ high :: low :: tail) = (before ++ (aaguid ++ [high, low])) ++ tail := by simp
        have hhere : (before ++ (aaguid ++ [high, low])).length = headerLen + aaguidLen + 2 := by
          simp only [List.length_append, hbefore, haaguid, List.length_cons, List.length_nil]
          omega
        rw [hplace] at hfits ⊢
        obtain ⟨hsafe, hparse⟩ := parseCredential_spec aaguid (beNat [high, low]) hfits
        rw [hhere] at hsafe hparse
        refine ⟨hsafe, fun attested stop => (hparse attested stop).trans ?_⟩
        exact at_cursor_iff hbefore haaguid hzero (Nat.not_lt.1 hmax) attested stop

/-- **The attested credential data**, when the flags say that it is there. -/
theorem attestedSection_spec {before bytes : List UInt8} (hbefore : before.length = headerLen)
    (hfits : (before ++ bytes).length < 2 ^ 63) (flags : UInt8) : attestedSection (before ++ bytes) flags ≠ .error .panicked ∧
      ∀ attested stop, attestedSection (before ++ bytes) flags = .ok (attested, stop) ↔ ∃ rest,
        bytes = (attested.map AttestedCredentialData.concat).getD [] ++ rest ∧
          stop = before.length + ((attested.map AttestedCredentialData.concat).getD []).length ∧
          attested.isSome = hasFlag flags flagAt ∧ ∀ a, attested = some a → a.WellFormed := by
  unfold attestedSection
  cases hflag : hasFlag flags flagAt with
  | false =>
    refine ⟨nofun, fun attested stop => ⟨fun h => ?_, ?_⟩⟩
    · obtain ⟨rfl, rfl⟩ := Prod.mk.inj (Except.ok.inj h)
      exact ⟨bytes, rfl, hbefore.symm, rfl, nofun⟩
    · rintro ⟨rest, -, rfl, hnone, -⟩
      obtain rfl := Option.isSome_eq_false_iff.1 hnone |> Option.isNone_iff_eq_none.1
      rw [hbefore]
      rfl
  | true =>
    obtain ⟨hsafe, hparse⟩ := parseAttested_spec hbefore hfits
    cases hresult : parseAttested (before ++ bytes) with
    | error e =>
      refine ⟨fun hpanic => hsafe (hresult.trans (congrArg _ (Except.error.inj hpanic))), fun attested stop => ⟨nofun, ?_⟩⟩
      rintro ⟨rest, hsplit, -, hsome, hwf⟩
      obtain ⟨a, rfl⟩ := Option.isSome_iff_exists.1 hsome
      cases hresult.symm.trans ((hparse a _).2 ⟨rest, hsplit, rfl, hwf a rfl⟩)
    | ok found =>
      obtain ⟨a, stop⟩ := found
      obtain ⟨rest, hsplit, rfl, hwf⟩ := (hparse a stop).1 hresult
      refine ⟨nofun, fun attested stop => ⟨fun h => ?_, ?_⟩⟩
      · obtain ⟨rfl, rfl⟩ := Prod.mk.inj (Except.ok.inj h)
        refine ⟨rest, hsplit, rfl, rfl, fun a' ha' => ?_⟩
        rwa [← Option.some.inj ha']
      · rintro ⟨rest', hsplit', rfl, hsome, hwf'⟩
        obtain ⟨a', rfl⟩ := Option.isSome_iff_exists.1 hsome
        have hsame := hresult.symm.trans ((hparse a' _).2 ⟨rest', hsplit', rfl, hwf' a' rfl⟩)
        obtain ⟨rfl, -⟩ := Prod.mk.inj (Except.ok.inj hsame)
        rfl

end Attested

/-! ## Authenticator data -/

theorem parse_eq {slice : ByteSlice} {rpIdHash tail : List UInt8} {flags b0 b1 b2 b3 : UInt8} (hhash : rpIdHash.length = 32)
    (hbytes : slice.bytes = (rpIdHash ++ [flags, b0, b1, b2, b3]) ++ tail) : AuthenticatorData.parse slice =
      (attestedSection slice.bytes flags).bind (fun p => (extensionSection slice.bytes flags p.2).bind (fun cursor =>
        (checkTrailing slice.bytes cursor).bind (fun _ =>
          .ok ⟨slice.bytes, rpIdHash, flags, beNat [b0, b1, b2, b3], p.1⟩))) := by
  have hlong : ¬ slice.bytes.length < headerLen := by
    simp only [hbytes, List.length_append, hhash, List.length_cons, List.length_nil, headerLen]
    omega
  have hbyte : ∀ k, byteAt slice.bytes (32 + k) = byteAt (flags :: b0 :: b1 :: b2 :: b3 :: tail) k := by
    intro k
    unfold byteAt
    rw [hbytes, List.append_assoc, ← hhash, List.getElem?_append_right (Nat.le_add_right _ _), Nat.add_sub_cancel_left]
    rfl
  have h32 : byteAt slice.bytes 32 = .ok flags := hbyte 0
  have h33 : byteAt slice.bytes 33 = .ok b0 := hbyte 1
  have h34 : byteAt slice.bytes 34 = .ok b1 := hbyte 2
  have h35 : byteAt slice.bytes 35 = .ok b2 := hbyte 3
  have h36 : byteAt slice.bytes 36 = .ok b3 := hbyte 4
  have hslice : sliceRange slice.bytes 0 32 = .ok rpIdHash := by
    rw [hbytes, List.append_assoc, ← hhash]
    have happend := sliceRange_append [] rpIdHash ([flags, b0, b1, b2, b3] ++ tail)
    rwa [List.nil_append, List.length_nil, Nat.zero_add] at happend
  unfold AuthenticatorData.parse
  dsimp only
  rw [if_neg hlong, h32, h33, h34, h35, h36, hslice]
  rfl

/-- The bytes of the sections that the flags may announce. -/
def AuthDataFields.sections (fields : AuthDataFields) : List UInt8 :=
  (fields.attested.map AttestedCredentialData.concat).getD [] ++ fields.extension.getD []

theorem four_of_length {bytes : List UInt8} (h : bytes.length = 4) : ∃ b0 b1 b2 b3, bytes = [b0, b1, b2, b3] := by
  match bytes, h with
  | [b0, b1, b2, b3], _ => exact ⟨b0, b1, b2, b3, rfl⟩

/-- **The concatenation of fields is parsed to the fields.** -/
theorem parse_concat {slice : ByteSlice} {fields : AuthDataFields} (hbytes : slice.bytes = fields.concat) :
    AuthenticatorData.parse slice = .ok fields.view := by
  obtain ⟨b0, b1, b2, b3, hcount⟩ := four_of_length (length_beBytes 4 fields.signCount)
  have hsplit : slice.bytes = (fields.rpIdHash ++ [fields.flags, b0, b1, b2, b3]) ++ fields.sections := by
    rw [hbytes, AuthDataFields.concat, hcount]
    simp [AuthDataFields.sections]
  have hheader : (fields.rpIdHash ++ [fields.flags, b0, b1, b2, b3]).length = headerLen := by
    rw [List.length_append, fields.rpIdHash_length]
    rfl
  have hfits := slice.fits
  have hattested : attestedSection slice.bytes fields.flags = .ok (fields.attested,
      ((fields.rpIdHash ++ [fields.flags, b0, b1, b2, b3]) ++
        (fields.attested.map AttestedCredentialData.concat).getD []).length) := by
    rw [hsplit] at hfits ⊢
    refine ((attestedSection_spec hheader hfits fields.flags).2 _ _).2 ?_
    exact ⟨fields.extension.getD [], rfl, List.length_append, fields.attested_isSome, fields.attested_wellFormed⟩
  have hextension : extensionSection slice.bytes fields.flags
      ((fields.rpIdHash ++ [fields.flags, b0, b1, b2, b3]) ++
        (fields.attested.map AttestedCredentialData.concat).getD []).length = .ok slice.bytes.length := by
    unfold AuthDataFields.sections at hsplit
    rw [← List.append_assoc] at hsplit
    rw [hsplit] at hfits ⊢
    refine ((extensionSection_spec hfits fields.flags).2 _).2 ?_
    exact ⟨fields.extension, [], (List.append_nil _).symm, List.length_append, fields.extension_isSome, fields.extension_item⟩
  have hsign : beNat [b0, b1, b2, b3] = fields.signCount := by
    rw [← hcount]
    exact beNat_beBytes 4 _ fields.signCount_lt
  rw [parse_eq fields.rpIdHash_length hsplit, hattested]
  show (extensionSection _ _ _).bind _ = _
  rw [hextension]
  show (checkTrailing _ _).bind _ = _
  rw [checkTrailing, if_pos rfl, hsign, AuthDataFields.view, hbytes]
  rfl

theorem exists_header {bytes : List UInt8} (h : headerLen ≤ bytes.length) : ∃ rpIdHash flags b0 b1 b2 b3 tail,
    rpIdHash.length = 32 ∧ bytes = (rpIdHash ++ [flags, b0, b1, b2, b3]) ++ tail := by
  unfold headerLen at h
  have hfive : ((bytes.drop 32).take 5).length = 5 := by
    rw [List.length_take, List.length_drop]
    omega
  obtain ⟨flags, b0, b1, b2, b3, hhead⟩ : ∃ flags b0 b1 b2 b3, (bytes.drop 32).take 5 = [flags, b0, b1, b2, b3] := by
    match (bytes.drop 32).take 5, hfive with
    | [flags, b0, b1, b2, b3], _ => exact ⟨flags, b0, b1, b2, b3, rfl⟩
  refine ⟨bytes.take 32, flags, b0, b1, b2, b3, (bytes.drop 32).drop 5, List.length_take_of_le (by omega), ?_⟩
  rw [← hhead, List.append_assoc, List.take_append_drop, List.take_append_drop]

/-- **What is parsed is a concatenation of fields**, and nothing panics. -/
theorem fields_of_parse (slice : ByteSlice) : AuthenticatorData.parse slice ≠ .error .panicked ∧
    ∀ data, AuthenticatorData.parse slice = .ok data →
      ∃ fields : AuthDataFields, slice.bytes = fields.concat ∧ data = fields.view := by
  by_cases hshort : slice.bytes.length < headerLen
  · unfold AuthenticatorData.parse
    dsimp only
    rw [if_pos hshort]
    exact ⟨nofun, nofun⟩
  · have hfits := slice.fits
    obtain ⟨rpIdHash, flags, b0, b1, b2, b3, tail, hhash, hbytes⟩ := exists_header (Nat.le_of_not_lt hshort)
    have hheader : (rpIdHash ++ [flags, b0, b1, b2, b3]).length = headerLen := by
      rw [List.length_append, hhash]
      rfl
    rw [parse_eq hhash hbytes]
    rw [hbytes] at hfits ⊢
    obtain ⟨hsafe, hattested⟩ := attestedSection_spec hheader hfits flags
    cases hsection : attestedSection ((rpIdHash ++ [flags, b0, b1, b2, b3]) ++ tail) flags with
    | error e => exact ⟨fun hpanic => hsafe (hsection.trans (congrArg _ (Except.error.inj hpanic))), nofun⟩
    | ok found =>
      obtain ⟨attested, stop⟩ := found
      obtain ⟨rest, rfl, rfl, hsome, hwf⟩ := (hattested attested stop).1 hsection
      rw [← List.append_assoc] at hfits
      obtain ⟨hsafe', hextension⟩ := extensionSection_spec hfits flags
      rw [List.append_assoc, List.length_append] at hsafe' hextension
      show (extensionSection _ _ _).bind _ ≠ _ ∧ ∀ data, (extensionSection _ _ _).bind _ = _ → _
      cases hend : extensionSection ((rpIdHash ++ [flags, b0, b1, b2, b3]) ++
          ((attested.map AttestedCredentialData.concat).getD [] ++ rest)) flags
          ((rpIdHash ++ [flags, b0, b1, b2, b3]).length + ((attested.map AttestedCredentialData.concat).getD []).length) with
      | error e => exact ⟨fun hpanic => hsafe' (hend.trans (congrArg _ (Except.error.inj hpanic))), nofun⟩
      | ok cursor =>
        obtain ⟨extension, rest, rfl, rfl, hsome', hitem⟩ := (hextension cursor).1 hend
        show (checkTrailing _ _).bind _ ≠ _ ∧ ∀ data, (checkTrailing _ _).bind _ = _ → _
        unfold checkTrailing
        split
        · rename_i hcursor
          refine ⟨nofun, fun data hdata => ?_⟩
          have hrest : rest = [] := by
            simp only [List.length_append] at hcursor
            exact List.length_eq_zero_iff.1 (by omega)
          subst hrest
          have hlt : beNat [b0, b1, b2, b3] < 256 ^ 4 := beNat_lt [b0, b1, b2, b3]
          have hcount : beBytes 4 (beNat [b0, b1, b2, b3]) = [b0, b1, b2, b3] := beBytes_beNat [b0, b1, b2, b3]
          have hconcat : (rpIdHash ++ [flags, b0, b1, b2, b3]) ++
              ((attested.map AttestedCredentialData.concat).getD [] ++ (extension.getD [] ++ [])) =
                rpIdHash ++ (flags :: (beBytes 4 (beNat [b0, b1, b2, b3]) ++
                  ((attested.map AttestedCredentialData.concat).getD [] ++ extension.getD []))) := by
            rw [hcount]
            simp
          refine ⟨⟨rpIdHash, flags, beNat [b0, b1, b2, b3], attested, extension, hhash, by omega, hsome, hwf, hsome',
            hitem⟩, hconcat, ?_⟩
          obtain rfl := Except.ok.inj hdata
          rw [hconcat]
          rfl
        · split
          · rename_i hcursor hpast
            simp only [List.length_append] at hpast
            omega
          · exact ⟨nofun, nofun⟩

/-- **Parsing is exact**: it never panics, and what is parsed are the concatenations of fields, each as the fields say. -/
theorem parse_exact (slice : ByteSlice) : AuthenticatorData.parse slice ≠ .error .panicked ∧
    ∀ data, AuthenticatorData.parse slice = .ok data ↔
      ∃ fields : AuthDataFields, slice.bytes = fields.concat ∧ data = fields.view := by
  obtain ⟨hsafe, hfields⟩ := fields_of_parse slice
  refine ⟨hsafe, fun data => ⟨hfields data, ?_⟩⟩
  rintro ⟨fields, hbytes, rfl⟩
  exact parse_concat hbytes

end Webauthn
end Auth
end Kirino
