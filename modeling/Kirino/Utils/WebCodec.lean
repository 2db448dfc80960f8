import Kirino.Utils.Base64Exact
/-!
# WebCodec — the browser's base64url beside the server's (`packages/web_ts/src/passkey.ts`, `src/utils.rs`)

The browser goes through `btoa` and `atob`: the other alphabet, padding to whole groups, and a decoder that skips white
space, takes one or two `=` off whole groups and drops the bits left over.  Texts are lists of code units.  The browser
writes what the server writes; what both read they read alike, and which texts only one reads is `web_codec_agrees`.
-/
namespace Kirino
namespace Utils
open Lib (Spells)

/-- The code units of a character: one, or a surrogate pair. -/
def utf16Units (c : Char) : List Nat :=
  if c.toNat < 0x10000 then [c.toNat]
  else [0xD800 + (c.toNat - 0x10000) / 1024, 0xDC00 + (c.toNat - 0x10000) % 1024]

/-- A text as the browser has it. -/
def jsUnits (s : String) : List Nat := s.toList.flatMap utf16Units

/-- `value.replace(/a/g, b)`. -/
def replaceAll (a b : Nat) (units : List Nat) : List Nat := units.map (fun u => if u = a then b else u)

/-! ## Encoding -/

def btoaTable : List Nat :=
  "ABCDEFGHIJKLMNOPQRSTUVWXYZabcdefghijklmnopqrstuvwxyz0123456789+/".toList.map Char.toNat

def btoaUnit (n : Nat) : Nat := btoaTable.getD (n % 64) 65

/-- `btoa`: the last group is padded. -/
def btoa : List UInt8 → List Nat
  | [] => []
  | [b0] =>
    let n := b0.toNat * 65536
    [btoaUnit (n / 262144), btoaUnit (n / 4096), 61, 61]
  | [b0, b1] =>
    let n := b0.toNat * 65536 + b1.toNat * 256
    [btoaUnit (n / 262144), btoaUnit (n / 4096), btoaUnit (n / 64), 61]
  | b0 :: b1 :: b2 :: rest =>
    let n := b0.toNat * 65536 + b1.toNat * 256 + b2.toNat
    btoaUnit (n / 262144) :: btoaUnit (n / 4096) :: btoaUnit (n / 64) :: btoaUnit n :: btoa rest

def bytesToBase64url (bytes : List UInt8) : List Nat :=
  (replaceAll 47 95 (replaceAll 43 45 (btoa bytes))).rdropWhile (· = 61)

/-! ## Decoding -/

def isAsciiWhitespace (u : Nat) : Bool := u = 9 || u = 10 || u = 12 || u = 13 || u = 32

def atobVal (u : Nat) : Option Nat :=
  if 65 ≤ u ∧ u ≤ 90 then some (u - 65)
  else if 97 ≤ u ∧ u ≤ 122 then some (u - 97 + 26)
  else if 48 ≤ u ∧ u ≤ 57 then some (u - 48 + 52)
  else if u = 43 then some 62
  else if u = 47 then some 63
  else none

/-- One or two `=` at the end are taken off. -/
def dropPad (units : List Nat) : List Nat :=
  match units.reverse with
  | 61 :: 61 :: rest => rest.reverse
  | 61 :: rest => rest.reverse
  | _ => units

/-- The bytes of the digits; the bits left over are dropped. -/
def atobBytes : List Nat → List Nat
  | a :: b :: c :: d :: rest => (a * 4 + b / 16) :: (b % 16 * 16 + c / 4) :: (c % 4 * 64 + d) :: atobBytes rest
  | [a, b, c] => [a * 4 + b / 16, b % 16 * 16 + c / 4]
  | [a, b] => [a * 4 + b / 16]
  | _ => []

/-- `atob`, the forgiving decoder. -/
def atob (units : List Nat) : Option (List Nat) :=
  let units := units.filter (fun u => !isAsciiWhitespace u)
  let units := if units.length % 4 = 0 then dropPad units else units
  if units.length % 4 = 1 then none else (units.mapM atobVal).map atobBytes

def base64urlToBytes (value : List Nat) : Option (List UInt8) :=
  let standard := replaceAll 95 47 (replaceAll 45 43 value)
  (atob (standard ++ List.replicate ((4 - standard.length % 4) % 4) 61)).map (List.map UInt8.ofNat)

example : base64urlToBytes (jsUnits "-__-_Q") = some [0xfb, 0xff, 0xfe, 0xfd] := by decide +kernel

/-! ## Digits -/

/-- What a digit's unit is in both alphabets. -/
theorem btoaUnit_facts : ∀ d : Fin 64, atobVal (btoaUnit d) = some d.val ∧ btoaUnit d ≠ 61 ∧
    isAsciiWhitespace (btoaUnit d) = false ∧ utf16Units (base64UrlChar d) = [(base64UrlChar d).toNat] ∧
    (if (if (base64UrlChar d).toNat = 45 then 43 else (base64UrlChar d).toNat) = 95 then 47
      else if (base64UrlChar d).toNat = 45 then 43 else (base64UrlChar d).toNat) = btoaUnit d ∧
    (if (if btoaUnit d = 43 then 45 else btoaUnit d) = 47 then 95
      else if btoaUnit d = 43 then 45 else btoaUnit d) = (base64UrlChar d).toNat := by
  decide +kernel

/-- The units of the standard alphabet become those of the URL's. -/
theorem replaceAll_btoaUnit (n : Nat) (units : List Nat) :
    replaceAll 47 95 (replaceAll 43 45 (btoaUnit n :: units)) =
      (base64UrlChar n).toNat :: replaceAll 47 95 (replaceAll 43 45 units) := by
  have hmod : btoaUnit (n % 64) = btoaUnit n := by
    unfold btoaUnit
    rw [Nat.mod_mod]
  have hunit := (btoaUnit_facts ⟨n % 64, Nat.mod_lt n (by decide)⟩).2.2.2.2.2
  rw [hmod, base64UrlChar_mod] at hunit
  exact congrArg (· :: _) hunit

/-- **`btoa` writes the server's characters**, with padding behind them. -/
theorem replaceAll_btoa : ∀ bytes : List UInt8,
    ∃ k, replaceAll 47 95 (replaceAll 43 45 (btoa bytes)) = (base64UrlChars bytes).map Char.toNat ++ List.replicate k 61
  | [] => ⟨0, rfl⟩
  | [b0] => ⟨2, by
    unfold btoa base64UrlChars
    rw [replaceAll_btoaUnit, replaceAll_btoaUnit]
    rfl⟩
  | [b0, b1] => ⟨1, by
    unfold btoa base64UrlChars
    rw [replaceAll_btoaUnit, replaceAll_btoaUnit, replaceAll_btoaUnit]
    rfl⟩
  | b0 :: b1 :: b2 :: rest => by
    obtain ⟨k, hk⟩ := replaceAll_btoa rest
    refine ⟨k, ?_⟩
    unfold btoa base64UrlChars
    rw [replaceAll_btoaUnit, replaceAll_btoaUnit, replaceAll_btoaUnit, replaceAll_btoaUnit, hk]
    rfl

section Digits
variable {ds bs : List Nat}

/-- **The browser reads a spelling as its bytes.** -/
theorem atobBytes_of_spells (h : Spells ds bs) : atobBytes ds = bs := by
  induction h with
  | nil => rfl
  | two => rfl
  | three => rfl
  | four _ _ _ _ _ ih => rw [atobBytes, ih]

theorem mapM_atobVal (hlt : ∀ d ∈ ds, d < 64) : (ds.map btoaUnit).mapM atobVal = some ds := by
  induction ds with
  | nil => rfl
  | cons d ds ih =>
    have hd := (btoaUnit_facts ⟨d, hlt d List.mem_cons_self⟩).1
    simp [hd, ih (fun e he => hlt e (List.mem_cons_of_mem d he))]

theorem jsUnits_padded (hlt : ∀ d ∈ ds, d < 64) (n : Nat) :
    jsUnits (padded ds n) = ds.map (fun d => (base64UrlChar d).toNat) ++ List.replicate n 61 := by
  unfold jsUnits padded
  rw [String.toList_ofList, List.flatMap_append]
  congr 1
  · induction ds with
    | nil => rfl
    | cons d ds ih =>
      have hd := (btoaUnit_facts ⟨d, hlt d List.mem_cons_self⟩).2.2.2.1
      rw [List.map_cons, List.flatMap_cons, hd, ih (fun e he => hlt e (List.mem_cons_of_mem d he))]
      rfl
  · induction n with
    | zero => rfl
    | succ n ih =>
      rw [List.replicate_succ, List.replicate_succ, List.flatMap_cons, ih]
      rfl

/-- The digits in the standard alphabet, with padding behind them. -/
theorem replaceAll_units (hlt : ∀ d ∈ ds, d < 64) (n : Nat) :
    replaceAll 95 47 (replaceAll 45 43 (jsUnits (padded ds n))) = ds.map btoaUnit ++ List.replicate n 61 := by
  unfold replaceAll
  rw [jsUnits_padded hlt, List.map_append, List.map_append, List.map_replicate, List.map_replicate, List.map_map,
    List.map_map]
  refine congrArg₂ (· ++ ·) (List.map_congr_left (fun d hd => ?_)) rfl
  exact (btoaUnit_facts ⟨d, hlt d hd⟩).2.2.2.2.1

/-- Two at most are taken off a run of padding. -/
theorem dropPad_append {l : List Nat} (h : ∀ u ∈ l, u ≠ 61) (t : Nat) :
    dropPad (l ++ List.replicate t 61) = l ++ List.replicate (t - 2) 61 := by
  match t with
  | 0 =>
    unfold dropPad
    rw [List.replicate_zero, List.append_nil]
    split
    · rename_i rest hrev
      exact absurd rfl (h 61 (List.mem_reverse.1 (hrev ▸ List.mem_cons_self)))
    · rename_i rest hrev
      exact absurd rfl (h 61 (List.mem_reverse.1 (hrev ▸ List.mem_cons_self)))
    · rfl
  | 1 =>
    unfold dropPad
    rw [List.reverse_append]
    show (match 61 :: l.reverse with
      | 61 :: 61 :: rest => rest.reverse
      | 61 :: rest => rest.reverse
      | _ => l ++ [61]) = l ++ []
    split
    · rename_i rest hrev
      have hl : (61 : Nat) ∈ l := List.mem_reverse.1 ((List.cons.inj hrev).2 ▸ List.mem_cons_self)
      exact absurd rfl (h 61 hl)
    · rename_i rest hrev
      rw [← (List.cons.inj hrev).2, List.reverse_reverse, List.append_nil]
    · rename_i hno
      exact absurd rfl (hno l.reverse)
  | t + 2 =>
    unfold dropPad
    rw [List.replicate_succ', List.replicate_succ', ← List.append_assoc, ← List.append_assoc, List.reverse_append,
      List.reverse_append]
    exact List.reverse_reverse _

/-- **`atob` on digits and padding**: it reads them when the padding is no more than two. -/
theorem atob_padded (hlt : ∀ d ∈ ds, d < 64) {t : Nat} (hwhole : (ds.length + t) % 4 = 0) :
    atob (ds.map btoaUnit ++ List.replicate t 61) = if t ≤ 2 then some (atobBytes ds) else none := by
  have hne : ∀ u ∈ ds.map btoaUnit, u ≠ 61 ∧ isAsciiWhitespace u = false := by
    intro u hu
    obtain ⟨d, hd, rfl⟩ := List.mem_map.1 hu
    have hfacts := btoaUnit_facts ⟨d, hlt d hd⟩
    exact ⟨hfacts.2.1, hfacts.2.2.1⟩
  have hfilter : (ds.map btoaUnit ++ List.replicate t 61).filter (fun u => !isAsciiWhitespace u) =
      ds.map btoaUnit ++ List.replicate t 61 := by
    refine List.filter_eq_self.2 (fun u hu => ?_)
    rcases List.mem_append.1 hu with hu | hu
    · rw [(hne u hu).2]
      rfl
    · rw [(List.mem_replicate.1 hu).2]
      rfl
  unfold atob
  dsimp only
  have hlen : (ds.map btoaUnit ++ List.replicate t 61).length % 4 = 0 := by simpa using hwhole
  rw [hfilter, if_pos hlen, dropPad_append (fun u hu => (hne u hu).1)]
  by_cases ht : t ≤ 2
  · have hnil : List.replicate (t - 2) 61 = [] := by rw [Nat.sub_eq_zero_of_le ht]; rfl
    rw [if_pos ht, hnil, List.append_nil, mapM_atobVal hlt, if_neg (by rw [List.length_map]; omega)]
    rfl
  · have hbad : (ds.map btoaUnit ++ List.replicate (t - 2) 61).mapM atobVal = none := by
      have hsucc : t - 2 = t - 3 + 1 := by omega
      rw [List.mapM_append, mapM_atobVal hlt, hsucc, List.replicate_succ]
      rfl
    rw [if_neg ht, hbad]
    split <;> rfl

end Digits

/-! ## Texts -/

/-- The text without its padding is not one character over whole groups, and the padding does no more than fill the
last group. -/
def PadFits (s : String) : Prop :=
  (trimPadding s).toList.length % 4 ≠ 1 ∧
    s.toList.length ≤ (trimPadding s).toList.length + (4 - (trimPadding s).toList.length % 4) % 4

instance (s : String) : Decidable (PadFits s) := inferInstanceAs (Decidable (_ ∧ _))

section Texts
variable {ds : List Nat} {s : String} {bytes out : List UInt8}

theorem padFits_padded (hlt : ∀ d ∈ ds, d < 64) (n : Nat) :
    PadFits (padded ds n) ↔ ds.length % 4 ≠ 1 ∧ n ≤ (4 - ds.length % 4) % 4 := by
  unfold PadFits
  rw [trimPadding_padded hlt]
  simp [padded]

/-- **What the browser makes of digits and padding.** -/
theorem base64urlToBytes_padded (hlt : ∀ d ∈ ds, d < 64) (n : Nat) :
    base64urlToBytes (jsUnits (padded ds n)) =
      if PadFits (padded ds n) then some ((atobBytes ds).map UInt8.ofNat) else none := by
  have hlen : (ds.map btoaUnit ++ List.replicate n 61).length = ds.length + n := by simp
  unfold base64urlToBytes
  dsimp only
  rw [replaceAll_units hlt, hlen, List.append_assoc, List.replicate_append_replicate, atob_padded hlt (by omega)]
  by_cases hfits : PadFits (padded ds n)
  · have hpad := (padFits_padded hlt n).1 hfits
    rw [if_pos hfits, if_pos (by omega)]
    rfl
  · rw [if_neg hfits, if_neg (fun hle => hfits ((padFits_padded hlt n).2 (by omega)))]
    rfl

/-- **The browser writes what the server writes.** -/
theorem bytesToBase64url_eq (bytes : List UInt8) : bytesToBase64url bytes = jsUnits (base64UrlEncode bytes) := by
  obtain ⟨ds, hds, hspells⟩ := base64UrlChars_spells bytes
  obtain ⟨k, hk⟩ := replaceAll_btoa bytes
  have hencode : base64UrlEncode bytes = padded ds 0 := by
    rw [base64UrlEncode, hds, padded, List.replicate_zero, List.append_nil]
  have hne : ∀ u ∈ ds.map (fun d => (base64UrlChar d).toNat), u ≠ 61 := by
    intro u hu
    obtain ⟨d, hd, rfl⟩ := List.mem_map.1 hu
    exact fun he => (base64UrlChar_facts ⟨d, hspells.digit_lt d hd⟩).2.2.1 (Char.toNat_inj.1 he)
  unfold bytesToBase64url
  rw [hk, hds, List.map_map, hencode, jsUnits_padded hspells.digit_lt, List.replicate_zero, List.append_nil]
  exact rdropWhile_append_replicate hne k

theorem atobBytes_of_bytes (h : Spells ds (bytes.map UInt8.toNat)) : (atobBytes ds).map UInt8.ofNat = bytes := by
  rw [atobBytes_of_spells h, map_ofNat_map_toNat]

/-- What the server reads the browser reads alike, where the padding fits. -/
theorem base64urlToBytes_of_decode (h : base64UrlDecode s = .ok out) :
    base64urlToBytes (jsUnits s) = if PadFits s then some out else none := by
  obtain ⟨ds, n, hlt, rfl⟩ := exists_padded_of_decode h
  obtain ⟨-, hreads⟩ := (base64UrlDecode_padded_ok_iff hlt n).1 h
  rw [base64urlToBytes_padded hlt]
  by_cases hfits : PadFits (padded ds n)
  · have hlen := ((padFits_padded hlt n).1 hfits).1
    have hspells : Spells ds (out.map UInt8.toNat) :=
      hreads.spells_or_lone.resolve_right (fun hlone => hlen hlone.1)
    rw [if_pos hfits, if_pos hfits, atobBytes_of_bytes hspells]
  · rw [if_neg hfits, if_neg hfits]

/-- What the browser reads the server reads alike, where the text is what the bytes are written as. -/
theorem decode_iff_of_base64urlToBytes (h : base64urlToBytes (jsUnits s) = some out) :
    base64UrlDecode s = .ok out ↔ trimPadding s = base64UrlEncode out := by
  constructor
  · intro hdecode
    have hfits : PadFits s := by
      by_contra hno
      rw [base64urlToBytes_of_decode hdecode, if_neg hno] at h
      cases h
    obtain ⟨ds, n, hlt, rfl⟩ := exists_padded_of_decode hdecode
    obtain ⟨-, hreads⟩ := (base64UrlDecode_padded_ok_iff hlt n).1 hdecode
    have hlen := ((padFits_padded hlt n).1 hfits).1
    rw [trimPadding_padded hlt]
    exact (padded_eq_encode_iff hlt).2 (hreads.spells_or_lone.resolve_right (fun hlone => hlen hlone.1))
  · intro htrim
    obtain ⟨ds, hencode, hspells⟩ := base64UrlEncode_eq_padded out
    have hlt := hspells.digit_lt
    obtain ⟨n, hn⟩ := exists_append_replicate '=' s.toList
    obtain rfl : s = padded ds n := by
      have hchars := congrArg String.toList (htrim.trans hencode)
      simp only [trimPadding, padded, String.toList_ofList, List.replicate_zero, List.append_nil] at hchars
      refine String.toList_injective ?_
      rw [hn, hchars, padded, String.toList_ofList]
    have hfits : PadFits (padded ds n) := by
      by_contra hno
      rw [base64urlToBytes_padded hlt, if_neg hno] at h
      cases h
    have hpad := (padFits_padded hlt n).1 hfits
    exact (base64UrlDecode_padded_ok_iff hlt n).2 ⟨by omega, reads_of_spells hspells⟩

end Texts

/-- **The browser and the server speak one base64url**: they write alike; a text that the server reads the browser reads
as the same bytes when its padding fits, and refuses otherwise; a text that the browser reads the server reads as the
same bytes exactly when it is, without padding, what the bytes are written as. -/
theorem web_codec_agrees (bytes : List UInt8) (s : String) (out : List UInt8) :
    bytesToBase64url bytes = jsUnits (base64UrlEncode bytes) ∧
      (base64UrlDecode s = .ok out → base64urlToBytes (jsUnits s) = if PadFits s then some out else none) ∧
      (base64urlToBytes (jsUnits s) = some out →
        (base64UrlDecode s = .ok out ↔ trimPadding s = base64UrlEncode out)) :=
  ⟨bytesToBase64url_eq bytes, base64urlToBytes_of_decode, decode_iff_of_base64urlToBytes⟩

/-- The browser drops bits that the server takes offence at. -/
example : base64urlToBytes (jsUnits "Zm9") = some [0x66, 0x6f] ∧
    base64UrlDecode "Zm9" = .error .nonCanonicalTrailingBits := by decide +kernel

end Utils
end Kirino
