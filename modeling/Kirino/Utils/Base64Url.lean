import Mathlib.Algebra.Group.Nat.Defs
import Mathlib.Data.List.Basic
/-!
# Base64Url — unpadded base64url (`src/utils.rs`)
-/
namespace Kirino
namespace Utils

def base64UrlTable : List Char := "ABCDEFGHIJKLMNOPQRSTUVWXYZabcdefghijklmnopqrstuvwxyz0123456789-_".toList

/-- The character of six bits. -/
def base64UrlChar (n : Nat) : Char := base64UrlTable.getD (n % 64) 'A'

/-- Three bytes are four characters, a rest of two bytes three, a rest of one byte two. -/
def base64UrlChars : List UInt8 → List Char
  | [] => []
  | [b0] =>
    let n := b0.toNat * 65536
    [base64UrlChar (n / 262144), base64UrlChar (n / 4096)]
  | [b0, b1] =>
    let n := b0.toNat * 65536 + b1.toNat * 256
    [base64UrlChar (n / 262144), base64UrlChar (n / 4096), base64UrlChar (n / 64)]
  | b0 :: b1 :: b2 :: rest =>
    let n := b0.toNat * 65536 + b1.toNat * 256 + b2.toNat
    base64UrlChar (n / 262144) :: base64UrlChar (n / 4096) :: base64UrlChar (n / 64) :: base64UrlChar n :: base64UrlChars rest

def base64UrlEncode (bytes : List UInt8) : String := String.ofList (base64UrlChars bytes)

example : base64UrlEncode [0xfb, 0xff, 0xfe, 0xfd] = "-__-_Q" := by decide +kernel

/-! ## Decoding -/

inductive Base64UrlDecodeError where
  | invalidLength
  | invalidByte (index : Nat) (byte : UInt8)
  | nonCanonicalTrailingBits
deriving DecidableEq, Repr

/-- The six bits of a character. -/
def base64UrlVal (c : UInt8) : Option Nat :=
  let c := c.toNat
  if 65 ≤ c ∧ c ≤ 90 then some (c - 65)
  else if 97 ≤ c ∧ c ≤ 122 then some (c - 97 + 26)
  else if 48 ≤ c ∧ c ≤ 57 then some (c - 48 + 52)
  else if c = 45 then some 62
  else if c = 95 then some 63
  else none

/-- The bytes that the characters from an index on decode to, with the bits left over before them. -/
def base64UrlDecodeFrom (len : Nat) : Nat → Nat → Nat → List UInt8 → Except Base64UrlDecodeError (List UInt8)
  | _, _, _, [] => .ok []
  | i, acc, bits, c :: rest =>
    match base64UrlVal c with
    | none => .error (.invalidByte i c)
    | some v =>
      let acc := (acc * 64 + v) % 2 ^ 32
      let byte := if 8 ≤ bits + 6 then [UInt8.ofNat (acc / 2 ^ (bits + 6 - 8))] else []
      let bits := if 8 ≤ bits + 6 then bits + 6 - 8 else bits + 6
      if i = len - 1 ∧ 0 < bits ∧ acc % 2 ^ bits ≠ 0 then .error .nonCanonicalTrailingBits
      else (base64UrlDecodeFrom len (i + 1) acc bits rest).map (byte ++ ·)

/-- Padding at the end is dropped, after the length is checked. -/
def base64UrlDecode (s : String) : Except Base64UrlDecodeError (List UInt8) :=
  let bytes := s.toUTF8.data.toList
  if bytes.length % 4 = 1 then .error .invalidLength
  else
    let bytes := (bytes.reverse.dropWhile (· = 61)).reverse
    base64UrlDecodeFrom bytes.length 0 0 0 bytes

example : base64UrlDecode "-__-_Q==" = .ok [0xfb, 0xff, 0xfe, 0xfd] := by decide +kernel

example : base64UrlDecode "Zm9=" = .error .nonCanonicalTrailingBits := by decide +kernel

end Utils
end Kirino
