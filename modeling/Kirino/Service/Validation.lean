import Kirino.Lib.Text
import Kirino.Service.Users
import Mathlib.Data.List.DropRight
/-!
# Validation — the policies on names and passwords (`service/login/mod.rs`)

A name is trimmed before it is judged, and the trimmed one is the identity.  The standard library's Unicode classes are
a parameter where the password policy asks for them.
-/
namespace Kirino
namespace Service

open Lib (isWhitespace)

def trim (s : String) : String := String.ofList ((s.toList.dropWhile isWhitespace).rdropWhile isWhitespace)

/-! ## Names -/

def minUsernameLen : Nat := 2

def maxUsernameLen : Nat := 64

def isUsernameChar (c : Char) : Bool := c.isAlphanum || c == '_' || c == '-' || c == '.'

/-- The name to go on with. -/
def validateUsername (username : String) : Except ServiceError String :=
  let trimmed := trim username
  if trimmed = "" ∨ trimmed.utf8ByteSize < minUsernameLen then
    .error (.validation s!"username must be at least {minUsernameLen} characters")
  else if trimmed.utf8ByteSize > maxUsernameLen then
    .error (.validation s!"username must be at most {maxUsernameLen} characters")
  else if !trimmed.toList.all isUsernameChar then
    .error (.validation "username may only contain alphanumeric characters, underscores, hyphens, and dots")
  else .ok trimmed

theorem isWhitespace_of_isUsernameChar {c : Char} (h : isUsernameChar c = true) : isWhitespace c = false := by
  have hrange : 0x2d ≤ c.toNat ∧ c.toNat ≤ 0x7a := by
    change ((((65 ≤ c.val ∧ c.val ≤ 90 : Bool) || (97 ≤ c.val && c.val ≤ 122) || c.isDigit) || c == '_') || c == '-') ||
      c == '.' at h
    simp only [Char.isDigit, Bool.or_eq_true, Bool.and_eq_true, beq_iff_eq, decide_eq_true_eq, UInt32.le_iff_toNat_le,
      ge_iff_le] at h
    change (((((65 ≤ c.toNat ∧ c.toNat ≤ 90) ∨ (97 ≤ c.toNat ∧ c.toNat ≤ 122)) ∨ (48 ≤ c.toNat ∧ c.toNat ≤ 57)) ∨
      c = '_') ∨ c = '-') ∨ c = '.' at h
    rcases h with ((h | rfl) | rfl) | rfl
    · omega
    · decide
    · decide
    · decide
  unfold isWhitespace
  simp only [List.contains_eq_mem, List.mem_cons, List.not_mem_nil, or_false, Bool.or_eq_false_iff, Bool.and_eq_false_iff,
    decide_eq_false_iff_not]
  omega

theorem trim_eq_self {s : String} (h : ∀ c ∈ s.toList, isWhitespace c = false) : trim s = s := by
  have hfront : s.toList.dropWhile isWhitespace = s.toList :=
    List.dropWhile_eq_self_iff.2 (fun hl hc => by rw [h _ (List.getElem_mem hl)] at hc; cases hc)
  have hback : s.toList.rdropWhile isWhitespace = s.toList :=
    List.rdropWhile_eq_self_iff.2 (fun hl hc => by rw [h _ (List.getLast_mem hl)] at hc; cases hc)
  rw [trim, hfront, hback, String.ofList_toList]

theorem rdropWhile_append_of_all {α : Type} {p : α → Bool} {l post : List α} (hpost : ∀ c ∈ post, p c = true) :
    (l ++ post).rdropWhile p = l.rdropWhile p := by
  unfold List.rdropWhile
  rw [List.reverse_append, List.dropWhile_append_of_pos (fun c hc => hpost c (List.mem_reverse.1 hc))]

/-- **White space around a text is trimmed.** -/
theorem trim_append {before after : String} (hbefore : ∀ c ∈ before.toList, isWhitespace c = true)
    (hafter : ∀ c ∈ after.toList, isWhitespace c = true) (s : String) : trim (before ++ s ++ after) = trim s := by
  have hlist : ((before ++ s ++ after).toList.dropWhile isWhitespace).rdropWhile isWhitespace =
      (s.toList.dropWhile isWhitespace).rdropWhile isWhitespace := by
    rw [String.toList_append, String.toList_append, List.append_assoc, List.dropWhile_append_of_pos hbefore,
      List.dropWhile_append]
    split
    · rename_i hempty
      have hnil : after.toList.dropWhile isWhitespace = [] := List.dropWhile_eq_nil_iff.2 hafter
      rw [hnil, List.isEmpty_iff.1 hempty]
    · exact rdropWhile_append_of_all hafter
  unfold trim
  rw [hlist]

/-- **A validated name is its own canonical form.** -/
theorem validateUsername_idem {username name : String} (h : validateUsername username = .ok name) :
    validateUsername name = .ok name := by
  unfold validateUsername at h
  dsimp only at h
  split at h
  · cases h
  · rename_i hmin
    split at h
    · cases h
    · rename_i hmax
      split at h
      · cases h
      · rename_i hchars
        obtain rfl : trim username = name := Except.ok.inj h
        have htrim : trim (trim username) = trim username := by
          refine trim_eq_self (fun c hc => isWhitespace_of_isUsernameChar ?_)
          simp only [Bool.not_eq_true, Bool.not_eq_false'] at hchars
          exact List.all_eq_true.1 hchars c hc
        unfold validateUsername
        dsimp only
        rw [htrim, if_neg hmin, if_neg hmax, if_neg hchars]

/-! ## Passwords -/

def minPasswordLen : Nat := 8

def maxPasswordLen : Nat := 128

/-- The Unicode classes of the standard library. -/
structure CharClasses where
  isUppercase : Char → Bool
  isLowercase : Char → Bool
  isAlphanumeric : Char → Bool

/-- The classes of ASCII. -/
def CharClasses.ascii : CharClasses := ⟨Char.isUpper, Char.isLower, Char.isAlphanum⟩

def validatePassword (classes : CharClasses) (password : String) : Except ServiceError Unit :=
  if password.utf8ByteSize < minPasswordLen then
    .error (.validation s!"password must be at least {minPasswordLen} characters")
  else if password.utf8ByteSize > maxPasswordLen then
    .error (.validation s!"password must be at most {maxPasswordLen} characters")
  else
    let categories := [password.toList.any classes.isUppercase, password.toList.any classes.isLowercase,
      password.toList.any Char.isDigit, password.toList.any (fun c => !classes.isAlphanumeric c)].count true
    if categories < 3 then
      .error (.validation "password must contain at least 3 of: uppercase, lowercase, digit, special character")
    else .ok ()

example : validateUsername " ann " = .ok "ann" := by rfl
example : validatePassword .ascii "Passw0rd-1" = .ok () := by rfl

end Service
end Kirino
