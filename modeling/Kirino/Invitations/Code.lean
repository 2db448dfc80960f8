import Kirino.Service.Validation
import Kirino.Utils.ConstantTime
import Mathlib.Data.Bool.AllAny
import Mathlib.Logic.Relation
import Mathlib.Tactic.IntervalCases
/-!
# Code — invitation codes typed by hand (`invitation/code.rs`)

A code is typed with separators, in either case and with look-alikes, and read back into the alphabet one character at a
time.  `Edit` is what typing may do to a code, one change at a time; the canonical form is what no edit changes
(`canonical_of_edits`), and a code verifies exactly against those of its own canonical form.
-/
namespace Kirino
namespace Invitations

open Lib (isWhitespace)

def codeAlphabet : List Char := "0123456789ABCDEFGHJKMNPQRSTVWXYZ".toList

theorem codeIndex_lt (b : UInt8) : (b &&& 31).toNat < codeAlphabet.length := by
  have hle : (b &&& 31).toNat ≤ 31 := by
    rw [UInt8.toNat_and]
    exact Nat.and_le_right
  have hlength : codeAlphabet.length = 32 := by decide +kernel
  omega

/-- The code of the random bytes drawn, one character for each. -/
def generateCode (bytes : List UInt8) : String :=
  String.ofList (bytes.map (fun b => codeAlphabet.get ⟨(b &&& 31).toNat, codeIndex_lt b⟩))

def isSeparator (c : Char) : Bool := isWhitespace c || c == '-' || c == '_'

def canonicalChar (c : Char) : Char :=
  match c with
  | 'i' | 'I' | 'l' | 'L' => '1'
  | 'o' | 'O' => '0'
  | 'u' | 'U' => 'V'
  | other => other.toUpper

def canonical (raw : List Char) : List Char := (raw.filter (fun c => !isSeparator c)).map canonicalChar

def normalizeCode (raw : String) : String := String.ofList (canonical raw.toList)

def verifyCode (raw expected : String) : Bool :=
  Utils.constantTimeEq (normalizeCode raw).toUTF8.data.toList (normalizeCode expected).toUTF8.data.toList

/-! ## One character -/

def lowerLetters : List Char := "abcdefghijklmnopqrstuvwxyz".toList

def upperLetters : List Char := "ABCDEFGHIJKLMNOPQRSTUVWXYZ".toList

theorem mem_lowerLetters {c : Char} (hlow : 97 ≤ c.toNat) (hhigh : c.toNat ≤ 122) : c ∈ lowerLetters := by
  rw [← Char.ofNat_toNat c]
  generalize c.toNat = n at hlow hhigh
  interval_cases n <;> decide

theorem mem_upperLetters {c : Char} (hlow : 65 ≤ c.toNat) (hhigh : c.toNat ≤ 90) : c ∈ upperLetters := by
  rw [← Char.ofNat_toNat c]
  generalize c.toNat = n at hlow hhigh
  interval_cases n <;> decide

theorem toUpper_of_not_mem {c : Char} (h : c ∉ lowerLetters) : c.toUpper = c := by
  unfold Char.toUpper
  rw [dif_neg]
  rintro ⟨hlow, hhigh⟩
  exact h (mem_lowerLetters (UInt32.le_iff_toNat_le.1 hlow) (UInt32.le_iff_toNat_le.1 hhigh))

theorem toLower_of_not_mem {c : Char} (h : c ∉ upperLetters) : c.toLower = c := by
  unfold Char.toLower
  rw [dif_neg]
  rintro ⟨hlow, hhigh⟩
  exact h (mem_upperLetters (UInt32.le_iff_toNat_le.1 hlow) (UInt32.le_iff_toNat_le.1 hhigh))

/-- A small letter is read as a character of the alphabet. -/
theorem canonicalChar_lower : ∀ c ∈ lowerLetters, canonicalChar c ∈ codeAlphabet :=
  List.all_iff_forall_prop.1 (by decide +kernel)

/-- A character of the alphabet is read as itself. -/
theorem canonicalChar_alphabet : ∀ c ∈ codeAlphabet, canonicalChar c = c ∧ isSeparator c = false :=
  List.all_iff_forall_prop.1 (by decide +kernel)

theorem canonicalChar_cases (c : Char) : canonicalChar c ∈ codeAlphabet ∨ canonicalChar c = c := by
  by_cases hlower : c ∈ lowerLetters
  · exact Or.inl (canonicalChar_lower c hlower)
  · have hupper := toUpper_of_not_mem hlower
    unfold canonicalChar
    split
    all_goals first
      | exact Or.inl (by decide)
      | exact Or.inr hupper

theorem canonicalChar_idem (c : Char) : canonicalChar (canonicalChar c) = canonicalChar c := by
  rcases canonicalChar_cases c with hmem | hsame
  · exact (canonicalChar_alphabet _ hmem).1
  · rw [hsame, hsame]

/-- Nothing is read as a separator but a separator. -/
theorem isSeparator_canonicalChar {c : Char} (h : isSeparator c = false) : isSeparator (canonicalChar c) = false := by
  rcases canonicalChar_cases c with hmem | hsame
  · exact (canonicalChar_alphabet _ hmem).2
  · rw [hsame]
    exact h

/-! ## Texts -/

theorem canonical_append (front back : List Char) : canonical (front ++ back) = canonical front ++ canonical back := by
  rw [canonical, List.filter_append, List.map_append]
  rfl

theorem canonical_cons (c : Char) (rest : List Char) :
    canonical (c :: rest) = if isSeparator c then canonical rest else canonicalChar c :: canonical rest := by
  unfold canonical
  rw [List.filter_cons]
  cases isSeparator c with
  | true => rfl
  | false => rfl

theorem canonical_canonical (raw : List Char) : canonical (canonical raw) = canonical raw := by
  induction raw with
  | nil => rfl
  | cons c rest ih =>
    rw [canonical_cons]
    cases hseparator : isSeparator c with
    | true => exact ih
    | false =>
      rw [if_neg Bool.false_ne_true, canonical_cons, isSeparator_canonicalChar hseparator, if_neg Bool.false_ne_true,
        canonicalChar_idem, ih]

theorem canonical_of_alphabet {code : List Char} (h : ∀ c ∈ code, c ∈ codeAlphabet) : canonical code = code := by
  induction code with
  | nil => rfl
  | cons c rest ih =>
    obtain ⟨hsame, hseparator⟩ := canonicalChar_alphabet c (h c List.mem_cons_self)
    rw [canonical_cons, hseparator, if_neg Bool.false_ne_true, hsame, ih (fun d hd => h d (List.mem_cons_of_mem c hd))]

theorem normalizeCode_idem (raw : String) : normalizeCode (normalizeCode raw) = normalizeCode raw := by
  unfold normalizeCode
  rw [String.toList_ofList, canonical_canonical]

/-- The text is over the alphabet of the codes. -/
def IsCode (s : String) : Prop := ∀ c ∈ s.toList, c ∈ codeAlphabet

theorem normalizeCode_of_isCode {code : String} (h : IsCode code) : normalizeCode code = code := by
  unfold normalizeCode
  rw [canonical_of_alphabet h, String.ofList_toList]

/-- Every byte gives a character of the alphabet. -/
theorem isCode_generateCode (bytes : List UInt8) : IsCode (generateCode bytes) := by
  intro c hc
  unfold generateCode at hc
  rw [String.toList_ofList] at hc
  obtain ⟨b, -, rfl⟩ := List.mem_map.1 hc
  exact List.get_mem _ _

/-- **A code verifies exactly against those of its canonical form.** -/
theorem verifyCode_iff {raw expected : String} :
    verifyCode raw expected = true ↔ normalizeCode raw = normalizeCode expected := by
  unfold verifyCode
  rw [Utils.constantTimeEq_toUTF8, decide_eq_true_iff]

theorem verifyCode_equivalence : Equivalence (fun raw expected => verifyCode raw expected = true) where
  refl _ := verifyCode_iff.2 rfl
  symm h := verifyCode_iff.2 (verifyCode_iff.1 h).symm
  trans h h' := verifyCode_iff.2 ((verifyCode_iff.1 h).trans (verifyCode_iff.1 h'))

/-! ## What typing may do to a code -/

/-- A look-alike, and the character of the alphabet it is typed for. -/
def confusables : List (Char × Char) :=
  [('i', '1'), ('I', '1'), ('l', '1'), ('L', '1'), ('o', '0'), ('O', '0'), ('u', 'V'), ('U', 'V')]

/-- One change of a text: a separator inserted, a character in the other case, or a look-alike in its place. -/
inductive Edit : List Char → List Char → Prop where
  | insert (front : List Char) (c : Char) (back : List Char) (h : isSeparator c = true) :
      Edit (front ++ back) (front ++ c :: back)
  | upper (front : List Char) (c : Char) (back : List Char) : Edit (front ++ c :: back) (front ++ c.toUpper :: back)
  | lower (front : List Char) (c : Char) (back : List Char) : Edit (front ++ c :: back) (front ++ c.toLower :: back)
  | confuse (front : List Char) (typed c : Char) (back : List Char) (h : (typed, c) ∈ confusables) :
      Edit (front ++ c :: back) (front ++ typed :: back)

theorem canonical_replace {c typed : Char} (hread : canonicalChar typed = canonicalChar c)
    (hseparator : isSeparator typed = isSeparator c) (front back : List Char) :
    canonical (front ++ typed :: back) = canonical (front ++ c :: back) := by
  rw [canonical_append, canonical_append, canonical_cons, canonical_cons, hread, hseparator]

theorem canonicalChar_toUpper (c : Char) :
    canonicalChar c.toUpper = canonicalChar c ∧ isSeparator c.toUpper = isSeparator c := by
  have hletters : ∀ c ∈ lowerLetters, canonicalChar c.toUpper = canonicalChar c ∧ isSeparator c.toUpper = isSeparator c :=
    List.all_iff_forall_prop.1 (by decide +kernel)
  by_cases hlower : c ∈ lowerLetters
  · exact hletters c hlower
  · rw [toUpper_of_not_mem hlower]
    exact ⟨rfl, rfl⟩

theorem canonicalChar_toLower (c : Char) :
    canonicalChar c.toLower = canonicalChar c ∧ isSeparator c.toLower = isSeparator c := by
  have hletters : ∀ c ∈ upperLetters, canonicalChar c.toLower = canonicalChar c ∧ isSeparator c.toLower = isSeparator c :=
    List.all_iff_forall_prop.1 (by decide +kernel)
  by_cases hupper : c ∈ upperLetters
  · exact hletters c hupper
  · rw [toLower_of_not_mem hupper]
    exact ⟨rfl, rfl⟩

theorem canonicalChar_confusable : ∀ p ∈ confusables, canonicalChar p.1 = canonicalChar p.2 ∧
    isSeparator p.1 = isSeparator p.2 :=
  List.all_iff_forall_prop.1 (by decide +kernel)

/-- An edit does not change how a text is read. -/
theorem canonical_of_edit {text typed : List Char} (h : Edit text typed) : canonical typed = canonical text := by
  cases h with
  | insert front c back h => rw [canonical_append, canonical_append, canonical_cons, if_pos h]
  | upper front c back => exact canonical_replace (canonicalChar_toUpper c).1 (canonicalChar_toUpper c).2 front back
  | lower front c back => exact canonical_replace (canonicalChar_toLower c).1 (canonicalChar_toLower c).2 front back
  | confuse front typed c back h =>
    exact canonical_replace (canonicalChar_confusable _ h).1 (canonicalChar_confusable _ h).2 front back

theorem canonical_of_edits {text typed : List Char} (h : Relation.ReflTransGen Edit text typed) :
    canonical typed = canonical text := by
  induction h with
  | refl => rfl
  | tail _ hedit ih => rw [canonical_of_edit hedit, ih]

/-- **Codes are read up to their canonical form, and no further.**  Normalising is idempotent and leaves a code alone;
verifying is an equivalence; a generated code typed with any number of edits verifies against it; and codes of different
canonical forms do not verify. -/
theorem codes_canonical (raw expected : String) (bytes : List UInt8) (typed : List Char) :
    normalizeCode (normalizeCode raw) = normalizeCode raw ∧ (IsCode raw → normalizeCode raw = raw) ∧
      Equivalence (fun raw expected => verifyCode raw expected = true) ∧
      (Relation.ReflTransGen Edit (generateCode bytes).toList typed →
        verifyCode (String.ofList typed) (generateCode bytes) = true) ∧
      (normalizeCode raw ≠ normalizeCode expected → verifyCode raw expected = false) := by
  refine ⟨normalizeCode_idem raw, normalizeCode_of_isCode, verifyCode_equivalence, fun hedits => ?_, fun hne => ?_⟩
  · rw [verifyCode_iff, normalizeCode, String.toList_ofList, canonical_of_edits hedits]
    rfl
  · exact Bool.eq_false_iff.2 (fun h => hne (verifyCode_iff.1 h))

end Invitations
end Kirino
