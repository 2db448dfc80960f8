import Mathlib.Data.List.DropRight
import Kirino.Lib.Sextets
import Kirino.Utils.Base64Url
import Kirino.Utils.ConstantTime
/-!
# Base64Exact — what `base64url::decode` accepts

The decoder takes characters in groups of four, with an accumulator that outlives the groups.  What it accepts from a
group's start is `Reads`: the digits of `Lib.Spells`, and one digit more than whole groups where that digit is zero.  A
text of that length is refused by its length alone, but the length is taken before the padding is trimmed: `A===` passes,
and reads as the text of no bytes.
-/
namespace Kirino
namespace Utils
open Lib (Spells)

variable {len i acc k v v0 v1 v2 v3 : Nat} {c c0 c1 c2 c3 : UInt8} {rest : List UInt8}

theorem base64UrlVal_lt (h : base64UrlVal c = some v) : v < 64 := by
  unfold base64UrlVal at h
  dsimp only at h
  split_ifs at h
  all_goals
    simp only [Option.some.injEq] at h
    omega

theorem isLast_iff (hlen : len = i + (rest.length + 1)) : i = len - 1 ↔ rest = [] := by
  rw [← List.length_eq_zero_iff]
  omega

/-- The first character of a group gives no byte yet. -/
theorem decodeFrom_fill (hlen : len = i + (rest.length + 1)) (hv : base64UrlVal c = some v) :
    base64UrlDecodeFrom len i acc 0 (c :: rest) =
      if rest = [] ∧ v ≠ 0 then .error .nonCanonicalTrailingBits
      else base64UrlDecodeFrom len (i + 1) ((acc * 64 + v) % 2 ^ 32) 6 rest := by
  have hlt := base64UrlVal_lt hv
  have hz : (acc * 64 + v) % 2 ^ 32 % 2 ^ 6 = v := by omega
  have h6 : 0 < 6 := by decide
  rw [base64UrlDecodeFrom, hv]
  simp only [isLast_iff hlen, Nat.zero_add, Nat.reduceLeDiff, if_false, hz, h6, true_and, List.nil_append]
  cases base64UrlDecodeFrom len (i + 1) ((acc * 64 + v) % 2 ^ 32) 6 rest with
  | error e => rfl
  | ok out => rfl

/-- Any other character completes a byte. -/
theorem decodeFrom_emit (hlen : len = i + (rest.length + 1)) (hv : base64UrlVal c = some v) :
    base64UrlDecodeFrom len i acc (k + 2) (c :: rest) =
      if rest = [] ∧ 0 < k ∧ (acc * 64 + v) % 2 ^ 32 % 2 ^ k ≠ 0 then .error .nonCanonicalTrailingBits
      else (base64UrlDecodeFrom len (i + 1) ((acc * 64 + v) % 2 ^ 32) k rest).map
        (UInt8.ofNat ((acc * 64 + v) % 2 ^ 32 / 2 ^ k) :: ·) := by
  have h8 : 8 ≤ k + 2 + 6 := by omega
  have hk : k + 2 + 6 - 8 = k := by omega
  rw [base64UrlDecodeFrom, hv]
  simp only [isLast_iff hlen, if_pos h8, hk, List.cons_append, List.nil_append]

theorem ofNat_eq_of_mod {m n : Nat} (h : m % 256 = n % 256) : UInt8.ofNat m = UInt8.ofNat n := by
  rw [← UInt8.toNat_inj]
  simpa using h

theorem toNat_ofNat_lt {n : Nat} (h : n < 256) : (UInt8.ofNat n).toNat = n :=
  UInt8.toNat_ofNat_of_lt' h

theorem decodeFrom_one (hlen : len = i + 1) (h0 : base64UrlVal c0 = some v0) :
    base64UrlDecodeFrom len i acc 0 [c0] = if v0 = 0 then .ok [] else .error .nonCanonicalTrailingBits := by
  rw [decodeFrom_fill hlen h0, base64UrlDecodeFrom]
  simp

theorem decodeFrom_two (hlen : len = i + 2) (h0 : base64UrlVal c0 = some v0) (h1 : base64UrlVal c1 = some v1) :
    base64UrlDecodeFrom len i acc 0 [c0, c1] =
      if v1 % 16 = 0 then .ok [UInt8.ofNat (v0 * 4 + v1 / 16)] else .error .nonCanonicalTrailingBits := by
  have hlt0 := base64UrlVal_lt h0
  have hlt1 := base64UrlVal_lt h1
  have hz : ((acc * 64 + v0) % 2 ^ 32 * 64 + v1) % 2 ^ 32 % 2 ^ 4 = v1 % 16 := by omega
  have hb : UInt8.ofNat (((acc * 64 + v0) % 2 ^ 32 * 64 + v1) % 2 ^ 32 / 2 ^ 4) = UInt8.ofNat (v0 * 4 + v1 / 16) :=
    ofNat_eq_of_mod (by omega)
  rw [decodeFrom_fill hlen h0, if_neg (by simp), decodeFrom_emit hlen h1, hz, hb, base64UrlDecodeFrom]
  simp [Except.map]

theorem decodeFrom_three (hlen : len = i + 3) (h0 : base64UrlVal c0 = some v0) (h1 : base64UrlVal c1 = some v1)
    (h2 : base64UrlVal c2 = some v2) :
    base64UrlDecodeFrom len i acc 0 [c0, c1, c2] =
      if v2 % 4 = 0 then .ok [UInt8.ofNat (v0 * 4 + v1 / 16), UInt8.ofNat (v1 % 16 * 16 + v2 / 4)]
      else .error .nonCanonicalTrailingBits := by
  have hlt0 := base64UrlVal_lt h0
  have hlt1 := base64UrlVal_lt h1
  have hlt2 := base64UrlVal_lt h2
  rw [decodeFrom_fill hlen h0, if_neg (by simp), decodeFrom_emit hlen h1, if_neg (by simp), decodeFrom_emit hlen h2,
    base64UrlDecodeFrom]
  generalize hx : ((acc * 64 + v0) % 2 ^ 32 * 64 + v1) % 2 ^ 32 = x
  have hb0 : UInt8.ofNat (x / 2 ^ 4) = UInt8.ofNat (v0 * 4 + v1 / 16) := ofNat_eq_of_mod (by omega)
  have hb1 : UInt8.ofNat ((x * 64 + v2) % 2 ^ 32 / 2 ^ 2) = UInt8.ofNat (v1 % 16 * 16 + v2 / 4) :=
    ofNat_eq_of_mod (by omega)
  have hz : (x * 64 + v2) % 2 ^ 32 % 2 ^ 2 = v2 % 4 := by omega
  rw [hb0, hb1, hz]
  simp [Except.map]
  split_ifs <;> rfl

/-- A whole group of characters is three bytes, whatever the group before it left in the accumulator. -/
theorem decodeFrom_four (acc : Nat) (hlen : len = i + (rest.length + 4)) (h0 : base64UrlVal c0 = some v0)
    (h1 : base64UrlVal c1 = some v1) (h2 : base64UrlVal c2 = some v2) (h3 : base64UrlVal c3 = some v3) :
    ∃ acc', base64UrlDecodeFrom len i acc 0 (c0 :: c1 :: c2 :: c3 :: rest) =
      (base64UrlDecodeFrom len (i + 4) acc' 0 rest).map
        ([UInt8.ofNat (v0 * 4 + v1 / 16), UInt8.ofNat (v1 % 16 * 16 + v2 / 4), UInt8.ofNat (v2 % 4 * 64 + v3)] ++ ·) := by
  have hlt0 := base64UrlVal_lt h0
  have hlt1 := base64UrlVal_lt h1
  have hlt2 := base64UrlVal_lt h2
  have hlt3 := base64UrlVal_lt h3
  rw [decodeFrom_fill (by simp; omega) h0, if_neg (by simp), decodeFrom_emit (by simp; omega) h1, if_neg (by simp),
    decodeFrom_emit (by simp; omega) h2, if_neg (by simp), decodeFrom_emit (by omega) h3, if_neg (by simp)]
  generalize hx : ((acc * 64 + v0) % 2 ^ 32 * 64 + v1) % 2 ^ 32 = x
  generalize hy : (x * 64 + v2) % 2 ^ 32 = y
  have hb0 : UInt8.ofNat (x / 2 ^ 4) = UInt8.ofNat (v0 * 4 + v1 / 16) := ofNat_eq_of_mod (by omega)
  have hb1 : UInt8.ofNat (y / 2 ^ 2) = UInt8.ofNat (v1 % 16 * 16 + v2 / 4) := ofNat_eq_of_mod (by omega)
  have hb2 : UInt8.ofNat ((y * 64 + v3) % 2 ^ 32 / 2 ^ 0) = UInt8.ofNat (v2 % 4 * 64 + v3) :=
    ofNat_eq_of_mod (by omega)
  refine ⟨(y * 64 + v3) % 2 ^ 32, ?_⟩
  rw [hb0, hb1, hb2]
  cases base64UrlDecodeFrom len (i + 4) ((y * 64 + v3) % 2 ^ 32) 0 rest with
  | error e => rfl
  | ok out => rfl

/-- What the decoder makes of digits: a spelling, or whole groups and a lone zero digit. -/
inductive Reads : List Nat → List Nat → Prop
  | nil : Reads [] []
  | lone : Reads [0] []
  | two {a b : Nat} (h0 : a < 64) (h1 : b < 64) (hz : b % 16 = 0) : Reads [a, b] [a * 4 + b / 16]
  | three {a b c : Nat} (h0 : a < 64) (h1 : b < 64) (h2 : c < 64) (hz : c % 4 = 0) :
      Reads [a, b, c] [a * 4 + b / 16, b % 16 * 16 + c / 4]
  | four {a b c d : Nat} {ds bs : List Nat} (h0 : a < 64) (h1 : b < 64) (h2 : c < 64) (h3 : d < 64)
      (h : Reads ds bs) :
      Reads (a :: b :: c :: d :: ds) ((a * 4 + b / 16) :: (b % 16 * 16 + c / 4) :: (c % 4 * 64 + d) :: bs)

variable {ds bs : List Nat}

theorem reads_of_spells (h : Spells ds bs) : Reads ds bs := by
  induction h with
  | nil => exact Reads.nil
  | two h0 h1 hz => exact Reads.two h0 h1 hz
  | three h0 h1 h2 hz => exact Reads.three h0 h1 h2 hz
  | four h0 h1 h2 h3 _ ih => exact Reads.four h0 h1 h2 h3 ih

/-- Away from the lone digit the decoder reads spellings only. -/
theorem Reads.spells_or_lone (h : Reads ds bs) : Spells ds bs ∨ ds.length % 4 = 1 ∧ ds.getLast? = some 0 := by
  induction h with
  | nil => exact Or.inl Spells.nil
  | lone => exact Or.inr ⟨rfl, rfl⟩
  | two h0 h1 hz => exact Or.inl (Spells.two h0 h1 hz)
  | three h0 h1 h2 hz => exact Or.inl (Spells.three h0 h1 h2 hz)
  | @four a b c d ds bs h0 h1 h2 h3 _ ih =>
    rcases ih with hs | ⟨hlen, hlast⟩
    · exact Or.inl (Spells.four h0 h1 h2 h3 hs)
    · refine Or.inr ⟨?_, ?_⟩
      · simp only [List.length_cons]
        omega
      · cases ds with
        | nil => simp at hlen
        | cons e ds => simpa using hlast

theorem exists_reads_lone : ∀ (ds : List Nat), (∀ d ∈ ds, d < 64) → ds.length % 4 = 1 → ds.getLast? = some 0 →
    ∃ bs : List UInt8, Reads ds (bs.map UInt8.toNat)
  | [], _, h, _ => by simp at h
  | [d], _, _, hz => by
    obtain rfl : d = 0 := by simpa using hz
    exact ⟨[], Reads.lone⟩
  | [_, _], _, h, _ => by simp at h
  | [_, _, _], _, h, _ => by simp at h
  | a :: b :: c :: d :: ds, hlt, h, hz => by
    simp only [List.mem_cons, forall_eq_or_imp] at hlt
    obtain ⟨h0, h1, h2, h3, hlt⟩ := hlt
    have hlen : ds.length % 4 = 1 := by
      simp only [List.length_cons] at h
      omega
    have hlast : ds.getLast? = some 0 := by
      cases ds with
      | nil => simp at hlen
      | cons e ds => simpa using hz
    obtain ⟨bs, hbs⟩ := exists_reads_lone ds hlt hlen hlast
    refine ⟨UInt8.ofNat (a * 4 + b / 16) :: UInt8.ofNat (b % 16 * 16 + c / 4) :: UInt8.ofNat (c % 4 * 64 + d) :: bs, ?_⟩
    have hr := Reads.four h0 h1 h2 h3 hbs
    rw [List.map_cons, List.map_cons, List.map_cons, toNat_ofNat_lt (by omega), toNat_ofNat_lt (by omega),
      toNat_ofNat_lt (by omega)]
    exact hr

/-- The decoder reads what can be read. -/
theorem decodeFrom_of_reads {cs : List UInt8} (h : Reads ds bs) (hlen : len = i + cs.length)
    (hv : cs.map base64UrlVal = ds.map some) :
    base64UrlDecodeFrom len i acc 0 cs = .ok (bs.map UInt8.ofNat) := by
  induction h generalizing cs i acc with
  | nil =>
    obtain rfl : cs = [] := by simpa using hv
    rw [base64UrlDecodeFrom]
    rfl
  | lone =>
    obtain ⟨c0, rfl, h0⟩ : ∃ c0, cs = [c0] ∧ base64UrlVal c0 = some 0 := by simpa [List.map_eq_cons_iff] using hv
    rw [decodeFrom_one hlen h0, if_pos rfl]
    rfl
  | @two a b _ _ hz =>
    obtain ⟨c0, c1, rfl, h0, h1⟩ : ∃ c0 c1, cs = [c0, c1] ∧ base64UrlVal c0 = some a ∧ base64UrlVal c1 = some b := by
      simpa [List.map_eq_cons_iff] using hv
    rw [decodeFrom_two hlen h0 h1, if_pos hz]
    rfl
  | @three a b c _ _ _ hz =>
    obtain ⟨c0, c1, c2, rfl, h0, h1, h2⟩ : ∃ c0 c1 c2, cs = [c0, c1, c2] ∧ base64UrlVal c0 = some a ∧
        base64UrlVal c1 = some b ∧ base64UrlVal c2 = some c := by
      simpa [List.map_eq_cons_iff] using hv
    rw [decodeFrom_three hlen h0 h1 h2, if_pos hz]
    rfl
  | @four a b c d ds bs _ _ _ _ _ ih =>
    obtain ⟨c0, c1, c2, c3, rest, rfl, h0, h1, h2, h3, hrest⟩ : ∃ c0 c1 c2 c3 rest, cs = c0 :: c1 :: c2 :: c3 :: rest ∧
        base64UrlVal c0 = some a ∧ base64UrlVal c1 = some b ∧ base64UrlVal c2 = some c ∧ base64UrlVal c3 = some d ∧
          rest.map base64UrlVal = ds.map some := by
      obtain ⟨c0, cs, rfl, h0, hv⟩ := List.map_eq_cons_iff.1 hv
      obtain ⟨c1, cs, rfl, h1, hv⟩ := List.map_eq_cons_iff.1 hv
      obtain ⟨c2, cs, rfl, h2, hv⟩ := List.map_eq_cons_iff.1 hv
      obtain ⟨c3, rest, rfl, h3, hv⟩ := List.map_eq_cons_iff.1 hv
      exact ⟨c0, c1, c2, c3, rest, rfl, h0, h1, h2, h3, hv⟩
    simp only [List.length_cons] at hlen
    obtain ⟨acc', hgroup⟩ := decodeFrom_four acc hlen h0 h1 h2 h3
    rw [hgroup, ih (by omega) hrest]
    rfl

/-- What the decoder reads can be read. -/
theorem reads_of_decodeFrom : ∀ (cs : List UInt8) {ds : List Nat} {i acc : Nat} {out : List UInt8},
    len = i + cs.length → cs.map base64UrlVal = ds.map some →
      base64UrlDecodeFrom len i acc 0 cs = .ok out → Reads ds (out.map UInt8.toNat)
  | [], ds, i, acc, out, _, hv, h => by
    obtain rfl : ds = [] := by simpa using hv.symm
    rw [base64UrlDecodeFrom] at h
    cases h
    exact Reads.nil
  | [c0], ds, i, acc, out, hlen, hv, h => by
    obtain ⟨v0, ds, rfl, h0, hv⟩ := List.map_eq_cons_iff.1 hv.symm
    obtain rfl : ds = [] := by simpa using hv
    rw [decodeFrom_one hlen h0.symm] at h
    split_ifs at h with hz
    cases h
    rw [hz]
    exact Reads.lone
  | [c0, c1], ds, i, acc, out, hlen, hv, h => by
    obtain ⟨v0, ds, rfl, h0, hv⟩ := List.map_eq_cons_iff.1 hv.symm
    obtain ⟨v1, ds, rfl, h1, hv⟩ := List.map_eq_cons_iff.1 hv
    obtain rfl : ds = [] := by simpa using hv
    have hlt0 := base64UrlVal_lt h0.symm
    have hlt1 := base64UrlVal_lt h1.symm
    rw [decodeFrom_two hlen h0.symm h1.symm] at h
    split_ifs at h with hz
    cases h
    rw [List.map_cons, toNat_ofNat_lt (by omega)]
    exact Reads.two hlt0 hlt1 hz
  | [c0, c1, c2], ds, i, acc, out, hlen, hv, h => by
    obtain ⟨v0, ds, rfl, h0, hv⟩ := List.map_eq_cons_iff.1 hv.symm
    obtain ⟨v1, ds, rfl, h1, hv⟩ := List.map_eq_cons_iff.1 hv
    obtain ⟨v2, ds, rfl, h2, hv⟩ := List.map_eq_cons_iff.1 hv
    obtain rfl : ds = [] := by simpa using hv
    have hlt0 := base64UrlVal_lt h0.symm
    have hlt1 := base64UrlVal_lt h1.symm
    have hlt2 := base64UrlVal_lt h2.symm
    rw [decodeFrom_three hlen h0.symm h1.symm h2.symm] at h
    split_ifs at h with hz
    cases h
    rw [List.map_cons, List.map_cons, toNat_ofNat_lt (by omega), toNat_ofNat_lt (by omega)]
    exact Reads.three hlt0 hlt1 hlt2 hz
  | c0 :: c1 :: c2 :: c3 :: rest, ds, i, acc, out, hlen, hv, h => by
    obtain ⟨v0, ds, rfl, h0, hv⟩ := List.map_eq_cons_iff.1 hv.symm
    obtain ⟨v1, ds, rfl, h1, hv⟩ := List.map_eq_cons_iff.1 hv
    obtain ⟨v2, ds, rfl, h2, hv⟩ := List.map_eq_cons_iff.1 hv
    obtain ⟨v3, ds, rfl, h3, hv⟩ := List.map_eq_cons_iff.1 hv
    have hlt0 := base64UrlVal_lt h0.symm
    have hlt1 := base64UrlVal_lt h1.symm
    have hlt2 := base64UrlVal_lt h2.symm
    have hlt3 := base64UrlVal_lt h3.symm
    simp only [List.length_cons] at hlen
    obtain ⟨acc', hgroup⟩ := decodeFrom_four acc hlen h0.symm h1.symm h2.symm h3.symm
    rw [hgroup] at h
    cases hr : base64UrlDecodeFrom len (i + 4) acc' 0 rest with
    | error e =>
      rw [hr] at h
      cases h
    | ok out' =>
      rw [hr] at h
      cases h
      have hreads := reads_of_decodeFrom rest (by omega) hv.symm hr
      simp only [List.cons_append, List.nil_append, List.map_cons]
      rw [toNat_ofNat_lt (by omega), toNat_ofNat_lt (by omega), toNat_ofNat_lt (by omega)]
      exact Reads.four hlt0 hlt1 hlt2 hlt3 hreads

theorem map_ofNat_map_toNat (bs : List UInt8) : (bs.map UInt8.toNat).map UInt8.ofNat = bs := by
  rw [List.map_map]
  exact List.map_id'' (fun b => UInt8.ofNat_toNat) bs

/-- **From a group's start the decoder accepts what `Reads` reads.** -/
theorem decodeFrom_ok_iff {cs out : List UInt8} (hlen : len = i + cs.length)
    (hv : cs.map base64UrlVal = ds.map some) :
    base64UrlDecodeFrom len i acc 0 cs = .ok out ↔ Reads ds (out.map UInt8.toNat) := by
  constructor
  · exact reads_of_decodeFrom cs hlen hv
  · intro h
    rw [decodeFrom_of_reads h hlen hv, map_ofNat_map_toNat]

/-! ## The alphabet -/

def base64UrlByte (d : Nat) : UInt8 := UInt8.ofNat (base64UrlChar d).toNat

-- spelled out, so that evaluating a digit does not decode the text of the table each time
theorem base64UrlTable_eq : base64UrlTable =
    ['A', 'B', 'C', 'D', 'E', 'F', 'G', 'H', 'I', 'J', 'K', 'L', 'M',
      'N', 'O', 'P', 'Q', 'R', 'S', 'T', 'U', 'V', 'W', 'X', 'Y', 'Z',
      'a', 'b', 'c', 'd', 'e', 'f', 'g', 'h', 'i', 'j', 'k', 'l', 'm',
      'n', 'o', 'p', 'q', 'r', 's', 't', 'u', 'v', 'w', 'x', 'y', 'z',
      '0', '1', '2', '3', '4', '5', '6', '7', '8', '9', '-', '_'] := String.toList_ofList

theorem base64UrlChar_mod (n : Nat) : base64UrlChar (n % 64) = base64UrlChar n := by
  rw [base64UrlChar, Nat.mod_mod, ← base64UrlChar]

/-- What a digit's character is: of the alphabet, a single byte, never the padding, and read back as the digit. -/
theorem base64UrlChar_facts : ∀ d : Fin 64, base64UrlChar d ∈ base64UrlTable ∧ (base64UrlChar d).toNat < 128 ∧
    base64UrlChar d ≠ '=' ∧ base64UrlByte d ≠ 61 ∧ base64UrlVal (base64UrlByte d) = some d := by
  unfold base64UrlByte base64UrlChar
  rw [base64UrlTable_eq]
  decide +kernel

theorem base64UrlByte_of_val_facts : ∀ c : Fin 256, ∀ v ∈ base64UrlVal (UInt8.ofNat c), base64UrlByte v = UInt8.ofNat c := by
  unfold base64UrlByte base64UrlChar
  rw [base64UrlTable_eq]
  decide +kernel

theorem base64UrlChar_eq_A_facts : ∀ d : Fin 64, base64UrlChar d = 'A' ↔ d.val = 0 := by
  unfold base64UrlChar
  rw [base64UrlTable_eq]
  decide +kernel

theorem length_base64UrlTable : base64UrlTable.length = 64 := by
  rw [base64UrlTable_eq]
  rfl

theorem exists_digit_of_mem {c : Char} (h : c ∈ base64UrlTable) : ∃ d : Fin 64, base64UrlChar d = c := by
  obtain ⟨d, hd, rfl⟩ := List.mem_iff_getElem.1 h
  have hlt : d < 64 := by rwa [length_base64UrlTable] at hd
  refine ⟨⟨d, hlt⟩, ?_⟩
  rw [base64UrlChar, Nat.mod_eq_of_lt hlt, List.getD_eq_getElem _ _ hd]

theorem base64UrlByte_of_val (h : base64UrlVal c = some v) : base64UrlByte v = c := by
  have h' := base64UrlByte_of_val_facts ⟨c.toNat, c.toNat_lt⟩ v
  simp only [UInt8.ofNat_toNat] at h'
  exact h' h

theorem map_val_map_byte {ds : List Nat} (hlt : ∀ d ∈ ds, d < 64) :
    (ds.map base64UrlByte).map base64UrlVal = ds.map some := by
  rw [List.map_map]
  apply List.map_congr_left
  intro d hd
  exact (base64UrlChar_facts ⟨d, hlt d hd⟩).2.2.2.2

/-- Every character that is decoded is one of the alphabet. -/
theorem exists_digits_of_ok : ∀ (cs : List UInt8) {i acc k : Nat} {out : List UInt8},
    base64UrlDecodeFrom len i acc k cs = .ok out → ∃ ds : List Nat, (∀ d ∈ ds, d < 64) ∧ cs = ds.map base64UrlByte
  | [], _, _, _, _, _ => ⟨[], by simp, rfl⟩
  | c :: rest, i, acc, k, out, h => by
    rw [base64UrlDecodeFrom] at h
    cases hv : base64UrlVal c with
    | none =>
      rw [hv] at h
      cases h
    | some v =>
      rw [hv] at h
      dsimp only at h
      generalize (if 8 ≤ k + 6 then [UInt8.ofNat ((acc * 64 + v) % 2 ^ 32 / 2 ^ (k + 6 - 8))] else []) = byte at h
      generalize (if 8 ≤ k + 6 then k + 6 - 8 else k + 6) = bits at h
      split at h
      · cases h
      · generalize hr : base64UrlDecodeFrom len (i + 1) _ _ rest = r at h
        cases r with
        | error e => cases h
        | ok out' =>
          obtain ⟨ds, hlt, rfl⟩ := exists_digits_of_ok rest hr
          refine ⟨v :: ds, ?_, by rw [List.map_cons, base64UrlByte_of_val hv]⟩
          simpa [base64UrlVal_lt hv] using hlt

/-! ## The encoder -/

/-- The encoder writes the spelling of its bytes. -/
theorem base64UrlChars_spells : ∀ bytes : List UInt8,
    ∃ ds, base64UrlChars bytes = ds.map base64UrlChar ∧ Spells ds (bytes.map UInt8.toNat)
  | [] => ⟨[], rfl, Spells.nil⟩
  | [b0] => by
    have h0 := b0.toNat_lt
    refine ⟨_, ?_, Lib.spells_one h0⟩
    rw [base64UrlChars]
    simp only [List.map_cons, List.map_nil]
    rw [← base64UrlChar_mod (_ / 262144), ← base64UrlChar_mod (_ / 4096)]
    have e0 : b0.toNat * 65536 / 262144 % 64 = b0.toNat / 4 := by omega
    have e1 : b0.toNat * 65536 / 4096 % 64 = b0.toNat % 4 * 16 := by omega
    rw [e0, e1]
  | [b0, b1] => by
    have h0 := b0.toNat_lt
    have h1 := b1.toNat_lt
    refine ⟨_, ?_, Lib.spells_two h0 h1⟩
    rw [base64UrlChars]
    simp only [List.map_cons, List.map_nil]
    rw [← base64UrlChar_mod (_ / 262144), ← base64UrlChar_mod (_ / 4096), ← base64UrlChar_mod (_ / 64)]
    have e0 : (b0.toNat * 65536 + b1.toNat * 256) / 262144 % 64 = b0.toNat / 4 := by omega
    have e1 : (b0.toNat * 65536 + b1.toNat * 256) / 4096 % 64 = b0.toNat % 4 * 16 + b1.toNat / 16 := by omega
    have e2 : (b0.toNat * 65536 + b1.toNat * 256) / 64 % 64 = b1.toNat % 16 * 4 := by omega
    rw [e0, e1, e2]
  | b0 :: b1 :: b2 :: rest => by
    have h0 := b0.toNat_lt
    have h1 := b1.toNat_lt
    have h2 := b2.toNat_lt
    obtain ⟨ds, hds, hspells⟩ := base64UrlChars_spells rest
    refine ⟨_, ?_, Lib.spells_three h0 h1 h2 hspells⟩
    rw [base64UrlChars]
    simp only [List.map_cons, hds]
    rw [← base64UrlChar_mod (_ / 262144), ← base64UrlChar_mod (_ / 4096), ← base64UrlChar_mod (_ / 64),
      ← base64UrlChar_mod (_ + b2.toNat)]
    have e0 : (b0.toNat * 65536 + b1.toNat * 256 + b2.toNat) / 262144 % 64 = b0.toNat / 4 := by omega
    have e1 : (b0.toNat * 65536 + b1.toNat * 256 + b2.toNat) / 4096 % 64 = b0.toNat % 4 * 16 + b1.toNat / 16 := by omega
    have e2 : (b0.toNat * 65536 + b1.toNat * 256 + b2.toNat) / 64 % 64 = b1.toNat % 16 * 4 + b2.toNat / 64 := by omega
    have e3 : (b0.toNat * 65536 + b1.toNat * 256 + b2.toNat) % 64 = b2.toNat % 64 := by omega
    rw [e0, e1, e2, e3]

/-! ## Texts -/

/-- The text of digits, with padding behind it. -/
def padded (ds : List Nat) (n : Nat) : String := String.ofList (ds.map base64UrlChar ++ List.replicate n '=')

theorem toUTF8_ofList (l : List Char) : (String.ofList l).toUTF8.data.toList = l.flatMap String.utf8EncodeChar := by
  rw [String.toUTF8_eq_toByteArray, String.toByteArray_ofList, List.utf8Encode, List.data_toByteArray]

theorem utf8EncodeChar_ascii {c : Char} (h : c.toNat < 128) : String.utf8EncodeChar c = [UInt8.ofNat c.toNat] := by
  have hle : c.val.toNat ≤ 0x7f := Nat.le_of_lt_succ h
  rw [String.utf8EncodeChar]
  exact if_pos hle

theorem toUTF8_padded {ds : List Nat} (hlt : ∀ d ∈ ds, d < 64) (n : Nat) :
    (padded ds n).toUTF8.data.toList = ds.map base64UrlByte ++ List.replicate n 61 := by
  rw [padded, toUTF8_ofList, List.flatMap_append]
  congr 1
  · induction ds with
    | nil => rfl
    | cons d ds ih =>
      have hd := (base64UrlChar_facts ⟨d, hlt d List.mem_cons_self⟩).2.1
      rw [List.map_cons, List.flatMap_cons, utf8EncodeChar_ascii hd,
        ih (fun e he => hlt e (List.mem_cons_of_mem d he))]
      rfl
  · induction n with
    | zero => rfl
    | succ n ih =>
      rw [List.replicate_succ, List.replicate_succ, List.flatMap_cons, ih]
      rfl

/-- A run of `x` behind a list without it is what is dropped. -/
theorem rdropWhile_append_replicate {α : Type} [DecidableEq α] {x : α} {l : List α} (h : ∀ y ∈ l, y ≠ x) (n : Nat) :
    (l ++ List.replicate n x).rdropWhile (· = x) = l := by
  induction n with
  | zero =>
    rw [List.replicate_zero, List.append_nil, List.rdropWhile_eq_self_iff]
    intro hl
    simpa using h _ (List.getLast_mem hl)
  | succ n ih => rw [List.replicate_succ', ← List.append_assoc, List.rdropWhile_concat_pos _ _ _ (by simp), ih]

theorem exists_append_replicate {α : Type} [DecidableEq α] (x : α) (l : List α) :
    ∃ n, l = l.rdropWhile (· = x) ++ List.replicate n x := by
  refine ⟨(l.rtakeWhile (· = x)).length, ?_⟩
  have hrun : l.rtakeWhile (· = x) = List.replicate (l.rtakeWhile (· = x)).length x := by
    apply List.eq_replicate_of_mem
    intro y hy
    simpa using List.mem_rtakeWhile_imp hy
  rw [← hrun, List.rdropWhile_append_rtakeWhile]

/-- `trim_end_matches('=')`. -/
def trimPadding (s : String) : String := String.ofList (s.toList.rdropWhile (· = '='))

theorem base64UrlDecode_padded {ds : List Nat} (hlt : ∀ d ∈ ds, d < 64) (n : Nat) :
    base64UrlDecode (padded ds n) =
      if (ds.length + n) % 4 = 1 then .error .invalidLength
      else base64UrlDecodeFrom ds.length 0 0 0 (ds.map base64UrlByte) := by
  have hne : ∀ c ∈ ds.map base64UrlByte, c ≠ 61 := by
    intro c hc
    obtain ⟨d, hd, rfl⟩ := List.mem_map.1 hc
    exact (base64UrlChar_facts ⟨d, hlt d hd⟩).2.2.2.1
  rw [base64UrlDecode, toUTF8_padded hlt]
  dsimp only
  rw [← List.rdropWhile, rdropWhile_append_replicate hne]
  simp

theorem trimPadding_padded {ds : List Nat} (hlt : ∀ d ∈ ds, d < 64) (n : Nat) :
    trimPadding (padded ds n) = padded ds 0 := by
  have hne : ∀ c ∈ ds.map base64UrlChar, c ≠ '=' := by
    intro c hc
    obtain ⟨d, hd, rfl⟩ := List.mem_map.1 hc
    exact (base64UrlChar_facts ⟨d, hlt d hd⟩).2.2.1
  rw [trimPadding, padded, String.toList_ofList, rdropWhile_append_replicate hne, padded, List.replicate_zero,
    List.append_nil]

/-- What decodes is digits and padding. -/
theorem exists_padded_of_decode {s : String} {out : List UInt8} (h : base64UrlDecode s = .ok out) :
    ∃ ds n, (∀ d ∈ ds, d < 64) ∧ s = padded ds n := by
  rw [base64UrlDecode] at h
  dsimp only at h
  split_ifs at h
  obtain ⟨n, hn⟩ := exists_append_replicate 61 s.toUTF8.data.toList
  rw [← List.rdropWhile] at h
  obtain ⟨ds, hlt, hbytes⟩ := exists_digits_of_ok _ h
  refine ⟨ds, n, hlt, ?_⟩
  apply toUTF8_inj
  rw [toUTF8_padded hlt, ← hbytes]
  exact hn

/-- **What decodes**: digits that can be read, with padding that does not make the length one over whole groups. -/
theorem base64UrlDecode_padded_ok_iff {ds : List Nat} (hlt : ∀ d ∈ ds, d < 64) (n : Nat) {out : List UInt8} :
    base64UrlDecode (padded ds n) = .ok out ↔ (ds.length + n) % 4 ≠ 1 ∧ Reads ds (out.map UInt8.toNat) := by
  rw [base64UrlDecode_padded hlt]
  split_ifs with hlen
  · simp [hlen]
  · rw [decodeFrom_ok_iff (by simp) (map_val_map_byte hlt)]
    simp [hlen]

theorem base64UrlEncode_eq_padded (bytes : List UInt8) :
    ∃ ds, base64UrlEncode bytes = padded ds 0 ∧ Spells ds (bytes.map UInt8.toNat) := by
  obtain ⟨ds, hds, hspells⟩ := base64UrlChars_spells bytes
  refine ⟨ds, ?_, hspells⟩
  rw [base64UrlEncode, hds, padded, List.replicate_zero, List.append_nil]

theorem padded_inj {ds ds' : List Nat} (hlt : ∀ d ∈ ds, d < 64) (hlt' : ∀ d ∈ ds', d < 64)
    (h : padded ds 0 = padded ds' 0) : ds = ds' := by
  have hbytes := congrArg (fun s : String => s.toUTF8.data.toList) h
  simp only [toUTF8_padded hlt, toUTF8_padded hlt', List.replicate_zero, List.append_nil] at hbytes
  have hvals := congrArg (List.map base64UrlVal) hbytes
  rw [map_val_map_byte hlt, map_val_map_byte hlt'] at hvals
  exact List.map_injective_iff.2 (fun _ _ => Option.some.inj) hvals

/-- A text of digits is the encoding of the bytes exactly when the digits spell them. -/
theorem padded_eq_encode_iff {ds : List Nat} (hlt : ∀ d ∈ ds, d < 64) {bytes : List UInt8} :
    padded ds 0 = base64UrlEncode bytes ↔ Spells ds (bytes.map UInt8.toNat) := by
  obtain ⟨ds', henc, hspells⟩ := base64UrlEncode_eq_padded bytes
  rw [henc]
  constructor
  · intro h
    rwa [padded_inj hlt hspells.digit_lt h]
  · intro h
    rw [h.digits_unique hspells]

/-- The text without its padding is one character over whole groups, an `A`, and the length with the padding is not. -/
def LoneA (s : String) : Prop :=
  (∀ c ∈ (trimPadding s).toList, c ∈ base64UrlTable) ∧ (trimPadding s).toList.length % 4 = 1 ∧
    (trimPadding s).toList.getLast? = some 'A' ∧ s.toUTF8.data.toList.length % 4 ≠ 1

theorem loneA_padded_iff {ds : List Nat} (hlt : ∀ d ∈ ds, d < 64) (n : Nat) :
    LoneA (padded ds n) ↔ ds.length % 4 = 1 ∧ ds.getLast? = some 0 ∧ (ds.length + n) % 4 ≠ 1 := by
  have htrim : (trimPadding (padded ds n)).toList = ds.map base64UrlChar := by
    rw [trimPadding_padded hlt, padded, List.replicate_zero, List.append_nil, String.toList_ofList]
  have htable : ∀ c ∈ ds.map base64UrlChar, c ∈ base64UrlTable := by
    intro c hc
    obtain ⟨d, hd, rfl⟩ := List.mem_map.1 hc
    exact (base64UrlChar_facts ⟨d, hlt d hd⟩).1
  have hlast : (ds.map base64UrlChar).getLast? = some 'A' ↔ ds.getLast? = some 0 := by
    rw [List.getLast?_map]
    cases hl : ds.getLast? with
    | none => simp
    | some d =>
      have hd := base64UrlChar_eq_A_facts ⟨d, hlt d (List.mem_of_getLast? hl)⟩
      simpa using hd
  rw [LoneA, htrim, toUTF8_padded hlt, hlast, and_iff_right htable]
  simp

theorem exists_digits_of_table : ∀ (l : List Char), (∀ c ∈ l, c ∈ base64UrlTable) →
    ∃ ds : List Nat, (∀ d ∈ ds, d < 64) ∧ l = ds.map base64UrlChar
  | [], _ => ⟨[], by simp, rfl⟩
  | c :: l, h => by
    obtain ⟨d, rfl⟩ := exists_digit_of_mem (h c List.mem_cons_self)
    obtain ⟨ds, hlt, rfl⟩ := exists_digits_of_table l (fun c' hc => h c' (List.mem_cons_of_mem _ hc))
    exact ⟨d :: ds, by simpa using hlt, rfl⟩

theorem exists_padded_of_loneA {s : String} (h : LoneA s) : ∃ ds n, (∀ d ∈ ds, d < 64) ∧ s = padded ds n := by
  obtain ⟨ds, hlt, hds⟩ := exists_digits_of_table _ h.1
  obtain ⟨n, hn⟩ := exists_append_replicate '=' s.toList
  rw [trimPadding, String.toList_ofList] at hds
  refine ⟨ds, n, hlt, ?_⟩
  rw [padded, ← hds, ← hn, String.ofList_toList]

theorem base64Url_round_trip (bytes : List UInt8) : base64UrlDecode (base64UrlEncode bytes) = .ok bytes := by
  obtain ⟨ds, henc, hspells⟩ := base64UrlEncode_eq_padded bytes
  rw [henc, base64UrlDecode_padded_ok_iff hspells.digit_lt]
  exact ⟨hspells.length_mod, reads_of_spells hspells⟩

theorem base64Url_alphabet (bytes : List UInt8) : ∀ c ∈ (base64UrlEncode bytes).toList, c ∈ base64UrlTable ∧ c ≠ '=' := by
  obtain ⟨ds, henc, hspells⟩ := base64UrlEncode_eq_padded bytes
  intro c hc
  rw [henc, padded, List.replicate_zero, List.append_nil, String.toList_ofList] at hc
  obtain ⟨d, hd, rfl⟩ := List.mem_map.1 hc
  have hfacts := base64UrlChar_facts ⟨d, hspells.digit_lt d hd⟩
  exact ⟨hfacts.1, hfacts.2.2.1⟩

/-- **The converse of the round trip**, string by string. -/
theorem base64Url_converse_iff (s : String) :
    (∀ bytes, base64UrlDecode s = .ok bytes → trimPadding s = base64UrlEncode bytes) ↔ ¬ LoneA s := by
  constructor
  · intro h hlone
    obtain ⟨ds, n, hlt, rfl⟩ := exists_padded_of_loneA hlone
    rw [loneA_padded_iff hlt] at hlone
    obtain ⟨hlen, hlast, hn⟩ := hlone
    obtain ⟨bytes, hreads⟩ := exists_reads_lone ds hlt hlen hlast
    have htrim := h bytes ((base64UrlDecode_padded_ok_iff hlt n).2 ⟨hn, hreads⟩)
    rw [trimPadding_padded hlt, padded_eq_encode_iff hlt] at htrim
    exact htrim.length_mod hlen
  · intro h bytes hdec
    obtain ⟨ds, n, hlt, rfl⟩ := exists_padded_of_decode hdec
    rw [base64UrlDecode_padded_ok_iff hlt] at hdec
    rw [loneA_padded_iff hlt] at h
    rw [trimPadding_padded hlt, padded_eq_encode_iff hlt]
    rcases hdec.2.spells_or_lone with hspells | ⟨hlen, hlast⟩
    · exact hspells
    · exact absurd ⟨hlen, hlast, hdec.1⟩ h

/-- A text without padding is never a lone `A` behind whole groups: its own length gives it away. -/
theorem not_loneA_of_unpadded {s : String} (h : trimPadding s = s) : ¬ LoneA s := by
  intro hlone
  obtain ⟨ds, n, hlt, rfl⟩ := exists_padded_of_loneA hlone
  rw [trimPadding_padded hlt] at h
  rw [← h, loneA_padded_iff hlt] at hlone
  exact hlone.2.2 (by simpa using hlone.1)

/-- **Base64url is exact but for the lone `A`**: every byte string comes back from its encoding, which is of the
alphabet; a text decodes to the bytes it is the encoding of, up to padding, unless it is one character over whole
groups with a padding that hides it; and two texts without padding never decode to the same bytes. -/
theorem base64Url_exact (bytes : List UInt8) (s t : String) :
    (base64UrlDecode (base64UrlEncode bytes) = .ok bytes ∧
      ∀ c ∈ (base64UrlEncode bytes).toList, c ∈ base64UrlTable ∧ c ≠ '=') ∧
    ((∀ out, base64UrlDecode s = .ok out → trimPadding s = base64UrlEncode out) ↔ ¬ LoneA s) ∧
    (trimPadding s = s → trimPadding t = t → ∀ out, base64UrlDecode s = .ok out → base64UrlDecode t = .ok out → s = t) := by
  refine ⟨⟨base64Url_round_trip bytes, base64Url_alphabet bytes⟩, base64Url_converse_iff s, ?_⟩
  intro hs ht out hdecs hdect
  have hencs := (base64Url_converse_iff s).2 (not_loneA_of_unpadded hs) out hdecs
  have henct := (base64Url_converse_iff t).2 (not_loneA_of_unpadded ht) out hdect
  rw [← hs, ← ht, hencs, henct]

/-- Five bytes, from a text with padding. -/
theorem base64Url_exact_padded : trimPadding "Zm9vYmE=" = base64UrlEncode "fooba".toUTF8.data.toList := by
  apply (base64Url_exact [] "Zm9vYmE=" "").2.1.2
  · rintro ⟨-, hlen, -⟩
    revert hlen
    decide +kernel
  · decide +kernel

/-- A lone character with padding decodes to no bytes, which are the bytes of the empty text. -/
theorem base64UrlDecode_loneA : ¬ ∀ s bytes, base64UrlDecode s = .ok bytes → trimPadding s = base64UrlEncode bytes := by
  intro h
  have htrim := h "A===" [] (by decide +kernel)
  revert htrim
  decide +kernel

end Utils
end Kirino
