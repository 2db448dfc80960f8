import Mathlib.Data.List.GetD
import Mathlib.Order.MinMax
/-!
# ConstantTime — comparing bytes (`src/utils.rs`)

The bytes of the longer slice are all read, a missing one as zero, and the differences are gathered in one word.
-/
namespace Kirino
namespace Utils

def constantTimeEq (a b : List UInt8) : Bool :=
  let maxLen := max a.length b.length
  let diff := (List.range maxLen).foldl (fun (diff : UInt64) i => diff ||| (a.getD i 0 ^^^ b.getD i 0).toUInt64)
    (if a.length ≠ b.length then 1 else 0)
  diff = 0

theorem or_eq_zero {x y : UInt64} : x ||| y = 0 ↔ x = 0 ∧ y = 0 := UInt64.or_eq_zero_iff

/-- What is gathered is zero when nothing differs. -/
theorem foldl_or_eq_zero (f : Nat → UInt64) : ∀ (l : List Nat) (d : UInt64),
    l.foldl (fun diff i => diff ||| f i) d = 0 ↔ d = 0 ∧ ∀ i ∈ l, f i = 0
  | [], d => by simp
  | i :: l, d => by
    rw [List.foldl_cons, foldl_or_eq_zero f l, or_eq_zero, List.forall_mem_cons, and_assoc]

theorem toUInt64_xor_eq_zero {x y : UInt8} : (x ^^^ y).toUInt64 = 0 ↔ x = y := by
  rw [← UInt64.toNat_inj, UInt8.toNat_toUInt64]
  constructor
  · intro h
    have hzero : x ^^^ y = 0 := UInt8.toNat_inj.1 h
    exact UInt8.xor_eq_zero_iff.1 hzero
  · rintro rfl
    rw [UInt8.xor_self]
    rfl

/-- **The comparison is equality.** -/
theorem constantTimeEq_iff {a b : List UInt8} : constantTimeEq a b = true ↔ a = b := by
  unfold constantTimeEq
  dsimp only
  rw [decide_eq_true_iff, foldl_or_eq_zero]
  constructor
  · rintro ⟨hlen, hbytes⟩
    by_cases hab : a.length = b.length
    · refine List.ext_getElem hab (fun i hi hi' => ?_)
      have hmem : i ∈ List.range (max a.length b.length) := List.mem_range.2 (lt_max_of_lt_left hi)
      have hsame := toUInt64_xor_eq_zero.1 (hbytes i hmem)
      rwa [List.getD_eq_getElem _ _ hi, List.getD_eq_getElem _ _ hi'] at hsame
    · rw [if_pos hab] at hlen
      exact absurd hlen (by decide)
  · rintro rfl
    exact ⟨if_neg (not_not_intro rfl), fun i _ => toUInt64_xor_eq_zero.2 rfl⟩

theorem toUTF8_inj {s t : String} (h : s.toUTF8.data.toList = t.toUTF8.data.toList) : s = t := by
  apply String.toByteArray_inj.1
  apply ByteArray.ext
  exact Array.toList_inj.1 h

/-- Texts are compared by their bytes. -/
theorem constantTimeEq_toUTF8 (s t : String) :
    constantTimeEq s.toUTF8.data.toList t.toUTF8.data.toList = decide (s = t) := by
  rw [Bool.eq_iff_iff, constantTimeEq_iff, decide_eq_true_iff]
  exact ⟨toUTF8_inj, congrArg (fun s : String => s.toUTF8.data.toList)⟩

end Utils
end Kirino
