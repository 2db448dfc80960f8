import Mathlib.Data.Int.Basic
/-!
# PrefixBits — the first bits of a word, and the mask that keeps them

Bits are counted from the highest.  Two words have the same first bits exactly when they are the same under the mask of
those bits (`and_highBits_eq_iff`); a mask is all ones moved up by the number of bits that it does not keep.
-/
namespace Kirino
namespace Lib

variable {w : Nat}

/-- The words have the same first bits. -/
def SameBits (n : Nat) (x y : BitVec w) : Prop := ∀ i, i < n → x.getMsbD i = y.getMsbD i

theorem SameBits.symm {n : Nat} {x y : BitVec w} (h : SameBits n x y) : SameBits n y x := fun i hi => (h i hi).symm

theorem SameBits.trans {n : Nat} {x y z : BitVec w} (h : SameBits n x y) (h' : SameBits n y z) : SameBits n x z :=
  fun i hi => (h i hi).trans (h' i hi)

theorem SameBits.congr_left {n : Nat} {x y : BitVec w} (h : SameBits n x y) (z : BitVec w) :
    SameBits n x z ↔ SameBits n y z := ⟨h.symm.trans, h.trans⟩

/-- The mask of the first bits. -/
def highBits (w n : Nat) : BitVec w := BitVec.allOnes w <<< (w - n)

theorem getMsbD_highBits {n : Nat} (hn : n ≤ w) (i : Nat) : (highBits w n).getMsbD i = decide (i < n) := by
  unfold highBits
  rw [BitVec.getMsbD_shiftLeft, BitVec.getMsbD_allOnes]
  apply decide_eq_decide.2
  omega

/-- **The same under the mask is the same in the first bits.** -/
theorem and_highBits_eq_iff {n : Nat} (hn : n ≤ w) (x y : BitVec w) :
    x &&& highBits w n = y &&& highBits w n ↔ SameBits n x y := by
  constructor
  · intro h i hi
    have hbit := congrArg (fun z => BitVec.getMsbD z i) h
    simpa [getMsbD_highBits hn, hi] using hbit
  · intro h
    apply BitVec.eq_of_getMsbD_eq
    intro i _
    rw [BitVec.getMsbD_and, BitVec.getMsbD_and, getMsbD_highBits hn]
    by_cases hi : i < n
    · rw [h i hi]
    · simp [hi]

end Lib
end Kirino
