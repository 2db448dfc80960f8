import Mathlib.Data.List.Basic
/-!
# Sextets — bytes regrouped as six-bit digits

Three bytes are four digits; a rest of two bytes is three digits and a rest of one byte two, the bits left over in the
last digit being zero.  `Spells` is that correspondence.  Bytes have one spelling (`Spells.digits_unique`), and no
spelling has one digit more than whole groups (`Spells.length_mod`).
-/
namespace Kirino
namespace Lib

/-- The digits spell the bytes. -/
inductive Spells : List Nat → List Nat → Prop
  | nil : Spells [] []
  | two {a b : Nat} (h0 : a < 64) (h1 : b < 64) (hz : b % 16 = 0) : Spells [a, b] [a * 4 + b / 16]
  | three {a b c : Nat} (h0 : a < 64) (h1 : b < 64) (h2 : c < 64) (hz : c % 4 = 0) :
      Spells [a, b, c] [a * 4 + b / 16, b % 16 * 16 + c / 4]
  | four {a b c d : Nat} {ds bs : List Nat} (h0 : a < 64) (h1 : b < 64) (h2 : c < 64) (h3 : d < 64)
      (h : Spells ds bs) :
      Spells (a :: b :: c :: d :: ds)
        ((a * 4 + b / 16) :: (b % 16 * 16 + c / 4) :: (c % 4 * 64 + d) :: bs)

variable {ds ds' bs : List Nat}

theorem spells_one {b0 : Nat} (h0 : b0 < 256) : Spells [b0 / 4, b0 % 4 * 16] [b0] := by
  have h := Spells.two (a := b0 / 4) (b := b0 % 4 * 16) (by omega) (by omega) (by omega)
  have hb0 : b0 / 4 * 4 + b0 % 4 * 16 / 16 = b0 := by omega
  rwa [hb0] at h

theorem spells_two {b0 b1 : Nat} (h0 : b0 < 256) (h1 : b1 < 256) :
    Spells [b0 / 4, b0 % 4 * 16 + b1 / 16, b1 % 16 * 4] [b0, b1] := by
  have h := Spells.three (a := b0 / 4) (b := b0 % 4 * 16 + b1 / 16) (c := b1 % 16 * 4) (by omega) (by omega)
    (by omega) (by omega)
  have hb0 : b0 / 4 * 4 + (b0 % 4 * 16 + b1 / 16) / 16 = b0 := by omega
  have hb1 : (b0 % 4 * 16 + b1 / 16) % 16 * 16 + b1 % 16 * 4 / 4 = b1 := by omega
  rwa [hb0, hb1] at h

theorem spells_three {b0 b1 b2 : Nat} (h0 : b0 < 256) (h1 : b1 < 256) (h2 : b2 < 256) (h : Spells ds bs) :
    Spells (b0 / 4 :: (b0 % 4 * 16 + b1 / 16) :: (b1 % 16 * 4 + b2 / 64) :: b2 % 64 :: ds) (b0 :: b1 :: b2 :: bs) := by
  have h := Spells.four (a := b0 / 4) (b := b0 % 4 * 16 + b1 / 16) (c := b1 % 16 * 4 + b2 / 64) (d := b2 % 64)
    (by omega) (by omega) (by omega) (by omega) h
  have hb0 : b0 / 4 * 4 + (b0 % 4 * 16 + b1 / 16) / 16 = b0 := by omega
  have hb1 : (b0 % 4 * 16 + b1 / 16) % 16 * 16 + (b1 % 16 * 4 + b2 / 64) / 4 = b1 := by omega
  have hb2 : (b1 % 16 * 4 + b2 / 64) % 4 * 64 + b2 % 64 = b2 := by omega
  rwa [hb0, hb1, hb2] at h

theorem Spells.digit_lt (h : Spells ds bs) : ∀ d ∈ ds, d < 64 := by
  induction h with
  | nil => simp
  | two h0 h1 => simp [h0, h1]
  | three h0 h1 h2 => simp [h0, h1, h2]
  | four h0 h1 h2 h3 _ ih => simpa [h0, h1, h2, h3] using ih

theorem Spells.length_mod (h : Spells ds bs) : ds.length % 4 ≠ 1 := by
  induction h with
  | nil => simp
  | two => simp
  | three => simp
  | four _ _ _ _ _ ih =>
    simp only [List.length_cons]
    omega

/-- **One spelling.** -/
theorem Spells.digits_unique (h : Spells ds bs) (h' : Spells ds' bs) : ds = ds' := by
  induction h generalizing ds' with
  | nil =>
    cases h'
    rfl
  | two h0 h1 hz =>
    generalize hb : [_] = out at h'
    cases h' with
    | nil => simp at hb
    | two h0' h1' hz' =>
      simp only [List.cons.injEq, and_true] at hb ⊢
      omega
    | three => simp at hb
    | four => simp at hb
  | three h0 h1 h2 hz =>
    generalize hb : [_, _] = out at h'
    cases h' with
    | nil => simp at hb
    | two => simp at hb
    | three h0' h1' h2' hz' =>
      simp only [List.cons.injEq, and_true] at hb ⊢
      omega
    | four => simp at hb
  | four h0 h1 h2 h3 _ ih =>
    generalize hb : _ :: _ :: _ :: _ = out at h'
    cases h' with
    | nil => simp at hb
    | two => simp at hb
    | three => simp at hb
    | four h0' h1' h2' h3' h' =>
      simp only [List.cons.injEq] at hb
      obtain ⟨hb0, hb1, hb2, rfl⟩ := hb
      rw [ih h']
      simp only [List.cons.injEq, and_true]
      omega

end Lib
end Kirino
