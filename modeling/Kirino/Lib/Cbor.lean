import Mathlib.Algebra.Group.Nat.Defs
import Mathlib.Data.List.Induction
/-!
# Cbor — big-endian numerals, and the items of a concise binary object

An item is a head, the first byte and its argument, and the content that the head announces.  `IsItem levels` are the
encodings of items of definite length that are nested no deeper than `levels`.
-/
namespace Kirino
namespace Lib
namespace Cbor

/-! ## Numerals -/

/-- The number of the bytes, the first byte the highest. -/
def beNat (bytes : List UInt8) : Nat := bytes.foldl (fun n b => n * 256 + b.toNat) 0

/-- The last `k` bytes of a number. -/
def beBytes : Nat → Nat → List UInt8
  | 0, _ => []
  | k + 1, n => beBytes k (n / 256) ++ [UInt8.ofNat n]

theorem beNat_concat (bytes : List UInt8) (b : UInt8) : beNat (bytes ++ [b]) = beNat bytes * 256 + b.toNat := by
  unfold beNat
  rw [List.foldl_append]
  rfl

@[simp] theorem length_beBytes (k n : Nat) : (beBytes k n).length = k := by
  induction k generalizing n with
  | zero => rfl
  | succ k ih => rw [beBytes, List.length_append, ih, List.length_singleton]

theorem beNat_cons (b : UInt8) (bytes : List UInt8) : beNat (b :: bytes) = b.toNat * 256 ^ bytes.length + beNat bytes := by
  induction bytes using List.reverseRecOn with
  | nil => simp [beNat]
  | append_singleton bytes c ih =>
    rw [← List.cons_append, beNat_concat, beNat_concat, ih, List.length_append, List.length_singleton, Nat.pow_succ,
      Nat.add_mul, Nat.mul_assoc, Nat.add_assoc]

theorem beNat_beBytes (k n : Nat) (hn : n < 256 ^ k) : beNat (beBytes k n) = n := by
  induction k generalizing n with
  | zero =>
    have hzero : n = 0 := by simpa using hn
    rw [hzero]
    rfl
  | succ k ih =>
    have hdiv : n / 256 < 256 ^ k := Nat.div_lt_of_lt_mul (by rw [Nat.mul_comm]; exact hn)
    rw [beBytes, beNat_concat, ih _ hdiv, UInt8.toNat_ofNat']
    omega

theorem beNat_lt (bytes : List UInt8) : beNat bytes < 256 ^ bytes.length := by
  induction bytes using List.reverseRecOn with
  | nil => exact Nat.one_pos
  | append_singleton bytes b ih =>
    have hb := b.toNat_lt
    rw [beNat_concat, List.length_append, List.length_singleton, Nat.pow_succ]
    omega

theorem beBytes_beNat (bytes : List UInt8) : beBytes bytes.length (beNat bytes) = bytes := by
  induction bytes using List.reverseRecOn with
  | nil => rfl
  | append_singleton bytes b ih =>
    have hb := b.toNat_lt
    have hdiv : (beNat bytes * 256 + b.toNat) / 256 = beNat bytes := by omega
    rw [List.length_append, List.length_singleton, beBytes, beNat_concat, hdiv, ih]
    congr 2
    apply UInt8.toNat_inj.1
    rw [UInt8.toNat_ofNat']
    omega

/-! ## The grammar -/

/-- How many bytes of argument follow the first byte. -/
def argLength (info : Nat) : Option Nat :=
  if info ≤ 23 then some 0
  else if info = 24 then some 1
  else if info = 25 then some 2
  else if info = 26 then some 4
  else if info = 27 then some 8
  else none

/-- A head: the first byte has the major type, and the value itself or the length of the argument. -/
structure IsHead (major value : Nat) (first : UInt8) (arg : List UInt8) : Prop where
  major : major = first.toNat / 32
  length : argLength (first.toNat % 32) = some arg.length
  value : value = if arg = [] then first.toNat % 32 else beNat arg

/-- So many items, one after the other. -/
def IsItems (item : List UInt8 → Prop) (n : Nat) (bytes : List UInt8) : Prop :=
  ∃ items : List (List UInt8), items.length = n ∧ items.flatten = bytes ∧ ∀ x ∈ items, item x

/-- What follows a head. -/
def IsContent (item : List UInt8 → Prop) (major value : Nat) (content : List UInt8) : Prop :=
  match major with
  | 0 | 1 | 7 => content = []
  | 2 | 3 => content.length = value
  | 4 => IsItems item value content
  | 5 => IsItems item (2 * value) content
  | 6 => item content
  | _ => False

/-- The encoding of one item, nested no deeper than the levels. -/
def IsItem : Nat → List UInt8 → Prop
  | 0, _ => False
  | levels + 1, bytes => ∃ major value first arg content, bytes = first :: (arg ++ content) ∧
      IsHead major value first arg ∧ IsContent (IsItem levels) major value content

theorem IsItem.pos {levels : Nat} {x : List UInt8} (h : IsItem levels x) : 1 ≤ x.length := by
  cases levels with
  | zero => exact h.elim
  | succ levels =>
    obtain ⟨_, _, first, arg, content, rfl, -⟩ := h
    exact Nat.succ_pos _

/-- The first byte decides the length of the argument, and both decide the value. -/
theorem IsHead.unique {major value major' value' : Nat} {first : UInt8} {arg arg' tail tail' : List UInt8}
    (h : IsHead major value first arg) (h' : IsHead major' value' first arg') (hsame : arg ++ tail = arg' ++ tail') :
    major = major' ∧ value = value' ∧ arg = arg' ∧ tail = tail' := by
  have hlength : arg.length = arg'.length := Option.some.inj (h.length.symm.trans h'.length)
  obtain ⟨rfl, rfl⟩ := List.append_inj hsame hlength
  exact ⟨h.major.trans h'.major.symm, h.value.trans h'.value.symm, rfl, rfl⟩

/-- An item at the beginning of the bytes has its head there. -/
theorem IsItem.head {levels : Nat} {x : List UInt8} (hx : IsItem levels x) {first : UInt8} {rest tail : List UInt8}
    (hsplit : first :: rest = x ++ tail) :
    ∃ major value arg tail', rest = arg ++ tail' ∧ IsHead major value first arg := by
  cases levels with
  | zero => exact hx.elim
  | succ levels =>
    obtain ⟨major, value, first', arg, content, rfl, hhead, -⟩ := hx
    rw [List.cons_append, List.append_assoc] at hsplit
    obtain ⟨rfl, rfl⟩ := List.cons.inj hsplit
    exact ⟨major, value, arg, content ++ tail, rfl, hhead⟩

/-- An item at the beginning of the bytes, whose head is known. -/
theorem IsItem.content {levels : Nat} {x : List UInt8} (hx : IsItem (levels + 1) x) {major value : Nat} {first : UInt8}
    {arg tail rest : List UInt8} (hhead : IsHead major value first arg) (hsplit : first :: (arg ++ tail) = x ++ rest) :
    ∃ content, x = first :: (arg ++ content) ∧ tail = content ++ rest ∧
      IsContent (IsItem levels) major value content := by
  obtain ⟨major', value', first', arg', content, rfl, hhead', hcontent⟩ := hx
  rw [List.cons_append, List.append_assoc] at hsplit
  obtain ⟨rfl, hrest⟩ := List.cons.inj hsplit
  obtain ⟨rfl, rfl, rfl, rfl⟩ := hhead.unique hhead' hrest
  exact ⟨content, rfl, rfl, hcontent⟩

/-! ## Sequences of items -/

theorem isItems_zero {item : List UInt8 → Prop} {bytes : List UInt8} : IsItems item 0 bytes ↔ bytes = [] := by
  constructor
  · rintro ⟨items, hlength, rfl, -⟩
    rw [List.length_eq_zero_iff.1 hlength]
    rfl
  · rintro rfl
    exact ⟨[], rfl, rfl, nofun⟩

theorem isItems_succ {item : List UInt8 → Prop} {n : Nat} {bytes : List UInt8} :
    IsItems item (n + 1) bytes ↔ ∃ x rest, bytes = x ++ rest ∧ item x ∧ IsItems item n rest := by
  constructor
  · rintro ⟨items, hlength, rfl, hitems⟩
    cases items with
    | nil => cases hlength
    | cons x items =>
      exact ⟨x, items.flatten, List.flatten_cons, hitems x List.mem_cons_self, items, Nat.succ.inj hlength, rfl,
        fun y hy => hitems y (List.mem_cons_of_mem x hy)⟩
  · rintro ⟨x, rest, rfl, hx, items, rfl, rfl, hitems⟩
    exact ⟨x :: items, rfl, List.flatten_cons, List.forall_mem_cons.2 ⟨hx, hitems⟩⟩

end Cbor
end Lib
end Kirino
