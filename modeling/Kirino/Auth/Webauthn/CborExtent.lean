import Kirino.Auth.Webauthn.CborWalk
/-!
# CborExtent — how far the walk over a CBOR item goes (`auth/passport/webauthn/auth_data.rs`)

The walk answers with the length of the item that its input begins with, so what comes behind that item does not matter.
However many elements a head announces, a loop stops at the first that is not there: each call of the walk is at a byte of
its own, but for the last at each level, and so the calls are hardly more than the bytes (`walkCalls_le`).  The input is a
slice, which has fewer than `2^63` bytes.
-/
namespace Kirino
namespace Auth
namespace Webauthn

open Lib (addU64 ok_of_bind)
open Lib.Cbor (IsItem)

/-! ## The calls of a walk -/

section Loops
variable (item : List UInt8 → Except CborStop Nat) (calls : List UInt8 → Nat) (input : List UInt8)

/-- The calls of a loop over so many items, none behind an item that is refused. -/
def loopCalls : Nat → Nat → Nat
  | 0, _ => 0
  | n + 1, consumed =>
    match getFrom input consumed with
    | none => 0
    | some rest =>
      calls rest +
        match consumeItem item input consumed with
        | .ok consumed => loopCalls n consumed
        | .error _ => 0

/-- The items that a head announces. -/
def announcedItems (major value : Nat) : Nat :=
  match major with
  | 4 => value
  | 5 => 2 * value
  | 6 => 1
  | _ => 0

end Loops

/-- The calls that the walk makes, itself one of them. -/
def walkCalls : Nat → List UInt8 → Nat
  | 0, _ => 1
  | _ + 1, [] => 1
  | levels + 1, first :: rest =>
    match cborArg (first &&& 0b00011111) rest with
    | none => 1
    | some (hdrExtra, value) =>
      1 + loopCalls (cborItemLenDepth levels) (walkCalls levels) (first :: rest)
        (announcedItems (first >>> 5).toNat value) (1 + hdrExtra)

section Bounds
variable {item : List UInt8 → Except CborStop Nat} {calls : List UInt8 → Nat} {input : List UInt8}

theorem consumeItem_eq_ok {consumed consumed' : Nat} (h : consumeItem item input consumed = .ok consumed') :
    ∃ rest len, getFrom input consumed = some rest ∧ item rest = .ok len ∧ consumed' = consumed + len := by
  obtain ⟨rest, hrest, h⟩ := ok_of_bind h
  obtain ⟨len, hlen, hsum⟩ := ok_of_bind h
  have hget : getFrom input consumed = some rest := by
    cases hget : getFrom input consumed with
    | none =>
      rw [hget] at hrest
      cases hrest
    | some rest' =>
      rw [hget] at hrest
      exact congrArg some (Except.ok.inj hrest)
  refine ⟨rest, len, hget, hlen, ?_⟩
  unfold addU64 at hsum
  split at hsum
  · exact (Except.ok.inj hsum).symm
  · cases hsum

/-- **A loop calls no more than it goes over**, and on the way to a refusal no more than is left. -/
theorem loopCalls_le {slack : Nat} (hok : ∀ rest len, item rest = .ok len → calls rest ≤ len ∧ len ≤ rest.length)
    (hall : ∀ rest, calls rest ≤ rest.length + slack) : ∀ n consumed : Nat, consumed ≤ input.length →
      consumed + loopCalls item calls input n consumed ≤ input.length + slack ∧
        ∀ total, consumeItems item input n consumed = .ok total →
          consumed + loopCalls item calls input n consumed ≤ total
  | 0, consumed, hconsumed => by
    refine ⟨Nat.le_trans hconsumed (Nat.le_add_right _ _), fun total h => ?_⟩
    exact Nat.le_of_eq (Except.ok.inj h)
  | n + 1, consumed, hconsumed => by
    have hget : getFrom input consumed = some (input.drop consumed) := if_pos hconsumed
    have hlength : (input.drop consumed).length = input.length - consumed := List.length_drop
    have hrest := hall (input.drop consumed)
    rw [loopCalls, hget]
    dsimp only
    cases hstep : consumeItem item input consumed with
    | error e =>
      refine ⟨by dsimp only; omega, fun total h => ?_⟩
      obtain ⟨consumed', hstep', -⟩ := ok_of_bind h
      cases hstep.symm.trans hstep'
    | ok consumed' =>
      dsimp only
      obtain ⟨rest, len, hget', hlen, rfl⟩ := consumeItem_eq_ok hstep
      obtain rfl := Option.some.inj (hget.symm.trans hget')
      obtain ⟨hcalls, hle⟩ := hok _ len hlen
      obtain ⟨hbound, htotal⟩ := loopCalls_le hok hall n (consumed + len) (by omega)
      refine ⟨by omega, fun total h => ?_⟩
      obtain ⟨consumed', hstep', h⟩ := ok_of_bind h
      obtain rfl := Except.ok.inj (hstep.symm.trans hstep')
      have := htotal total h
      omega

/-- A head with its content ends no sooner than the items that it announces. -/
theorem consumeItems_of_cborTotal {first : UInt8} {rest : List UInt8} {hdrExtra value total : Nat}
    (h : cborTotal item (first :: rest) rest (first >>> 5) hdrExtra value = .ok total) :
    ∃ end_, consumeItems item (first :: rest) (announcedItems (first >>> 5).toNat value) (1 + hdrExtra) = .ok end_ ∧
      end_ ≤ total := by
  unfold cborTotal at h
  dsimp only at h
  have hplain : (Except.ok (1 + hdrExtra) : Except CborStop Nat) = .ok total → ∃ end_ : Nat,
      consumeItems item (first :: rest) 0 (1 + hdrExtra) = .ok end_ ∧ end_ ≤ total :=
    fun h => ⟨1 + hdrExtra, rfl, Nat.le_of_eq (Except.ok.inj h)⟩
  have hstring : orRefused (addU64 (1 + hdrExtra) value) = .ok total → ∃ end_ : Nat,
      consumeItems item (first :: rest) 0 (1 + hdrExtra) = .ok end_ ∧ end_ ≤ total := by
    intro h
    refine ⟨1 + hdrExtra, rfl, ?_⟩
    unfold addU64 at h
    split at h
    · rw [← Except.ok.inj h]
      exact Nat.le_add_right _ _
    · cases h
  generalize (first >>> 5).toNat = major at h ⊢
  match major, h with
  | 0, h => exact hplain h
  | 1, h => exact hplain h
  | 2, h => exact hstring h
  | 3, h => exact hstring h
  | 4, h => exact ⟨total, h, Nat.le_refl total⟩
  | 5, h =>
    rw [consumePairs_eq] at h
    exact ⟨total, h, Nat.le_refl total⟩
  | 6, h =>
    have hitem : consumeItem item (first :: rest) (1 + hdrExtra) = .ok total :=
      (consumeItem_tag item first rest hdrExtra).trans h
    refine ⟨total, ?_, Nat.le_refl total⟩
    show (consumeItem item (first :: rest) (1 + hdrExtra)).bind _ = _
    rw [hitem]
    rfl
  | 7, h => exact hplain h
  | _ + 8, h => cases h

end Bounds

theorem walkCalls_of_none {levels : Nat} {first : UInt8} {rest : List UInt8}
    (harg : cborArg (first &&& 0b00011111) rest = none) : walkCalls (levels + 1) (first :: rest) = 1 := by
  rw [walkCalls, harg]

theorem walkCalls_of_some {levels : Nat} {first : UInt8} {rest : List UInt8} {hdrExtra value : Nat}
    (harg : cborArg (first &&& 0b00011111) rest = some (hdrExtra, value)) :
    walkCalls (levels + 1) (first :: rest) =
      1 + loopCalls (cborItemLenDepth levels) (walkCalls levels) (first :: rest)
        (announcedItems (first >>> 5).toNat value) (1 + hdrExtra) := by
  rw [walkCalls, harg]

/-- **The calls of a walk are hardly more than the bytes**: no more than the item has when there is one, and otherwise one
for each level more than the input. -/
theorem walkCalls_le : ∀ (levels : Nat) (input : List UInt8),
    (∀ len, cborItemLenDepth levels input = .ok len → walkCalls levels input ≤ len ∧ len ≤ input.length) ∧
      walkCalls levels input ≤ input.length + (levels + 1)
  | 0, input => ⟨fun len h => (by cases h), Nat.le_add_left _ _⟩
  | levels + 1, [] => by
    refine ⟨fun len h => ?_, Nat.le_add_left 1 _⟩
    rw [show cborItemLenDepth (levels + 1) [] = .error .refused from rfl] at h
    cases h
  | levels + 1, first :: rest => by
    cases harg : cborArg (first &&& 0b00011111) rest with
    | none =>
      rw [cborItemLenDepth_of_none harg, walkCalls_of_none harg]
      exact ⟨fun len h => (by cases h), by omega⟩
    | some read =>
      obtain ⟨hdrExtra, value⟩ := read
      obtain ⟨arg, tail, rfl, rfl, -⟩ := cborArg_eq_some_iff.1 harg
      have hstart : 1 + arg.length ≤ (first :: (arg ++ tail)).length := by
        rw [List.length_cons, List.length_append]
        omega
      obtain ⟨hbound, htotal⟩ := loopCalls_le (fun rest len => (walkCalls_le levels rest).1 len)
        (fun rest => (walkCalls_le levels rest).2) (announcedItems (first >>> 5).toNat value) (1 + arg.length) hstart
      rw [cborItemLenDepth_of_some harg, walkCalls_of_some harg]
      refine ⟨fun len h => ?_, by omega⟩
      split at h
      · cases h
      · obtain ⟨total, hok, h⟩ := ok_of_bind h
        split at h
        · cases h
        · next hwithin =>
          obtain rfl := Except.ok.inj h
          obtain ⟨end_, hloop, hle⟩ := consumeItems_of_cborTotal hok
          have hcalls := htotal end_ hloop
          exact ⟨by omega, Nat.not_lt.1 hwithin⟩

/-! ## The length of the first item -/

/-- The first bytes of the input are one item. -/
theorem cborItemLen_eq_ok_iff {input : List UInt8} (hinput : input.length < 2 ^ 63) {n : Nat} :
    cborItemLen input = .ok n ↔ n ≤ input.length ∧ IsItem (maxCborDepth + 1) (input.take n) := by
  refine ((measures_cborItemLenDepth (maxCborDepth + 1) input hinput).2 n).trans ⟨?_, ?_⟩
  · rintro ⟨x, rest, rfl, rfl, hx⟩
    rw [List.take_left]
    exact ⟨by simp, hx⟩
  · rintro ⟨hle, hitem⟩
    exact ⟨input.take n, input.drop n, (List.take_append_drop n input).symm, List.length_take_of_le hle, hitem⟩

/-- **The walk measures the first item of its input**: it ends, after hardly more calls than there are bytes, without an
overflow, with the number of the first bytes that are one item; and what follows them does not change it. -/
theorem cborItemLen_exact (input : List UInt8) (hinput : input.length < 2 ^ 63) :
    walkCalls (maxCborDepth + 1) input ≤ input.length + (maxCborDepth + 2) ∧
      cborItemLen input ≠ .error .panicked ∧
      ∀ n, (cborItemLen input = .ok n ↔ n ≤ input.length ∧ IsItem (maxCborDepth + 1) (input.take n)) ∧
        (cborItemLen input = .ok n → (1 ≤ n ∧ n ≤ input.length) ∧
          ∀ more : List UInt8, (input ++ more).length < 2 ^ 63 → cborItemLen (input ++ more) = .ok n) := by
  refine ⟨(walkCalls_le (maxCborDepth + 1) input).2, (measures_cborItemLenDepth (maxCborDepth + 1) input hinput).1,
    fun n => ⟨cborItemLen_eq_ok_iff hinput, fun h => ?_⟩⟩
  obtain ⟨hle, hitem⟩ := (cborItemLen_eq_ok_iff hinput).1 h
  have hpos := hitem.pos
  rw [List.length_take_of_le hle] at hpos
  refine ⟨⟨hpos, hle⟩, fun more hmore => (cborItemLen_eq_ok_iff hmore).2 ⟨?_, ?_⟩⟩
  · rw [List.length_append]
    exact Nat.le_trans hle (Nat.le_add_right _ _)
  · rw [List.take_append_of_le_length hle]
    exact hitem

/-- An array that announces all the elements it can, and has two. -/
def longArray : List UInt8 := [0x9b, 0xff, 0xff, 0xff, 0xff, 0xff, 0xff, 0xff, 0xff, 0x01, 0x02]

/-- The walk over it, and over an array of two elements with a byte behind. -/
theorem cborItemLen_exact_arrays : walkCalls 33 longArray ≤ 45 ∧ cborItemLen [0x82, 0x01, 0x02, 0xff] = .ok 3 := by
  have hlong := (cborItemLen_exact longArray (by decide)).1
  have hshort : cborItemLen [0x82, 0x01, 0x02] = .ok 3 := by decide +kernel
  exact ⟨hlong, (((cborItemLen_exact [0x82, 0x01, 0x02] (by decide)).2.2 3).2 hshort).2 [0xff] (by decide)⟩

end Webauthn
end Auth
end Kirino
