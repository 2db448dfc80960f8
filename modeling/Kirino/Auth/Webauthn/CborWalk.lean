import Kirino.Lib.Cbor
import Kirino.Lib.Fallible
import Kirino.Lib.MachineInt
/-!
# CborWalk — the extent of a CBOR item (`auth/passport/webauthn/auth_data.rs`)

The walk reads a head and goes over the items that it announces, down to a depth.  It finds the length of the first item
of its input when there is one of at most that depth, and none otherwise (`walks_cborItemLen`); no sum overflows.
-/
namespace Kirino
namespace Auth
namespace Webauthn

open Lib (addU64)
open Lib.Cbor (beNat argLength IsHead IsItems IsContent IsItem isItems_zero isItems_succ)

/-- How the walk ends without a length. -/
inductive CborStop where
  | refused
  | panicked
deriving DecidableEq, Repr

/-- Nothing there. -/
def orRefused {α : Type} : Option α → Except CborStop α
  | some a => .ok a
  | none => .error .refused

/-- A sum of `usize`s. -/
def orPanicked {α : Type} : Option α → Except CborStop α
  | some a => .ok a
  | none => .error .panicked

def maxCborDepth : Nat := 32

/-- The number of the first `k` bytes. -/
def readBe (k : Nat) (rest : List UInt8) : Option (Nat × Nat) :=
  if k ≤ rest.length then some (k, beNat (rest.take k)) else none

/-- The length of the argument and its value. -/
def cborArg (info : UInt8) (rest : List UInt8) : Option (Nat × Nat) :=
  if info ≤ 23 then some (0, info.toNat)
  else if info = 24 then readBe 1 rest
  else if info = 25 then readBe 2 rest
  else if info = 26 then readBe 4 rest
  else if info = 27 then readBe 8 rest
  else none

def getFrom (input : List UInt8) (start : Nat) : Option (List UInt8) :=
  if start ≤ input.length then some (input.drop start) else none

section Loops
variable (item : List UInt8 → Except CborStop Nat) (input : List UInt8)

/-- Go over one item. -/
def consumeItem (consumed : Nat) : Except CborStop Nat := do
  let rest ← orRefused (getFrom input consumed)
  let len ← item rest
  orPanicked (addU64 consumed len)

/-- Go over so many items. -/
def consumeItems : Nat → Nat → Except CborStop Nat
  | 0, consumed => .ok consumed
  | n + 1, consumed => do
    let consumed ← consumeItem item input consumed
    consumeItems n consumed

/-- Go over so many pairs. -/
def consumePairs : Nat → Nat → Except CborStop Nat
  | 0, consumed => .ok consumed
  | n + 1, consumed => do
    let consumed ← consumeItem item input consumed
    let consumed ← consumeItem item input consumed
    consumePairs n consumed

/-- The length of the head and of what it announces. -/
def cborTotal (rest : List UInt8) (major : UInt8) (hdrExtra value : Nat) : Except CborStop Nat :=
  let payloadStart := 1 + hdrExtra
  match major.toNat with
  | 0 | 1 | 7 => .ok payloadStart
  | 2 | 3 => orRefused (addU64 payloadStart value)
  | 4 => consumeItems item input value payloadStart
  | 6 => do
    let rest ← orRefused (getFrom rest hdrExtra)
    let len ← item rest
    orPanicked (addU64 payloadStart len)
  | 5 => consumePairs item input value payloadStart
  | _ => .error .refused

end Loops

/-- The walk, with so many levels of nesting left. -/
def cborItemLenDepth : Nat → List UInt8 → Except CborStop Nat
  | 0, _ => .error .refused
  | _ + 1, [] => .error .refused
  | levels + 1, first :: rest => do
    let major := first >>> 5
    let info := first &&& 0b00011111
    let (hdrExtra, value) ← orRefused (cborArg info rest)
    if (first :: rest).length < value ∧ (major = 2 ∨ major = 3) then .error .refused
    else do
      let total ← cborTotal (cborItemLenDepth levels) (first :: rest) rest major hdrExtra value
      if (first :: rest).length < total then .error .refused else .ok total

/-- Nested no deeper than the maximum, the outermost item at depth zero. -/
def cborItemLen (input : List UInt8) : Except CborStop Nat := cborItemLenDepth (maxCborDepth + 1) input

example : cborItemLen [0xa2, 0x01, 0x02, 0x27, 0x42, 0xaa, 0xbb] = .ok 7 := by decide +kernel

/-! ## Heads -/

theorem cborArg_eq (info : UInt8) (rest : List UInt8) : cborArg info rest =
    (argLength info.toNat).bind (fun k =>
      if k ≤ rest.length then some (k, if k = 0 then info.toNat else beNat (rest.take k)) else none) := by
  have h23 : info ≤ 23 ↔ info.toNat ≤ 23 := UInt8.le_iff_toNat_le
  have h24 : info = 24 ↔ info.toNat = 24 := UInt8.toNat_inj.symm
  have h25 : info = 25 ↔ info.toNat = 25 := UInt8.toNat_inj.symm
  have h26 : info = 26 ↔ info.toNat = 26 := UInt8.toNat_inj.symm
  have h27 : info = 27 ↔ info.toNat = 27 := UInt8.toNat_inj.symm
  unfold cborArg argLength readBe
  simp only [h23, h24, h25, h26, h27]
  by_cases hsmall : info.toNat ≤ 23
  · simp [hsmall]
  · rw [if_neg hsmall, if_neg hsmall]
    split
    · rfl
    · split
      · rfl
      · split
        · rfl
        · split <;> rfl

theorem toNat_major (first : UInt8) : (first >>> 5).toNat = first.toNat / 32 := by
  rw [UInt8.toNat_shiftRight, Nat.shiftRight_eq_div_pow]
  rfl

theorem toNat_info (first : UInt8) : (first &&& 0b00011111).toNat = first.toNat % 32 := by
  rw [UInt8.toNat_and]
  exact Nat.and_two_pow_sub_one_eq_mod first.toNat 5

/-- **What is read of a head.** -/
theorem cborArg_eq_some_iff {first : UInt8} {rest : List UInt8} {hdrExtra value : Nat} :
    cborArg (first &&& 0b00011111) rest = some (hdrExtra, value) ↔
      ∃ arg tail, rest = arg ++ tail ∧ arg.length = hdrExtra ∧ IsHead (first >>> 5).toNat value first arg := by
  rw [cborArg_eq, toNat_info, toNat_major]
  constructor
  · intro h
    obtain ⟨k, hk, hread⟩ := Option.bind_eq_some_iff.1 h
    split at hread
    · rename_i hle
      obtain ⟨rfl, hvalue⟩ := Prod.mk.inj (Option.some.inj hread)
      have hlength : (rest.take k).length = k := List.length_take_of_le hle
      have hnil : rest.take k = [] ↔ k = 0 := by rw [← List.length_eq_zero_iff, hlength]
      refine ⟨rest.take k, rest.drop k, (List.take_append_drop k rest).symm, hlength, rfl, ?_, ?_⟩
      · rw [hlength]
        exact hk
      · rw [← hvalue]
        simp only [hnil]
    · cases hread
  · rintro ⟨arg, tail, rfl, rfl, hhead⟩
    rw [hhead.length, Option.bind_some, if_pos (by simp), List.take_left, hhead.value]
    simp only [List.length_eq_zero_iff]

/-! ## What a walk goes over -/

/-- The function finds the length of the first item of its input, and never panics. -/
def Measures (P : List UInt8 → Prop) (item : List UInt8 → Except CborStop Nat) : Prop :=
  ∀ input, input.length < 2 ^ 63 → item input ≠ .error .panicked ∧
    ∀ len, item input = .ok len ↔ ∃ x rest, input = x ++ rest ∧ x.length = len ∧ P x

/-- From any place of the input the step goes over the bytes that the predicate accepts, and never panics. -/
def GoesOver (input : List UInt8) (Q : List UInt8 → Prop) (step : Nat → Except CborStop Nat) : Prop :=
  ∀ before tail, input = before ++ tail → step before.length ≠ .error .panicked ∧
    ∀ total, step before.length = .ok total ↔ ∃ x rest, tail = x ++ rest ∧ total = before.length + x.length ∧ Q x

section Walks
variable {P Q R : List UInt8 → Prop} {item : List UInt8 → Except CborStop Nat} {input : List UInt8}
variable {step step' : Nat → Except CborStop Nat}

theorem GoesOver.congr (h : GoesOver input Q step) (hQR : ∀ x, Q x ↔ R x) : GoesOver input R step := by
  have hQ : Q = R := funext (fun x => propext (hQR x))
  exact hQ ▸ h

theorem goesOver_nil : GoesOver input (fun x => x = []) Except.ok := by
  refine fun before tail _ => ⟨nofun, fun total => ⟨fun h => ?_, ?_⟩⟩
  · exact ⟨[], tail, rfl, (Except.ok.inj h).symm, rfl⟩
  · rintro ⟨x, rest, -, rfl, rfl⟩
    rfl

/-- **One step and then another** go over the one's bytes and then the other's. -/
theorem GoesOver.seq (h : GoesOver input Q step) (h' : GoesOver input R step') :
    GoesOver input (fun bytes => ∃ x y, bytes = x ++ y ∧ Q x ∧ R y) (fun consumed => (step consumed).bind step') := by
  intro before tail hinput
  obtain ⟨hsafe, hstep⟩ := h before tail hinput
  -- the second step begins where the first ends
  have hnext : ∀ x rest, tail = x ++ rest → step' (before.length + x.length) ≠ .error .panicked ∧
      ∀ total, step' (before.length + x.length) = .ok total ↔
        ∃ y rest', rest = y ++ rest' ∧ total = before.length + x.length + y.length ∧ R y := by
    intro x rest htail
    have := h' (before ++ x) rest (by rw [hinput, htail, List.append_assoc])
    rwa [List.length_append] at this
  show (step before.length).bind step' ≠ _ ∧ ∀ total, (step before.length).bind step' = _ ↔ _
  cases hfirst : step before.length with
  | error e =>
    refine ⟨fun hpanic => hsafe (hfirst.trans hpanic), fun total => ⟨nofun, ?_⟩⟩
    rintro ⟨_, rest, htail, -, x, y, rfl, hx, -⟩
    cases hfirst.symm.trans ((hstep _).2 ⟨x, y ++ rest, by rw [htail, List.append_assoc], rfl, hx⟩)
  | ok consumed =>
    obtain ⟨x, rest, htail, rfl, hx⟩ := (hstep consumed).1 hfirst
    obtain ⟨hsafe', hstep'⟩ := hnext x rest htail
    refine ⟨hsafe', fun total => ⟨fun hok => ?_, ?_⟩⟩
    · obtain ⟨y, rest', hrest, htotal, hy⟩ := (hstep' total).1 hok
      refine ⟨x ++ y, rest', by rw [htail, hrest, List.append_assoc], ?_, x, y, rfl, hx, hy⟩
      rw [htotal, List.length_append, Nat.add_assoc]
    · rintro ⟨_, rest', htail', rfl, x', y, rfl, hx', hy⟩
      have hfirst' := (hstep _).2 ⟨x', y ++ rest', by rw [htail', List.append_assoc], rfl, hx'⟩
      have hlength : x.length = x'.length := Nat.add_left_cancel (Except.ok.inj (hfirst.symm.trans hfirst'))
      have hsplit : x ++ rest = x' ++ (y ++ rest') := by rw [← htail, htail', List.append_assoc]
      obtain ⟨rfl, rfl⟩ := List.append_inj hsplit hlength
      exact (hstep' _).2 ⟨y, rest', rfl, by rw [List.length_append, Nat.add_assoc], hy⟩

theorem goesOver_consumeItem (h : Measures P item) (hinput : input.length < 2 ^ 63) :
    GoesOver input P (consumeItem item input) := by
  rintro before tail rfl
  have hget : getFrom (before ++ tail) before.length = some tail := by
    unfold getFrom
    rw [if_pos (by simp), List.drop_left]
  rw [List.length_append] at hinput
  obtain ⟨hsafe, hitem⟩ := h tail (by omega)
  unfold consumeItem
  rw [hget]
  show (item tail).bind _ ≠ _ ∧ ∀ total, (item tail).bind _ = _ ↔ _
  cases hlen : item tail with
  | error e =>
    refine ⟨fun hpanic => hsafe (hlen.trans hpanic), fun total => ⟨nofun, ?_⟩⟩
    rintro ⟨x, rest, rfl, -, hx⟩
    cases hlen.symm.trans ((hitem _).2 ⟨x, rest, rfl, rfl, hx⟩)
  | ok len =>
    obtain ⟨x, rest, rfl, rfl, hx⟩ := (hitem len).1 hlen
    rw [List.length_append] at hinput
    have hsum : addU64 before.length x.length = some (before.length + x.length) := if_pos (by omega)
    show orPanicked (addU64 before.length x.length) ≠ _ ∧ ∀ total, orPanicked (addU64 before.length x.length) = _ ↔ _
    rw [hsum]
    refine ⟨nofun, fun total => ⟨fun hok => ⟨x, rest, rfl, (Except.ok.inj hok).symm, hx⟩, ?_⟩⟩
    rintro ⟨x', rest', hsplit, rfl, hx'⟩
    have hlen' := (hitem _).2 ⟨x', rest', hsplit, rfl, hx'⟩
    rw [Except.ok.inj (hlen.symm.trans hlen')]
    rfl

theorem goesOver_consumeItems (h : Measures P item) (hinput : input.length < 2 ^ 63) :
    ∀ n, GoesOver input (IsItems P n) (consumeItems item input n)
  | 0 => goesOver_nil.congr (fun _ => isItems_zero.symm)
  | n + 1 => by
    refine ((goesOver_consumeItem h hinput).seq (goesOver_consumeItems h hinput n)).congr (fun bytes => ?_)
    rw [isItems_succ]

/-- So many pairs are twice as many items. -/
theorem consumePairs_eq (item : List UInt8 → Except CborStop Nat) (input : List UInt8) :
    ∀ n consumed, consumePairs item input n consumed = consumeItems item input (2 * n) consumed
  | 0, _ => rfl
  | n + 1, consumed => by
    rw [consumePairs, Nat.mul_succ, consumeItems]
    refine congrArg (Except.bind (consumeItem item input consumed)) (funext (fun consumed' => ?_))
    rw [consumeItems]
    exact congrArg (Except.bind (consumeItem item input consumed')) (funext (consumePairs_eq item input n))

theorem goesOver_consumePairs (h : Measures P item) (hinput : input.length < 2 ^ 63) (n : Nat) :
    GoesOver input (IsItems P (2 * n)) (consumePairs item input n) := by
  rw [funext (consumePairs_eq item input n)]
  exact goesOver_consumeItems h hinput (2 * n)

/-- A tag wraps one item, which begins behind the head. -/
theorem consumeItem_tag (item : List UInt8 → Except CborStop Nat) (first : UInt8) (rest : List UInt8) (hdrExtra : Nat) :
    consumeItem item (first :: rest) (1 + hdrExtra) =
      (orRefused (getFrom rest hdrExtra)).bind (fun rest =>
        (item rest).bind (fun len => orPanicked (addU64 (1 + hdrExtra) len))) := by
  have hget : getFrom (first :: rest) (1 + hdrExtra) = getFrom rest hdrExtra := by
    unfold getFrom
    rw [Nat.add_comm, List.length_cons, List.drop_succ_cons]
    simp
  unfold consumeItem
  rw [hget]
  rfl

/-- The result, where it is within the limit, is the start and the length of what the predicate accepts there. -/
def Announces (tail : List UInt8) (start limit : Nat) (Q : List UInt8 → Prop) (result : Except CborStop Nat) : Prop :=
  result ≠ .error .panicked ∧ ∀ total, total ≤ limit →
    (result = .ok total ↔ ∃ content rest, tail = content ++ rest ∧ total = start + content.length ∧ Q content)

theorem GoesOver.announces (h : GoesOver input Q step) {before tail : List UInt8} (hinput : input = before ++ tail)
    (limit : Nat) : Announces tail before.length limit Q (step before.length) :=
  ⟨(h before tail hinput).1, fun total _ => (h before tail hinput).2 total⟩

theorem Announces.within {tail : List UInt8} {start : Nat} {result : Except CborStop Nat}
    (h : Announces tail start (start + tail.length) Q result) :
    result.bind (fun total => if start + tail.length < total then .error .refused else .ok total) ≠ .error .panicked ∧
      ∀ total, result.bind (fun total => if start + tail.length < total then .error .refused else .ok total) = .ok total ↔
        ∃ content rest, tail = content ++ rest ∧ total = start + content.length ∧ Q content := by
  obtain ⟨hsafe, htotal⟩ := h
  have hle : ∀ {content rest : List UInt8}, tail = content ++ rest → start + content.length ≤ start + tail.length := by
    rintro content rest rfl
    rw [List.length_append]
    omega
  cases result with
  | error e =>
    refine ⟨hsafe, fun total => ⟨nofun, ?_⟩⟩
    rintro ⟨content, rest, hsplit, rfl, hcontent⟩
    cases (htotal _ (hle hsplit)).2 ⟨content, rest, hsplit, rfl, hcontent⟩
  | ok found =>
    have hbind : (Except.ok found).bind (fun total => if start + tail.length < total then .error .refused else .ok total) =
      if start + tail.length < found then Except.error CborStop.refused else .ok found := rfl
    rw [hbind]
    by_cases hlong : start + tail.length < found
    · rw [if_pos hlong]
      refine ⟨nofun, fun total => ⟨nofun, ?_⟩⟩
      rintro ⟨content, rest, hsplit, rfl, hcontent⟩
      have hfound := (htotal _ (hle hsplit)).2 ⟨content, rest, hsplit, rfl, hcontent⟩
      rw [Except.ok.inj hfound] at hlong
      exact absurd (hle hsplit) (Nat.not_le.2 hlong)
    · rw [if_neg hlong]
      refine ⟨nofun, fun total => ⟨fun hok => ?_, fun hcontent => ?_⟩⟩
      · rw [← Except.ok.inj hok]
        exact (htotal found (Nat.not_lt.1 hlong)).1 rfl
      · obtain ⟨content, rest, hsplit, rfl, -⟩ := id hcontent
        exact (htotal _ (hle hsplit)).2 hcontent

theorem announces_string {tail : List UInt8} {start value : Nat} (hsum : start + value < 2 ^ 64) :
    Announces tail start (start + tail.length) (fun content => content.length = value)
      (orRefused (addU64 start value)) := by
  rw [show addU64 start value = some (start + value) from if_pos hsum]
  refine ⟨nofun, fun total htotal => ⟨fun hok => ?_, ?_⟩⟩
  · obtain rfl := Except.ok.inj hok
    have hlength : (tail.take value).length = value := List.length_take_of_le (by omega)
    exact ⟨tail.take value, tail.drop value, (List.take_append_drop value tail).symm, by rw [hlength], hlength⟩
  · rintro ⟨content, rest, -, rfl, rfl⟩
    rfl

/-- **What a head announces** is its content. -/
theorem cborTotal_announces (h : Measures P item) {first : UInt8} {arg tail : List UInt8} {value : Nat}
    (hinput : (first :: (arg ++ tail)).length < 2 ^ 63)
    (hstring : first >>> 5 = 2 ∨ first >>> 5 = 3 → value ≤ (first :: (arg ++ tail)).length) :
    Announces tail (1 + arg.length) (1 + arg.length + tail.length) (IsContent P (first >>> 5).toNat value)
      (cborTotal item (first :: (arg ++ tail)) (arg ++ tail) (first >>> 5) arg.length value) := by
  have hmajor : (first >>> 5).toNat < 8 := by
    have hfirst := first.toNat_lt
    rw [toNat_major]
    omega
  have hsplit : first :: (arg ++ tail) = (first :: arg) ++ tail := rfl
  have hstart : (first :: arg).length = 1 + arg.length := Nat.add_comm _ _
  have hlength : (first :: (arg ++ tail)).length = 1 + arg.length + tail.length := by
    rw [hsplit, List.length_append, hstart]
  -- the content begins after the head
  have hplace : ∀ {Q : List UInt8 → Prop} {step : Nat → Except CborStop Nat},
      GoesOver (first :: (arg ++ tail)) Q step →
        Announces tail (1 + arg.length) (1 + arg.length + tail.length) Q (step (1 + arg.length)) := by
    intro Q step hstep
    rw [← hstart]
    exact hstep.announces hsplit _
  have hbytes (hmajor : first >>> 5 = 2 ∨ first >>> 5 = 3) :
      Announces tail (1 + arg.length) (1 + arg.length + tail.length) (fun content => content.length = value)
        (orRefused (addU64 (1 + arg.length) value)) := by
    have hvalue := hstring hmajor
    exact announces_string (by omega)
  have hmajor2 : (first >>> 5).toNat = 2 → first >>> 5 = 2 := fun h2 => UInt8.toNat_inj.1 h2
  have hmajor3 : (first >>> 5).toNat = 3 → first >>> 5 = 3 := fun h3 => UInt8.toNat_inj.1 h3
  unfold cborTotal
  dsimp only
  generalize (first >>> 5).toNat = major at hmajor hmajor2 hmajor3
  match major, hmajor with
  | 0, _ => exact hplace goesOver_nil
  | 1, _ => exact hplace goesOver_nil
  | 2, _ => exact hbytes (Or.inl (hmajor2 rfl))
  | 3, _ => exact hbytes (Or.inr (hmajor3 rfl))
  | 4, _ => exact hplace (goesOver_consumeItems h hinput value)
  | 5, _ => exact hplace (goesOver_consumePairs h hinput value)
  | 6, _ =>
    have hitem := hplace (goesOver_consumeItem h hinput)
    rw [consumeItem_tag] at hitem
    exact hitem
  | 7, _ => exact hplace goesOver_nil

end Walks

/-! ## The walk -/

theorem cborItemLenDepth_of_none {levels : Nat} {first : UInt8} {rest : List UInt8}
    (harg : cborArg (first &&& 0b00011111) rest = none) :
    cborItemLenDepth (levels + 1) (first :: rest) = .error .refused := by
  unfold cborItemLenDepth
  dsimp only
  rw [harg]
  rfl

theorem cborItemLenDepth_of_some {levels : Nat} {first : UInt8} {rest : List UInt8} {hdrExtra value : Nat}
    (harg : cborArg (first &&& 0b00011111) rest = some (hdrExtra, value)) :
    cborItemLenDepth (levels + 1) (first :: rest) =
      if (first :: rest).length < value ∧ (first >>> 5 = 2 ∨ first >>> 5 = 3) then .error .refused
      else (cborTotal (cborItemLenDepth levels) (first :: rest) rest (first >>> 5) hdrExtra value).bind (fun total =>
        if (first :: rest).length < total then .error .refused else .ok total) := by
  rw [cborItemLenDepth]
  dsimp only
  rw [harg]
  rfl

/-- **The walk finds the length of the first item**, and never panics. -/
theorem measures_cborItemLenDepth : ∀ levels, Measures (IsItem levels) (cborItemLenDepth levels)
  | 0 => fun input _ => ⟨nofun, fun len => ⟨nofun, fun ⟨_, _, _, _, hitem⟩ => hitem.elim⟩⟩
  | levels + 1 => by
    have ih := measures_cborItemLenDepth levels
    intro input hinput
    cases input with
    | nil =>
      rw [show cborItemLenDepth (levels + 1) [] = .error .refused from rfl]
      refine ⟨nofun, fun len => ⟨nofun, ?_⟩⟩
      rintro ⟨_, rest, hsplit, -, major, value, first, arg, content, rfl, -⟩
      cases hsplit
    | cons first rest =>
      cases harg : cborArg (first &&& 0b00011111) rest with
      | none =>
        rw [cborItemLenDepth_of_none harg]
        refine ⟨nofun, fun len => ⟨nofun, ?_⟩⟩
        rintro ⟨x, rest', hsplit, -, hx⟩
        obtain ⟨major, value, arg, tail, hrest, hhead⟩ := hx.head hsplit
        obtain rfl : major = (first >>> 5).toNat := hhead.major.trans (toNat_major first).symm
        cases harg.symm.trans (cborArg_eq_some_iff.2 ⟨arg, tail, hrest, rfl, hhead⟩)
      | some read =>
        obtain ⟨hdrExtra, value⟩ := read
        obtain ⟨arg, tail, rfl, rfl, hhead⟩ := cborArg_eq_some_iff.1 harg
        have hlength : (first :: (arg ++ tail)).length = 1 + arg.length + tail.length := by
          rw [List.length_cons, List.length_append]
          omega
        rw [cborItemLenDepth_of_some harg]
        by_cases hover : (first :: (arg ++ tail)).length < value ∧ (first >>> 5 = 2 ∨ first >>> 5 = 3)
        · -- a string longer than the input
          rw [if_pos hover]
          refine ⟨nofun, fun len => ⟨nofun, ?_⟩⟩
          rintro ⟨x, rest', hsplit, -, hx⟩
          obtain ⟨content, rfl, rfl, hcontent⟩ := hx.content hhead hsplit
          have hvalue : content.length = value := by
            rcases hover.2 with hmajor | hmajor <;> rw [hmajor] at hcontent <;> exact hcontent
          have hlt := hover.1
          rw [hlength, List.length_append] at hlt
          omega
        · rw [if_neg hover, hlength]
          obtain ⟨hsafe, htotal⟩ := (cborTotal_announces ih hinput
            (fun hstring => Nat.not_lt.1 (fun hlt => hover ⟨hlt, hstring⟩))).within
          refine ⟨hsafe, fun len => (htotal len).trans ⟨?_, ?_⟩⟩
          · rintro ⟨content, rest', rfl, rfl, hcontent⟩
            refine ⟨first :: (arg ++ content), rest', by simp, ?_, _, value, first, arg, content, rfl, hhead, hcontent⟩
            rw [List.length_cons, List.length_append]
            omega
          · rintro ⟨x, rest', hsplit, rfl, hx⟩
            obtain ⟨content, rfl, rfl, hcontent⟩ := hx.content hhead hsplit
            refine ⟨content, rest', rfl, ?_, hcontent⟩
            rw [List.length_cons, List.length_append]
            omega

end Webauthn
end Auth
end Kirino
