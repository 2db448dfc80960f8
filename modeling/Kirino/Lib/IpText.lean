import Mathlib.Algebra.Group.Nat.Defs
import Mathlib.Data.List.Basic
/-!
# IpText — the texts of addresses and of numbers

The standard library's parsers of IPv4 and IPv6 addresses and of `u32`, as readers that each take a front of the text:
octets are plain decimals, the last two groups of an IPv6 address may be written as an IPv4 address, and `::` stands for
at least one group of zeros.  What others use of them is in `AddrParsers`: no text is read as both addresses, and none that
is read has a slash in it.
-/
namespace Kirino
namespace Lib

/-- `char::to_digit`, for a radix up to 36. -/
def toDigit (radix : Nat) (c : Char) : Option Nat :=
  let digit := if c.isDigit then c.toNat - 48 else if c.isAlpha then c.toLower.toNat - 87 else 36
  if digit < radix then some digit else none

/-- The number of the digits, the highest first. -/
def ofDigits (base : Nat) (digits : List Nat) : Nat := digits.foldl (fun value digit => value * base + digit) 0

section Readers
variable {A : Type}

/-- What is read off the front of a text, and the text behind it. -/
abbrev Reader (A : Type) := List Char → Option (A × List Char)

/-- The digits off the front of the text, and the text from the first other character on. -/
def readDigits (radix : Nat) : List Char → List Nat × List Char
  | [] => ([], [])
  | c :: text =>
    match toDigit radix c with
    | none => ([], c :: text)
    | some digit => (digit :: (readDigits radix text).1, (readDigits radix text).2)

/-- A number below the limit; a zero in front of another digit is refused unless it is allowed. -/
def readNumber (radix maxDigits limit : Nat) (allowZeroPrefix : Bool) : Reader Nat := fun text =>
  let (digits, rest) := readDigits radix text
  if digits.length = 0 ∨ maxDigits < digits.length then none
  else if allowZeroPrefix = false ∧ text.head? = some '0' ∧ 1 < digits.length then none
  else if limit ≤ ofDigits radix digits then none
  else some (ofDigits radix digits, rest)

def readGivenChar (target : Char) : List Char → Option (List Char)
  | [] => none
  | c :: text => if c = target then some text else none

/-- Every part but the first stands behind a separator. -/
def readSeparator (separator : Char) (first : Bool) (inner : Reader A) : Reader A := fun text =>
  if first then inner text else (readGivenChar separator text).bind inner

def readOctets : Nat → Bool → Reader (List Nat)
  | 0, _, text => some ([], text)
  | left + 1, first, text =>
    match readSeparator '.' first (readNumber 10 3 256 false) text with
    | none => none
    | some (octet, text) => (readOctets left false text).map (fun (octets, rest) => (octet :: octets, rest))

def readIpv4 : Reader Nat := fun text => (readOctets 4 true text).map (fun (octets, rest) => (ofDigits 256 octets, rest))

/-- The groups off the front of the text, at most so many, and whether they end in an IPv4 address. -/
def readGroups : Nat → Bool → List Char → List Nat × Bool × List Char
  | 0, _, text => ([], false, text)
  | left + 1, first, text =>
    match if 0 < left then readSeparator ':' first readIpv4 text else none with
    | some (ipv4, rest) => ([ipv4 / 65536, ipv4 % 65536], true, rest)
    | none =>
      match readSeparator ':' first (readNumber 16 4 65536 true) text with
      | none => ([], false, text)
      | some (group, rest) =>
        let (groups, endsInIpv4, rest) := readGroups left false rest
        (group :: groups, endsInIpv4, rest)

def readIpv6 : Reader Nat := fun text =>
  let (head, headIpv4, rest) := readGroups 8 true text
  if head.length = 8 then some (ofDigits 65536 head, rest)
  else if headIpv4 then none
  else
    ((readGivenChar ':' rest).bind (readGivenChar ':')).map fun rest =>
      let (tail, _, rest) := readGroups (8 - (head.length + 1)) true rest
      (ofDigits 65536 (head ++ List.replicate (8 - head.length - tail.length) 0 ++ tail), rest)

/-- The reader must take the whole text. -/
def parseWith (reader : Reader A) (text : List Char) : Option A :=
  match reader text with
  | some (a, []) => some a
  | _ => none

end Readers

/-- `str::parse::<Ipv4Addr>`. -/
def parseIpv4 (text : List Char) : Option (BitVec 32) :=
  if 15 < text.length then none else (parseWith readIpv4 text).map (BitVec.ofNat 32)

/-- `str::parse::<Ipv6Addr>`. -/
def parseIpv6 (text : List Char) : Option (BitVec 128) := (parseWith readIpv6 text).map (BitVec.ofNat 128)

/-- `str::parse::<u32>`: a plus sign may stand in front. -/
def parseU32 (text : List Char) : Option UInt32 :=
  let digits := if text.head? = some '+' then text.tail else text
  (parseWith (readNumber 10 digits.length (2 ^ 32) true) digits).map UInt32.ofNat

/-! ## The characters of a text that is read -/

/-- The text is a front of digits and of the marks, and the rest. -/
def Taken (radix : Nat) (marks : List Char) (text rest : List Char) : Prop :=
  ∃ front, text = front ++ rest ∧ ∀ c ∈ front, (toDigit radix c).isSome ∨ c ∈ marks

section Taken
variable {A : Type} {radix : Nat} {marks text rest : List Char}

theorem Taken.refl : Taken radix marks text text := ⟨[], rfl, by simp⟩

theorem Taken.cons {c : Char} (hc : (toDigit radix c).isSome ∨ c ∈ marks) (h : Taken radix marks text rest) :
    Taken radix marks (c :: text) rest := by
  obtain ⟨front, rfl, hfront⟩ := h
  exact ⟨c :: front, rfl, List.forall_mem_cons.2 ⟨hc, hfront⟩⟩

theorem Taken.trans {middle : List Char} (h : Taken radix marks text middle) (h' : Taken radix marks middle rest) :
    Taken radix marks text rest := by
  obtain ⟨front, rfl, hfront⟩ := h
  obtain ⟨back, rfl, hback⟩ := h'
  exact ⟨front ++ back, (List.append_assoc ..).symm, List.forall_mem_append.2 ⟨hfront, hback⟩⟩

theorem toDigit_isSome_mono {radix' : Nat} (hradix : radix ≤ radix') {c : Char} (h : (toDigit radix c).isSome) :
    (toDigit radix' c).isSome := by
  simp only [toDigit, Option.isSome_ite] at h ⊢
  omega

theorem Taken.mono {radix' : Nat} {marks' : List Char} (hradix : radix ≤ radix') (hmarks : marks ⊆ marks')
    (h : Taken radix marks text rest) : Taken radix' marks' text rest := by
  obtain ⟨front, htext, hfront⟩ := h
  exact ⟨front, htext, fun c hc => (hfront c hc).imp (toDigit_isSome_mono hradix) (@hmarks c)⟩

/-- A character that is neither a digit nor a mark is not in a text that is taken whole. -/
theorem Taken.not_mem (h : Taken radix marks text []) {c : Char} (hdigit : toDigit radix c = none) (hmark : c ∉ marks) :
    c ∉ text := by
  obtain ⟨front, rfl, hfront⟩ := h
  intro hc
  rcases hfront c (by simpa using hc) with hsome | hmem
  · simp [hdigit] at hsome
  · exact hmark hmem

theorem taken_readDigits : ∀ text : List Char, Taken radix marks text (readDigits radix text).2
  | [] => .refl
  | c :: text => by
    unfold readDigits
    split
    · exact .refl
    · next digit hdigit => exact .cons (.inl (by simp [hdigit])) (taken_readDigits text)

theorem taken_readNumber {maxDigits limit value : Nat} {allowZeroPrefix : Bool}
    (h : readNumber radix maxDigits limit allowZeroPrefix text = some (value, rest)) : Taken radix marks text rest := by
  have hrest : (readDigits radix text).2 = rest := by
    simp only [readNumber, Option.ite_none_left_eq_some, Option.some.injEq, Prod.mk.injEq] at h
    exact h.2.2.2.2
  exact hrest ▸ taken_readDigits text

theorem readGivenChar_eq_some {target : Char} (h : readGivenChar target text = some rest) : text = target :: rest := by
  unfold readGivenChar at h
  split at h
  · cases h
  · next c text => simpa using h

theorem taken_readGivenChar {target : Char} (hmark : target ∈ marks) (h : readGivenChar target text = some rest) :
    Taken radix marks text rest := by
  rw [readGivenChar_eq_some h]
  exact .cons (.inr hmark) .refl

theorem taken_readSeparator {separator : Char} {first : Bool} {inner : Reader A} {a : A} (hmark : separator ∈ marks)
    (hinner : ∀ {text a rest}, inner text = some (a, rest) → Taken radix marks text rest)
    (h : readSeparator separator first inner text = some (a, rest)) : Taken radix marks text rest := by
  unfold readSeparator at h
  split at h
  · exact hinner h
  · obtain ⟨behind, hgiven, h⟩ := Option.bind_eq_some_iff.1 h
    exact (taken_readGivenChar hmark hgiven).trans (hinner h)

theorem taken_readOctets {left : Nat} {first : Bool} {octets : List Nat}
    (h : readOctets left first text = some (octets, rest)) : Taken 10 ['.'] text rest := by
  induction left generalizing text first octets with
  | zero =>
    obtain ⟨-, rfl⟩ := Prod.mk.inj (Option.some.inj h)
    exact .refl
  | succ left ih =>
    unfold readOctets at h
    split at h
    · cases h
    · next octet behind hoctet =>
      obtain ⟨⟨octets', rest'⟩, hoctets, heq⟩ := Option.map_eq_some_iff.1 h
      obtain ⟨-, rfl⟩ := Prod.mk.inj heq
      exact (taken_readSeparator (by simp) taken_readNumber hoctet).trans (ih hoctets)

theorem taken_readIpv4 {value : Nat} (h : readIpv4 text = some (value, rest)) : Taken 10 ['.'] text rest := by
  obtain ⟨⟨octets, rest'⟩, hoctets, heq⟩ := Option.map_eq_some_iff.1 h
  obtain ⟨-, rfl⟩ := Prod.mk.inj heq
  exact taken_readOctets hoctets

theorem taken_readGroups (left : Nat) (first : Bool) (text : List Char) :
    Taken 16 ['.', ':'] text (readGroups left first text).2.2 := by
  induction left generalizing text first with
  | zero => exact .refl
  | succ left ih =>
    unfold readGroups
    split
    · next ipv4 rest hipv4 =>
      rw [Option.ite_none_right_eq_some] at hipv4
      exact taken_readSeparator (by simp) (fun h => (taken_readIpv4 h).mono (by omega) (by simp)) hipv4.2
    · split
      · exact .refl
      · next group rest hgroup => exact (taken_readSeparator (by simp) taken_readNumber hgroup).trans (ih false rest)

/-- A group that is not the first stands behind a colon. -/
theorem colon_mem_of_readGroups {left : Nat} (h : (readGroups left false text).1 ≠ []) : ':' ∈ text := by
  have hseparator : ∀ {B : Type} {inner : Reader B} {b rest}, readSeparator ':' false inner text = some (b, rest) →
      ':' ∈ text := by
    intro B inner b rest hread
    obtain ⟨behind, hgiven, -⟩ := Option.bind_eq_some_iff.1 hread
    rw [readGivenChar_eq_some hgiven]
    exact List.mem_cons_self
  cases left with
  | zero => exact absurd rfl h
  | succ left =>
    unfold readGroups at h
    split at h
    · next ipv4 rest hipv4 =>
      rw [Option.ite_none_right_eq_some] at hipv4
      exact hseparator hipv4.2
    · split at h
      · exact absurd rfl h
      · next group rest hgroup => exact hseparator hgroup

theorem Taken.mem (h : Taken radix marks text rest) {c : Char} (hc : c ∈ rest) : c ∈ text := by
  obtain ⟨front, rfl, -⟩ := h
  exact List.mem_append_right front hc

/-- More groups than an IPv4 address stands for have a colon between them. -/
theorem colon_mem_of_three_le {left : Nat} {first : Bool} (h : 3 ≤ (readGroups left first text).1.length) : ':' ∈ text := by
  cases left with
  | zero => exact absurd h (by simp [readGroups])
  | succ left =>
    unfold readGroups at h
    split at h
    · exact absurd h (by simp)
    · split at h
      · exact absurd h (by simp)
      · next group rest hgroup =>
        have hgroups : (readGroups left false rest).1 ≠ [] := by
          intro hnil
          simp [hnil] at h
        have htaken : Taken 16 [':'] text rest := taken_readSeparator (by simp) taken_readNumber hgroup
        exact htaken.mem (colon_mem_of_readGroups hgroups)

theorem taken_readIpv6 {value : Nat} (h : readIpv6 text = some (value, rest)) :
    Taken 16 ['.', ':'] text rest ∧ ':' ∈ text := by
  have hhead := taken_readGroups 8 true text
  unfold readIpv6 at h
  dsimp only at h
  split at h
  · next hlength =>
    obtain ⟨-, rfl⟩ := Prod.mk.inj (Option.some.inj h)
    have hthree : 3 ≤ (readGroups 8 true text).1.length := by omega
    exact ⟨hhead, colon_mem_of_three_le hthree⟩
  · split at h
    · cases h
    · obtain ⟨behind, hcolons, heq⟩ := Option.map_eq_some_iff.1 h
      obtain ⟨-, rfl⟩ := Prod.mk.inj heq
      obtain ⟨middle, hone, htwo⟩ := Option.bind_eq_some_iff.1 hcolons
      have hmiddle := hhead.trans (taken_readGivenChar (by simp) hone)
      have hbehind := hmiddle.trans (taken_readGivenChar (by simp) htwo)
      refine ⟨hbehind.trans (taken_readGroups _ true behind), hhead.mem ?_⟩
      rw [readGivenChar_eq_some hone]
      exact List.mem_cons_self

theorem parseWith_eq_some {reader : Reader A} {a : A} (h : parseWith reader text = some a) : reader text = some (a, []) := by
  unfold parseWith at h
  split at h
  · next b hread => rw [hread, Option.some.inj h]
  · cases h

theorem taken_parseIpv4 (h : (parseIpv4 text).isSome) : Taken 10 ['.'] text [] := by
  obtain ⟨bits, hbits⟩ := Option.isSome_iff_exists.1 h
  unfold parseIpv4 at hbits
  split at hbits
  · cases hbits
  · obtain ⟨value, hvalue, -⟩ := Option.map_eq_some_iff.1 hbits
    exact taken_readIpv4 (parseWith_eq_some hvalue)

theorem taken_parseIpv6 (h : (parseIpv6 text).isSome) : Taken 16 ['.', ':'] text [] ∧ ':' ∈ text := by
  obtain ⟨bits, hbits⟩ := Option.isSome_iff_exists.1 h
  obtain ⟨value, hvalue, -⟩ := Option.map_eq_some_iff.1 hbits
  exact taken_readIpv6 (parseWith_eq_some hvalue)

theorem taken_parseU32 (h : (parseU32 text).isSome) : Taken 10 ['+'] text [] := by
  obtain ⟨n, hn⟩ := Option.isSome_iff_exists.1 h
  unfold parseU32 at hn
  obtain ⟨value, hvalue, -⟩ := Option.map_eq_some_iff.1 hn
  have hdigits : Taken 10 ['+'] _ [] := taken_readNumber (parseWith_eq_some hvalue)
  split at hdigits
  · next hplus =>
    obtain ⟨digits, rfl⟩ := List.head?_eq_some_iff.1 hplus
    exact .cons (.inr List.mem_cons_self) hdigits
  · exact hdigits

end Taken

/-- The parsers of addresses and of `u32`, and what others may rely on: a text with a slash is none of these, and none is an
address of both families. -/
structure AddrParsers where
  ipv4 : List Char → Option (BitVec 32)
  ipv6 : List Char → Option (BitVec 128)
  u32 : List Char → Option UInt32
  ipv4_slash : ∀ {text}, (ipv4 text).isSome → '/' ∉ text
  ipv6_slash : ∀ {text}, (ipv6 text).isSome → '/' ∉ text
  u32_slash : ∀ {text}, (u32 text).isSome → '/' ∉ text
  disjoint : ∀ {text}, (ipv4 text).isSome → ipv6 text = none

/-- The standard library's. -/
def AddrParsers.std : AddrParsers where
  ipv4 := parseIpv4
  ipv6 := parseIpv6
  u32 := parseU32
  ipv4_slash h := (taken_parseIpv4 h).not_mem (by decide) (by decide)
  ipv6_slash h := (taken_parseIpv6 h).1.not_mem (by decide) (by decide)
  u32_slash h := (taken_parseU32 h).not_mem (by decide) (by decide)
  disjoint h := Option.eq_none_iff_forall_ne_some.2 fun bits hbits =>
    (taken_parseIpv4 h).not_mem (by decide) (by decide) (taken_parseIpv6 (by simp [hbits])).2

end Lib
end Kirino
