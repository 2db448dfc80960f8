import Kirino.Lib.Fallible
import Kirino.Lib.IpText
import Kirino.Lib.PrefixBits
import Kirino.Lib.Walk
/-!
# NetworkSource — the whitelist of source addresses (`service/verify/whitelist/network_source.rs`)

An entry is a bare address, or an address of a network with the number of its first bits that count.  Each entry has one
reading (`cidrReading_parseCidr`), in which the mask is always computed, and a verifier lets an address in exactly when
some entry does (`isAllowed_iff`).  The parsers of the addresses and of the number are the standard library's.
-/
namespace Kirino
namespace Service

open Lib (AddrParsers SameBits highBits)

inductive IpAddr where
  | v4 (bits : BitVec 32)
  | v6 (bits : BitVec 128)
deriving DecidableEq, Repr

inductive ParsedCidr where
  | v4 (network mask : BitVec 32)
  | v6 (network mask : BitVec 128)
  | exactIp (ip : IpAddr)
deriving DecidableEq, Repr

/-- Why there is no network: the entry does not parse, or the arithmetic of its mask overflows. -/
inductive CidrStop where
  | unparsed
  | panicked
deriving DecidableEq, Repr

/-- A shift by the width of the word or more overflows. -/
def shlChecked {w : Nat} (x : BitVec w) (n : Nat) : Option (BitVec w) := if n < w then some (x <<< n) else none

/-- `0` for no bits, else `!0 << (w - prefix_len)`; nothing where the difference or the shift overflows. -/
def networkMask (w : Nat) (prefixLen : UInt32) : Option (BitVec w) :=
  if prefixLen = 0 then some 0
  else if w < prefixLen.toNat then none
  else shlChecked (BitVec.allOnes w) (w - prefixLen.toNat)

/-- An entry of either family: the two branches of the code are the same for their own widths. -/
def maskedNetwork {w : Nat} (parsed : BitVec w → BitVec w → ParsedCidr) (network : BitVec w) (prefixLen : UInt32) :
    Except CidrStop ParsedCidr :=
  if w < prefixLen.toNat then .error .unparsed
  else
    match networkMask w prefixLen with
    | none => .error .panicked
    | some mask => .ok (parsed network mask)

section Code
variable (P : AddrParsers)

def parseCidr (cidr : String) : Except CidrStop ParsedCidr :=
  match cidr.toList.splitOn '/' with
  | [address, prefixText] =>
    match P.u32 prefixText with
    | none => .error .unparsed
    | some prefixLen =>
      match P.ipv4 address with
      | some network => maskedNetwork .v4 network prefixLen
      | none =>
        match P.ipv6 address with
        | some network => maskedNetwork .v6 network prefixLen
        | none => .error .unparsed
  | _ =>
    match P.ipv4 cidr.toList with
    | some v4 => .ok (.exactIp (.v4 v4))
    | none =>
      match P.ipv6 cidr.toList with
      | some v6 => .ok (.exactIp (.v6 v6))
      | none => .error .unparsed

/-- The networks of the entries that parse; there is nothing behind a panic. -/
def parseEntries : List String → Option (List ParsedCidr)
  | [] => some []
  | cidr :: cidrs =>
    match parseCidr P cidr with
    | .ok parsed => (parseEntries cidrs).map (parsed :: ·)
    | .error .unparsed => parseEntries cidrs
    | .error .panicked => none

end Code

structure NetworkSourceVerifier where
  allowedNetworks : List ParsedCidr
deriving DecidableEq, Repr

/-- Whether the loop of `is_allowed` returns at this network. -/
def ParsedCidr.admits (entry : ParsedCidr) (sourceIp : IpAddr) : Bool :=
  match entry, sourceIp with
  | .exactIp ip, sourceIp => ip == sourceIp
  | .v4 network mask, .v4 bits => bits &&& mask == network &&& mask
  | .v6 network mask, .v6 bits => bits &&& mask == network &&& mask
  | _, _ => false

namespace NetworkSourceVerifier

def new (P : AddrParsers) (allowedNetworks : List String) : Option NetworkSourceVerifier :=
  (parseEntries P allowedNetworks).map .mk

def isAllowed (v : NetworkSourceVerifier) (sourceIp : IpAddr) : Bool := v.allowedNetworks.any (·.admits sourceIp)

def allowedNetworksCount (v : NetworkSourceVerifier) : Nat := v.allowedNetworks.length

/-- What the verifier of the entries answers; nothing when making it panics. -/
def answer (P : AddrParsers) (entries : List String) (sourceIp : IpAddr) : Option Bool :=
  (new P entries).map (·.isAllowed sourceIp)

end NetworkSourceVerifier

/-! ## What an entry means -/

section Meaning
variable (P : AddrParsers) {w : Nat} (parse : List Char → Option (BitVec w))

/-- The entry is a network's address and the number of its bits that count, with a slash between their texts. -/
def IsNetwork (entry : String) (network : BitVec w) (prefixLen : Nat) : Prop :=
  prefixLen ≤ w ∧ ∃ address prefixText n, entry.toList = address ++ '/' :: prefixText ∧ parse address = some network ∧
    P.u32 prefixText = some n ∧ n.toNat = prefixLen

/-- An entry, read by the parser of a family, lets in the address of these bits. -/
def AllowsBits (entry : String) (bits : BitVec w) : Prop :=
  parse entry.toList = some bits ∨
    ∃ network prefixLen, IsNetwork P parse entry network prefixLen ∧ SameBits prefixLen network bits

def Parses (entry : String) : Prop :=
  (parse entry.toList).isSome ∨ ∃ network prefixLen, IsNetwork P parse entry network prefixLen

/-- Networks that differ in the bits of a host at most. -/
def SameNetworkBits (entry entry' : String) : Prop :=
  ∃ network network' prefixLen, IsNetwork P parse entry network prefixLen ∧ IsNetwork P parse entry' network' prefixLen ∧
    SameBits prefixLen network network'

def Allows (entry : String) : IpAddr → Prop
  | .v4 bits => AllowsBits P P.ipv4 entry bits
  | .v6 bits => AllowsBits P P.ipv6 entry bits

def Parsable (entry : String) : Prop := Parses P P.ipv4 entry ∨ Parses P P.ipv6 entry

def SameNetwork (entry entry' : String) : Prop :=
  SameNetworkBits P P.ipv4 entry entry' ∨ SameNetworkBits P P.ipv6 entry entry'

/-- What the entry is, with the outcome of parsing it. -/
inductive CidrReading (entry : String) : Except CidrStop ParsedCidr → Prop
  | addressV4 {bits} (h : P.ipv4 entry.toList = some bits) : CidrReading entry (.ok (.exactIp (.v4 bits)))
  | addressV6 {bits} (h : P.ipv6 entry.toList = some bits) : CidrReading entry (.ok (.exactIp (.v6 bits)))
  | networkV4 {network prefixLen} (h : IsNetwork P P.ipv4 entry network prefixLen) :
      CidrReading entry (.ok (.v4 network (highBits 32 prefixLen)))
  | networkV6 {network prefixLen} (h : IsNetwork P P.ipv6 entry network prefixLen) :
      CidrReading entry (.ok (.v6 network (highBits 128 prefixLen)))
  | unparsed (h : ¬ Parsable P entry) : CidrReading entry (.error .unparsed)

end Meaning

/-! ## The mask -/

section Mask
variable {w : Nat}

/-- **No prefix that fits the width overflows**: the mask is that of its first bits. -/
theorem networkMask_eq {prefixLen : UInt32} (h : prefixLen.toNat ≤ w) :
    networkMask w prefixLen = some (highBits w prefixLen.toNat) := by
  unfold networkMask
  split
  · next hzero =>
    subst hzero
    simp [highBits]
  · next hpos =>
    have hbits : 0 < prefixLen.toNat := Nat.pos_of_ne_zero fun hzero => hpos (UInt32.toNat_inj.1 hzero)
    rw [if_neg (by omega), shlChecked, if_pos (by omega), highBits]

theorem maskedNetwork_eq (parsed : BitVec w → BitVec w → ParsedCidr) (network : BitVec w) (prefixLen : UInt32) :
    maskedNetwork parsed network prefixLen =
      if prefixLen.toNat ≤ w then .ok (parsed network (highBits w prefixLen.toNat)) else .error .unparsed := by
  unfold maskedNetwork
  by_cases h : prefixLen.toNat ≤ w
  · rw [if_neg (by omega), networkMask_eq h, if_pos h]
  · rw [if_pos (by omega), if_neg h]

end Mask

/-! ## One family -/

section Family
variable {P : AddrParsers} {w : Nat} {parse : List Char → Option (BitVec w)} {entry : String}
  (hslash : ∀ {text}, (parse text).isSome → '/' ∉ text)

include hslash in
/-- A network is an entry of two parts. -/
theorem isNetwork_iff {network : BitVec w} {prefixLen : Nat} :
    IsNetwork P parse entry network prefixLen ↔ prefixLen ≤ w ∧ ∃ address prefixText n,
      entry.toList.splitOn '/' = [address, prefixText] ∧ parse address = some network ∧ P.u32 prefixText = some n ∧
        n.toNat = prefixLen := by
  refine and_congr_right fun _ => ⟨?_, ?_⟩
  · rintro ⟨address, prefixText, n, htext, hparse, hn, hlen⟩
    have haddress : '/' ∉ address := hslash (by simp [hparse])
    have hprefix : '/' ∉ prefixText := P.u32_slash (by simp [hn])
    exact ⟨address, prefixText, n, Lib.splitOn_eq_pair_iff.2 ⟨htext, haddress, hprefix⟩, hparse, hn, hlen⟩
  · rintro ⟨address, prefixText, n, hsplit, hparse, hn, hlen⟩
    exact ⟨address, prefixText, n, (Lib.splitOn_eq_pair_iff.1 hsplit).1, hparse, hn, hlen⟩

theorem IsNetwork.slash_mem {network : BitVec w} {prefixLen : Nat} (h : IsNetwork P parse entry network prefixLen) :
    '/' ∈ entry.toList := by
  obtain ⟨-, address, prefixText, n, htext, -⟩ := h
  simp [htext]

include hslash in
theorem IsNetwork.unique {network network' : BitVec w} {prefixLen prefixLen' : Nat}
    (h : IsNetwork P parse entry network prefixLen) (h' : IsNetwork P parse entry network' prefixLen') :
    network = network' ∧ prefixLen = prefixLen' := by
  obtain ⟨-, address, prefixText, n, hsplit, hparse, hn, rfl⟩ := (isNetwork_iff hslash).1 h
  obtain ⟨-, address', prefixText', n', hsplit', hparse', hn', rfl⟩ := (isNetwork_iff hslash).1 h'
  obtain ⟨rfl, rfl⟩ : address = address' ∧ prefixText = prefixText' := by simpa using hsplit.symm.trans hsplit'
  rw [hparse] at hparse'
  rw [hn] at hn'
  exact ⟨Option.some.inj hparse', by rw [Option.some.inj hn']⟩

include hslash in
theorem parses_iff_of_split {address prefixText : List Char} (hsplit : entry.toList.splitOn '/' = [address, prefixText]) :
    Parses P parse entry ↔ (parse address).isSome ∧ ∃ n, P.u32 prefixText = some n ∧ n.toNat ≤ w := by
  have hbare : ¬ (parse entry.toList).isSome := by
    intro hsome
    have hmem : '/' ∈ entry.toList := by simp [(Lib.splitOn_eq_pair_iff.1 hsplit).1]
    exact hslash hsome hmem
  constructor
  · rintro (hsome | ⟨network, prefixLen, h⟩)
    · exact absurd hsome hbare
    · obtain ⟨hle, address', prefixText', n, hsplit', hparse, hn, rfl⟩ := (isNetwork_iff hslash).1 h
      obtain ⟨rfl, rfl⟩ : address = address' ∧ prefixText = prefixText' := by simpa using hsplit.symm.trans hsplit'
      exact ⟨by simp [hparse], n, hn, hle⟩
  · rintro ⟨hsome, n, hn, hle⟩
    obtain ⟨network, hparse⟩ := Option.isSome_iff_exists.1 hsome
    exact .inr ⟨network, n.toNat, (isNetwork_iff hslash).2 ⟨hle, address, prefixText, n, hsplit, hparse, hn, rfl⟩⟩

include hslash in
theorem parses_iff_of_not_split (hsplit : ∀ address prefixText, entry.toList.splitOn '/' ≠ [address, prefixText]) :
    Parses P parse entry ↔ (parse entry.toList).isSome := by
  refine or_iff_left ?_
  rintro ⟨network, prefixLen, h⟩
  obtain ⟨-, address, prefixText, n, heq, -⟩ := (isNetwork_iff hslash).1 h
  exact hsplit address prefixText heq

include hslash in
theorem allowsBits_of_address {bits : BitVec w} (h : parse entry.toList = some bits) (bits' : BitVec w) :
    AllowsBits P parse entry bits' ↔ bits = bits' := by
  constructor
  · rintro (h' | ⟨network, prefixLen, hnetwork, -⟩)
    · exact Option.some.inj (h.symm.trans h')
    · exact absurd hnetwork.slash_mem (hslash (by simp [h]))
  · rintro rfl
    exact .inl h

include hslash in
theorem allowsBits_of_network {network : BitVec w} {prefixLen : Nat} (h : IsNetwork P parse entry network prefixLen)
    (bits : BitVec w) : AllowsBits P parse entry bits ↔ SameBits prefixLen network bits := by
  constructor
  · rintro (hbare | ⟨network', prefixLen', h', hsame⟩)
    · exact absurd h.slash_mem (hslash (by simp [hbare]))
    · obtain ⟨rfl, rfl⟩ := h.unique hslash h'
      exact hsame
  · exact fun hsame => .inr ⟨network, prefixLen, h, hsame⟩

theorem AllowsBits.parses {bits : BitVec w} (h : AllowsBits P parse entry bits) : Parses P parse entry := by
  rcases h with hbare | ⟨network, prefixLen, h, -⟩
  · exact .inl (by simp [hbare])
  · exact .inr ⟨network, prefixLen, h⟩

end Family

/-! ## Both families -/

section Entry
variable {P : AddrParsers} {entry : String}

/-- No entry is of both families. -/
theorem not_parses_ipv6 (h : Parses P P.ipv4 entry) : ¬ Parses P P.ipv6 entry := by
  intro h'
  by_cases hsplit : ∃ address prefixText, entry.toList.splitOn '/' = [address, prefixText]
  · obtain ⟨address, prefixText, hsplit⟩ := hsplit
    have hnone := P.disjoint ((parses_iff_of_split P.ipv4_slash hsplit).1 h).1
    simpa [hnone] using ((parses_iff_of_split P.ipv6_slash hsplit).1 h').1
  · have hsplit' : ∀ address prefixText, entry.toList.splitOn '/' ≠ [address, prefixText] :=
      fun address prefixText heq => hsplit ⟨address, prefixText, heq⟩
    have hnone := P.disjoint ((parses_iff_of_not_split P.ipv4_slash hsplit').1 h)
    simpa [hnone] using (parses_iff_of_not_split P.ipv6_slash hsplit').1 h'

theorem allows_iff_of_ipv4 (h : Parses P P.ipv4 entry) (ip : IpAddr) :
    Allows P entry ip ↔ ∃ bits, ip = .v4 bits ∧ AllowsBits P P.ipv4 entry bits := by
  cases ip with
  | v4 bits => simp [Allows]
  | v6 bits =>
    constructor
    · exact fun hbits => absurd hbits.parses (not_parses_ipv6 h)
    · rintro ⟨bits', heq, -⟩
      cases heq

theorem allows_iff_of_ipv6 (h : Parses P P.ipv6 entry) (ip : IpAddr) :
    Allows P entry ip ↔ ∃ bits, ip = .v6 bits ∧ AllowsBits P P.ipv6 entry bits := by
  cases ip with
  | v6 bits => simp [Allows]
  | v4 bits =>
    constructor
    · exact fun hbits => absurd h (not_parses_ipv6 hbits.parses)
    · rintro ⟨bits', heq, -⟩
      cases heq

theorem Allows.parsable {ip : IpAddr} (h : Allows P entry ip) : Parsable P entry := by
  cases ip with
  | v4 bits => exact .inl (AllowsBits.parses h)
  | v6 bits => exact .inr (AllowsBits.parses h)

/-- **Every entry has its reading**; none of them is a panic. -/
theorem cidrReading_parseCidr (P : AddrParsers) (entry : String) : CidrReading P entry (parseCidr P entry) := by
  unfold parseCidr
  split
  · next address prefixText hsplit =>
    have hv4 := parses_iff_of_split (P := P) P.ipv4_slash hsplit
    have hv6 := parses_iff_of_split (P := P) P.ipv6_slash hsplit
    split
    · next hn => exact .unparsed (by simp [Parsable, hv4, hv6, hn])
    · next n hn =>
      have hnetwork : ∀ {w : Nat} {parse : List Char → Option (BitVec w)} {network : BitVec w},
          parse address = some network → n.toNat ≤ w → IsNetwork P parse entry network n.toNat :=
        fun hparse hle => ⟨hle, address, prefixText, n, (Lib.splitOn_eq_pair_iff.1 hsplit).1, hparse, hn, rfl⟩
      split
      · next network hparse =>
        rw [maskedNetwork_eq]
        split
        · next hle => exact .networkV4 (hnetwork hparse hle)
        · next hlong =>
          have hsome : (P.ipv4 address).isSome := by simp [hparse]
          have hnone := P.disjoint hsome
          exact .unparsed (by simp [Parsable, hv4, hv6, hn, hnone, hlong])
      · next hnone =>
        split
        · next network hparse =>
          rw [maskedNetwork_eq]
          split
          · next hle => exact .networkV6 (hnetwork hparse hle)
          · next hlong => exact .unparsed (by simp [Parsable, hv4, hv6, hn, hnone, hlong])
        · next hnone' => exact .unparsed (by simp [Parsable, hv4, hv6, hnone, hnone'])
  · next hsplit =>
    have hv4 := parses_iff_of_not_split (P := P) P.ipv4_slash hsplit
    have hv6 := parses_iff_of_not_split (P := P) P.ipv6_slash hsplit
    split
    · next bits hparse => exact .addressV4 hparse
    · next hnone =>
      split
      · next bits hparse => exact .addressV6 hparse
      · next hnone' => exact .unparsed (by simp [Parsable, hv4, hv6, hnone, hnone'])

theorem parseCidr_ne_panicked (P : AddrParsers) (entry : String) : parseCidr P entry ≠ .error .panicked := by
  intro h
  have hreading := cidrReading_parseCidr P entry
  rw [h] at hreading
  cases hreading

/-- The masks of both words are equal exactly when the words agree in the bits that the mask keeps. -/
theorem masked_beq_iff {w n : Nat} (hn : n ≤ w) (network bits : BitVec w) :
    (bits &&& highBits w n == network &&& highBits w n) = true ↔ SameBits n network bits := by
  rw [beq_iff_eq, eq_comm, Lib.and_highBits_eq_iff hn]

/-- A parsed entry lets in what the entry does. -/
theorem admits_iff {parsed : ParsedCidr} (h : parseCidr P entry = .ok parsed) (ip : IpAddr) :
    parsed.admits ip = true ↔ Allows P entry ip := by
  have hreading := cidrReading_parseCidr P entry
  rw [h] at hreading
  cases hreading with
  | addressV4 hbits =>
    rw [allows_iff_of_ipv4 (.inl (by simp [hbits]))]
    simp only [ParsedCidr.admits, beq_iff_eq, allowsBits_of_address P.ipv4_slash hbits, exists_eq_right']
    exact eq_comm
  | addressV6 hbits =>
    rw [allows_iff_of_ipv6 (.inl (by simp [hbits]))]
    simp only [ParsedCidr.admits, beq_iff_eq, allowsBits_of_address P.ipv6_slash hbits, exists_eq_right']
    exact eq_comm
  | networkV4 hnetwork =>
    rw [allows_iff_of_ipv4 (.inr ⟨_, _, hnetwork⟩)]
    simp only [allowsBits_of_network P.ipv4_slash hnetwork]
    cases ip with
    | v4 bits => simp [ParsedCidr.admits, masked_beq_iff hnetwork.1]
    | v6 bits => simp [ParsedCidr.admits]
  | networkV6 hnetwork =>
    rw [allows_iff_of_ipv6 (.inr ⟨_, _, hnetwork⟩)]
    simp only [allowsBits_of_network P.ipv6_slash hnetwork]
    cases ip with
    | v4 bits => simp [ParsedCidr.admits]
    | v6 bits => simp [ParsedCidr.admits, masked_beq_iff hnetwork.1]

theorem parseCidr_ok_iff : (∃ parsed, parseCidr P entry = .ok parsed) ↔ Parsable P entry := by
  have hreading := cidrReading_parseCidr P entry
  cases hparse : parseCidr P entry with
  | error stop =>
    rw [hparse] at hreading
    cases hreading with
    | unparsed h => simp [h]
  | ok parsed =>
    rw [hparse] at hreading
    refine iff_of_true ⟨parsed, rfl⟩ ?_
    cases hreading with
    | addressV4 hbits => exact .inl (.inl (by simp [hbits]))
    | addressV6 hbits => exact .inr (.inl (by simp [hbits]))
    | networkV4 hnetwork => exact .inl (.inr ⟨_, _, hnetwork⟩)
    | networkV6 hnetwork => exact .inr (.inr ⟨_, _, hnetwork⟩)

/-- **The bits of a host do not count.** -/
theorem SameNetwork.allows_iff {entry' : String} (h : SameNetwork P entry entry') (ip : IpAddr) :
    Allows P entry ip ↔ Allows P entry' ip := by
  rcases h with ⟨_, _, _, hnetwork, hnetwork', hsame⟩ | ⟨_, _, _, hnetwork, hnetwork', hsame⟩
  · rw [allows_iff_of_ipv4 (.inr ⟨_, _, hnetwork⟩), allows_iff_of_ipv4 (.inr ⟨_, _, hnetwork'⟩)]
    simp only [allowsBits_of_network P.ipv4_slash hnetwork, allowsBits_of_network P.ipv4_slash hnetwork', hsame.congr_left]
  · rw [allows_iff_of_ipv6 (.inr ⟨_, _, hnetwork⟩), allows_iff_of_ipv6 (.inr ⟨_, _, hnetwork'⟩)]
    simp only [allowsBits_of_network P.ipv6_slash hnetwork, allowsBits_of_network P.ipv6_slash hnetwork', hsame.congr_left]

end Entry

/-! ## The verifier -/

namespace NetworkSourceVerifier

section Answers
variable {P : AddrParsers} {entries entries' : List String} {ip : IpAddr}

/-- What is kept of the entries; the others are dropped. -/
theorem new_eq (P : AddrParsers) (entries : List String) :
    new P entries = some ⟨entries.filterMap fun entry => (parseCidr P entry).toOption⟩ := by
  suffices h : parseEntries P entries = some (entries.filterMap fun entry => (parseCidr P entry).toOption) by
    rw [new, h]
    rfl
  induction entries with
  | nil => rfl
  | cons entry entries ih =>
    unfold parseEntries
    split
    · next parsed hparse => simp [ih, hparse, Except.toOption]
    · next hparse => simp [ih, hparse, Except.toOption]
    · next hparse => exact absurd hparse (parseCidr_ne_panicked P entry)

/-- **The verifier lets in what some entry does.** -/
theorem isAllowed_iff {v : NetworkSourceVerifier} (h : new P entries = some v) (ip : IpAddr) :
    v.isAllowed ip = true ↔ ∃ entry ∈ entries, Allows P entry ip := by
  obtain rfl := Option.some.inj ((new_eq P entries).symm.trans h)
  unfold isAllowed
  rw [List.any_eq_true]
  constructor
  · rintro ⟨parsed, hmem, hadmits⟩
    obtain ⟨entry, hentry, hparse⟩ := List.mem_filterMap.1 hmem
    exact ⟨entry, hentry, (admits_iff (Lib.toOption_eq_some_iff.1 hparse) ip).1 hadmits⟩
  · rintro ⟨entry, hentry, hallows⟩
    obtain ⟨parsed, hparse⟩ := parseCidr_ok_iff.2 hallows.parsable
    exact ⟨parsed, List.mem_filterMap.2 ⟨entry, hentry, Lib.toOption_eq_some_iff.2 hparse⟩, (admits_iff hparse ip).2 hallows⟩

/-- The warning of dropped entries is that some entry does not parse. -/
theorem allowedNetworksCount_eq_iff {v : NetworkSourceVerifier} (h : new P entries = some v) :
    v.allowedNetworksCount = entries.length ↔ ∀ entry ∈ entries, Parsable P entry := by
  obtain rfl := Option.some.inj ((new_eq P entries).symm.trans h)
  unfold allowedNetworksCount
  rw [List.filterMap_length_eq_length]
  simp only [Option.isSome_iff_exists, Lib.toOption_eq_some_iff, parseCidr_ok_iff]

/-- There is always an answer, and it is whether some entry lets the address in. -/
theorem answer_eq (P : AddrParsers) (entries : List String) (ip : IpAddr) [Decidable (∃ entry ∈ entries, Allows P entry ip)] :
    answer P entries ip = some (decide (∃ entry ∈ entries, Allows P entry ip)) := by
  have hnew := new_eq P entries
  rw [answer, hnew, Option.map_some, Option.some.injEq, Bool.eq_iff_iff, isAllowed_iff hnew, decide_eq_true_iff]

theorem answer_eq_true_iff : answer P entries ip = some true ↔ ∃ entry ∈ entries, Allows P entry ip := by
  classical
  simp [answer_eq]

/-- Lists whose entries let the same addresses in answer alike. -/
theorem answer_congr (h : (∃ entry ∈ entries, Allows P entry ip) ↔ ∃ entry ∈ entries', Allows P entry ip) :
    answer P entries ip = answer P entries' ip := by
  classical
  simp only [answer_eq, h]

end Answers

/-- **The whitelist is exact**: no mask overflows, the answer is whether some entry is the address or a network of its
family whose bits it begins with, and what else the entries say (their host bits, their order, their number, those that do
not parse) does not change it; more entries let in no less. -/
theorem isAllowed_exact (P : AddrParsers) (entries : List String) (ip : IpAddr) :
    (∀ prefixLen : UInt32, (prefixLen.toNat ≤ 32 → networkMask 32 prefixLen = some (highBits 32 prefixLen.toNat)) ∧
      (prefixLen.toNat ≤ 128 → networkMask 128 prefixLen = some (highBits 128 prefixLen.toNat))) ∧
    (∀ entry, parseCidr P entry ≠ .error .panicked) ∧
    (∃ v, new P entries = some v ∧ (v.isAllowed ip = true ↔ ∃ entry ∈ entries, Allows P entry ip)) ∧
    (∀ before entry entry' after, SameNetwork P entry entry' →
      answer P (before ++ entry :: after) ip = answer P (before ++ entry' :: after) ip) ∧
    (∀ entries', (∀ entry, Parsable P entry → (entry ∈ entries ↔ entry ∈ entries')) →
      answer P entries ip = answer P entries' ip) ∧
    (∀ entries', entries ⊆ entries' → answer P entries ip = some true → answer P entries' ip = some true) := by
  refine ⟨fun prefixLen => ⟨networkMask_eq, networkMask_eq⟩, parseCidr_ne_panicked P, ?_, ?_, ?_, ?_⟩
  · exact ⟨_, new_eq P entries, isAllowed_iff (new_eq P entries) ip⟩
  · intro before entry entry' after hsame
    refine answer_congr ?_
    simp only [List.mem_append, List.mem_cons, or_and_right, exists_or, exists_eq_left, hsame.allows_iff]
  · intro entries' hentries
    refine answer_congr (exists_congr fun entry => and_congr_left fun hallows => hentries entry hallows.parsable)
  · intro entries' hsubset h
    obtain ⟨entry, hentry, hallows⟩ := answer_eq_true_iff.1 h
    exact answer_eq_true_iff.2 ⟨entry, hsubset hentry, hallows⟩

example : answer .std ["10.0.0.7/8", "not-a-cidr", "::1/129"] (.v4 0x0a2a0001) = some true := by decide +kernel

example : answer .std ["0.0.0.0/0", "2001:db8::/32"] (.v6 0x20010db9000000000000000000000001) = some false := by
  decide +kernel

end NetworkSourceVerifier

end Service
end Kirino
