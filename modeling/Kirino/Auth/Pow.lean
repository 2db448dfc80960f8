import Kirino.Lib.Cbor
import Kirino.Lib.HashMap
import Kirino.Lib.StableSort
import Kirino.Lib.Threads
/-!
# Pow — proof-of-work challenges (`auth/passport/pow.rs`)

A seed is handed out, and a solution is a counter that brings the digest of both down to the difficulty.  A seed is taken
out of the store before anything is checked.  Each use of the lock is a step, and each reading of the clock outside it,
so that calls may overlap.
-/
namespace Kirino
namespace Auth
namespace Pow

open Lib (HashMap Machine Pool PoolEvent)

inductive PowError where
  | invalidSeed | expired | insufficientWork | invalidBits
deriving DecidableEq, Repr

structure PowChallengeIssued where
  seed : String
  bits : UInt8
deriving DecidableEq, Repr

structure SeedEntry where
  issuedAt : Nat
deriving DecidableEq, Repr

/-- The limits of a store; the time to live is in nanoseconds. -/
structure PowLimits where
  ttl : Nat
  cap : Nat

def PowLimits.default : PowLimits := ⟨120 * 10 ^ 9, 10000⟩

abbrev Seeds := HashMap String SeedEntry

/-- The digest and the text of its bytes, from other crates. -/
structure PowCrates where
  sha256 : List UInt8 → List UInt8
  hexEncode : List UInt8 → String

/-! ## The difficulty -/

/-- `u8::leading_zeros`, of a byte that is not zero. -/
def byteLeadingZeros (byte : UInt8) : Nat := 7 - byte.toNat.log2

def leadingZeroBits : List UInt8 → Nat
  | [] => 0
  | byte :: hash => if byte = 0 then 8 + leadingZeroBits hash else byteLeadingZeros byte

/-- Read as a number, the digest begins with this many zero bits. -/
def MeetsDifficulty (bits : Nat) (hash : List UInt8) : Prop :=
  bits ≤ 8 * hash.length ∧ Lib.Cbor.beNat hash < 2 ^ (8 * hash.length - bits)

theorem le_byteLeadingZeros {byte : UInt8} (hbyte : byte ≠ 0) (bits : Nat) :
    bits ≤ byteLeadingZeros byte ↔ bits ≤ 8 ∧ byte.toNat < 2 ^ (8 - bits) := by
  have hne : byte.toNat ≠ 0 := fun h => hbyte (UInt8.toNat_inj.1 h)
  have hlog : byte.toNat.log2 < 8 := (Nat.log2_lt hne).2 byte.toNat_lt
  rw [← Nat.log2_lt hne]
  unfold byteLeadingZeros
  omega

/-- A zero byte in front is eight bits of the difficulty. -/
theorem meetsDifficulty_zero_cons (bits : Nat) (hash : List UInt8) :
    MeetsDifficulty bits (0 :: hash) ↔ MeetsDifficulty (bits - 8) hash := by
  have hrest := Lib.Cbor.beNat_lt hash
  rw [show (256 : Nat) = 2 ^ 8 from rfl, ← Nat.pow_mul] at hrest
  unfold MeetsDifficulty
  rw [Lib.Cbor.beNat_cons, UInt8.toNat_zero, Nat.zero_mul, Nat.zero_add, List.length_cons]
  rcases Nat.lt_or_ge bits 8 with hlt | hge
  · have hpow : 2 ^ (8 * hash.length) ≤ 2 ^ (8 * (hash.length + 1) - bits) := Nat.pow_le_pow_right (by decide) (by omega)
    rw [Nat.sub_eq_zero_of_le (Nat.le_of_lt hlt)]
    constructor
    · exact fun _ => ⟨Nat.zero_le _, hrest⟩
    · exact fun _ => ⟨by omega, Nat.lt_of_lt_of_le hrest hpow⟩
  · have hshift : 8 * (hash.length + 1) - bits = 8 * hash.length - (bits - 8) := by omega
    rw [hshift]
    exact and_congr_left (fun _ => by omega)

/-- Any other byte in front decides alone, the rest being less than one unit of it. -/
theorem meetsDifficulty_cons {byte : UInt8} (hbyte : byte ≠ 0) (bits : Nat) (hash : List UInt8) :
    MeetsDifficulty bits (byte :: hash) ↔ bits ≤ 8 ∧ byte.toNat < 2 ^ (8 - bits) := by
  have hrest := Lib.Cbor.beNat_lt hash
  rw [show (256 : Nat) = 2 ^ 8 from rfl, ← Nat.pow_mul] at hrest
  unfold MeetsDifficulty
  rw [Lib.Cbor.beNat_cons, show (256 : Nat) = 2 ^ 8 from rfl, ← Nat.pow_mul, List.length_cons]
  rcases Nat.lt_or_ge 8 bits with hgt | hle
  · have hone : 1 ≤ byte.toNat := Nat.pos_of_ne_zero (fun h => hbyte (UInt8.toNat_inj.1 h))
    have hpow : 2 ^ (8 * (hash.length + 1) - bits) ≤ 2 ^ (8 * hash.length) := Nat.pow_le_pow_right (by decide) (by omega)
    have hmul := Nat.mul_le_mul_right (2 ^ (8 * hash.length)) hone
    constructor
    · exact fun h => by omega
    · exact fun h => by omega
  · have hdiv : (byte.toNat * 2 ^ (8 * hash.length) + Lib.Cbor.beNat hash) / 2 ^ (8 * hash.length) = byte.toNat := by
      rw [Nat.mul_comm, Nat.mul_add_div (Nat.two_pow_pos _), Nat.div_eq_of_lt hrest, Nat.add_zero]
    have hsplit : 8 * (hash.length + 1) - bits = (8 - bits) + 8 * hash.length := by omega
    rw [hsplit, Nat.pow_add, ← Nat.div_lt_iff_lt_mul (Nat.two_pow_pos _), hdiv]
    exact and_congr_left (fun _ => by omega)

/-- **The count is the difficulty that the digest meets.** -/
theorem le_leadingZeroBits (hash : List UInt8) (bits : Nat) : bits ≤ leadingZeroBits hash ↔ MeetsDifficulty bits hash := by
  induction hash generalizing bits with
  | nil => simp [leadingZeroBits, MeetsDifficulty, Lib.Cbor.beNat]
  | cons byte hash ih =>
    unfold leadingZeroBits
    split
    · rename_i hzero
      rw [hzero, meetsDifficulty_zero_cons, ← ih]
      omega
    · rename_i hbyte
      rw [meetsDifficulty_cons hbyte, le_byteLeadingZeros hbyte]

example : leadingZeroBits [0, 0, 0x10] = 19 := by decide

/-! ## The store -/

/-- Entries past their time leave. -/
def pruneSeeds (ttl now : Nat) (seeds : Seeds) : Seeds := seeds.retain (fun _ e => decide (now - e.issuedAt ≤ ttl))

/-- At the capacity the newest entries stay, as many as the capacity. -/
def keepNewest (cap : Nat) (seeds : Seeds) : Seeds :=
  if cap ≤ seeds.len then
    let entries := seeds.entries.insertionSort (fun a b => a.2.issuedAt ≤ b.2.issuedAt)
    HashMap.ofList (entries.reverse.take cap)
  else seeds

theorem get?_keepNewest {cap : Nat} {seeds : Seeds} {seed : String} {entry : SeedEntry}
    (h : (keepNewest cap seeds).get? seed = some entry) : seeds.get? seed = some entry := by
  unfold keepNewest at h
  split at h
  · dsimp only at h
    have hperm := (List.reverse_perm _).trans
      (List.perm_insertionSort (fun a b : String × SeedEntry => a.2.issuedAt ≤ b.2.issuedAt) seeds.entries)
    have hnodup := ((hperm.map Prod.fst).nodup_iff.2 seeds.nodup).sublist ((List.take_sublist cap _).map Prod.fst)
    have hmem := List.mem_of_mem_take ((HashMap.get?_ofList_eq_some _ hnodup seed entry).1 h)
    exact (seeds.get?_eq_some_iff seed entry).2 (hperm.mem_iff.1 hmem)
  · exact h

/-! ## The calls -/

/-- The places of a call, each with what it has drawn or taken out. -/
inductive PowCall where
  | issue (bits : UInt8)
  | draw (bits : UInt8)
  | insert (bits : UInt8) (seed : String)
  | verify (seed : String) (counter : UInt64) (bits : UInt8)
  | check (entry : SeedEntry) (seed : String) (counter : UInt64) (bits : UInt8)
  | returned

inductive PowAnswer where
  | issued (result : Except PowError PowChallengeIssued)
  | verified (result : Except PowError Unit)
deriving DecidableEq

structure PowStore where
  seeds : Seeds
  now : Nat

/-- The clock goes forward. -/
inductive PowClock where
  | elapse (nanos : Nat)

abbrev PowEvent := PoolEvent PowCall (List UInt8) PowClock

def PowClock.perform (w : PowStore) : PowClock → PowStore
  | elapse nanos => { w with now := w.now + nanos }

section Steps
variable (crates : PowCrates) (limits : PowLimits)

/-- The digest of a seed and a counter, both as text. -/
def PowCrates.solution (seed : String) (counter : UInt64) : List UInt8 :=
  crates.sha256 (seed.toUTF8.data.toList ++ (toString counter).toUTF8.data.toList)

/-- The checks of an entry that has been taken out. -/
def checkWork (now : Nat) (entry : SeedEntry) (seed : String) (counter : UInt64) (bits : UInt8) : Except PowError Unit :=
  if limits.ttl < now - entry.issuedAt then .error .expired
  else if leadingZeroBits (crates.solution seed counter) < bits.toNat then .error .insufficientWork
  else .ok ()

theorem checkWork_eq_ok {crates : PowCrates} {limits : PowLimits} {now : Nat} {entry : SeedEntry} {seed : String}
    {counter : UInt64} {bits : UInt8} (h : checkWork crates limits now entry seed counter bits = .ok ()) :
    now - entry.issuedAt ≤ limits.ttl ∧ MeetsDifficulty bits.toNat (crates.solution seed counter) := by
  unfold checkWork at h
  split at h
  · cases h
  · rename_i htime
    split at h
    · cases h
    · rename_i hwork
      exact ⟨Nat.not_lt.1 htime, (le_leadingZeroBits _ _).1 (Nat.not_lt.1 hwork)⟩

/-- One step of a call; a draw takes the random bytes. -/
def PowCall.next (raw : List UInt8) (w : PowStore) : PowCall → PowStore × PowCall × Option PowAnswer
  | issue bits =>
    if 4 ≤ bits ∧ bits ≤ 32 then ({ w with seeds := pruneSeeds limits.ttl w.now w.seeds }, draw bits, none)
    else (w, returned, some (.issued (.error .invalidBits)))
  | draw bits => (w, insert bits (crates.hexEncode (crates.sha256 raw)), none)
  | insert bits seed =>
    ({ w with seeds := (keepNewest limits.cap w.seeds).insert seed ⟨w.now⟩ }, returned, some (.issued (.ok ⟨seed, bits⟩)))
  | verify seed counter bits =>
    match w.seeds.get? seed with
    | some entry => ({ w with seeds := w.seeds.remove seed }, check entry seed counter bits, none)
    | none => (w, returned, some (.verified (.error .invalidSeed)))
  | check entry seed counter bits => (w, returned, some (.verified (checkWork crates limits w.now entry seed counter bits)))
  | returned => (w, returned, none)

def powProgram : Lib.Program PowStore PowCall (List UInt8) PowClock (Option PowAnswer) where
  next _ raw w call := call.next crates limits raw w
  env op w := (op.perform w, none)
  idle := none

def powMachine : Machine (Pool PowStore PowCall) PowEvent (Option PowAnswer) := (powProgram crates limits).machine

end Steps

end Pow
end Auth
end Kirino
