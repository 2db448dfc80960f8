import Kirino.Lib.Shuffle
import Kirino.Service.Validation
import Kirino.Utils.Base64Exact
import Mathlib.Data.Bool.AllAny
/-!
# StaticPassword — temporary passwords (`auth/passport/static_password.rs`)

A temporary password takes one character of each of four pools, fills up from all of them, and is shuffled.  Whatever is
drawn, it has twenty characters, one of each class, none that a shell or an eye mistakes, and passes the policy on
passwords (`generateTemporaryPassword_spec`); and each arrangement of its characters comes of one choice of the
exchanges (`temporaryPassword_arrangements`).  The generator is a stream of numbers, cut to the range that is asked for.
-/
namespace Kirino
namespace Auth

open Lib (shuffle shuffle_perm shuffle_map shuffleFrom_congr existsUnique_shuffle)
open Service (CharClasses validatePassword)
open Utils (toUTF8_ofList utf8EncodeChar_ascii)

def temporaryPasswordLen : Nat := 20

def tempUpper : List Char := "ABCDEFGHJKLMNPQRSTUVWXYZ".toList

def tempLower : List Char := "abcdefghijkmnopqrstuvwxyz".toList

def tempDigit : List Char := "23456789".toList

def tempSymbol : List Char := "-_.=,".toList

def tempPools : List (List Char) := [tempUpper, tempLower, tempDigit, tempSymbol]

/-- The `k`-th draw from `0..bound`. -/
def randomRange (rng : Nat → Nat) (k bound : Nat) : Nat := rng k % bound

/-- The `k`-th draw of a character of the pool. -/
def drawFrom (rng : Nat → Nat) (k : Nat) (pool : List Char) : Char := pool.getD (randomRange rng k pool.length) 'A'

/-- One character of each pool, then of all of them. -/
def drawnChars (rng : Nat → Nat) : List Char :=
  tempPools.mapIdx (fun k pool => drawFrom rng k pool) ++
    (List.range (temporaryPasswordLen - tempPools.length)).map
      (fun k => drawFrom rng (tempPools.length + k) tempPools.flatten)

/-- The position that the character at position `i` is exchanged with; the draws go down from the last position. -/
def drawnSwap (rng : Nat → Nat) (i : Nat) : Nat :=
  randomRange rng (temporaryPasswordLen + (temporaryPasswordLen - 1 - i)) (i + 1)

def generateTemporaryPassword (rng : Nat → Nat) : String := String.ofList (shuffle (drawnSwap rng) (drawnChars rng))

/-- What a shell, a URL or an eye may mistake. -/
def hostileChars : List Char := "$`\"'\\|&;<>()[]{}*?!~#% \t\nIl1O0".toList

/-- Unicode classes that are those of ASCII on the ASCII characters. -/
structure AgreesOnAscii (classes : CharClasses) : Prop where
  upper : ∀ c : Char, c.toNat < 128 → classes.isUppercase c = c.isUpper
  lower : ∀ c : Char, c.toNat < 128 → classes.isLowercase c = c.isLower
  alphanum : ∀ c : Char, c.toNat < 128 → classes.isAlphanumeric c = c.isAlphanum

/-! ## What is drawn -/

variable {rng : Nat → Nat} {c : Char}

theorem pool_facts (h : c ∈ tempPools.flatten) : c.toNat < 128 ∧ c ∉ hostileChars := by
  have hall : ∀ c ∈ tempPools.flatten, c.toNat < 128 ∧ c ∉ hostileChars :=
    List.all_iff_forall_prop.1 (by decide +kernel)
  exact hall c h

theorem drawFrom_mem {k : Nat} {pool : List Char} (h : 0 < pool.length) : drawFrom rng k pool ∈ pool := by
  have hlt : randomRange rng k pool.length < pool.length := Nat.mod_lt _ h
  rw [drawFrom, List.getD_eq_getElem _ _ hlt]
  exact List.getElem_mem hlt

theorem drawnChars_eq (rng : Nat → Nat) : drawnChars rng =
    [drawFrom rng 0 tempUpper, drawFrom rng 1 tempLower, drawFrom rng 2 tempDigit, drawFrom rng 3 tempSymbol] ++
      (List.range 16).map (fun k => drawFrom rng (4 + k) tempPools.flatten) := rfl

theorem length_drawnChars (rng : Nat → Nat) : (drawnChars rng).length = temporaryPasswordLen := by
  simp [drawnChars_eq, temporaryPasswordLen]

theorem mem_pool_of_drawn (h : c ∈ drawnChars rng) : c ∈ tempPools.flatten := by
  have hpool : ∀ {k : Nat} {pool : List Char}, pool ∈ tempPools → 0 < pool.length → drawFrom rng k pool ∈ tempPools.flatten :=
    fun hmem hlen => List.mem_flatten.2 ⟨_, hmem, drawFrom_mem hlen⟩
  rw [drawnChars_eq] at h
  simp only [List.cons_append, List.nil_append, List.mem_cons, List.mem_map] at h
  rcases h with rfl | rfl | rfl | rfl | ⟨k, -, rfl⟩
  · exact hpool (by decide) (by decide)
  · exact hpool (by decide) (by decide)
  · exact hpool (by decide) (by decide)
  · exact hpool (by decide) (by decide)
  · exact drawFrom_mem (by decide)

/-- A character of each pool is drawn. -/
theorem exists_drawn_of_pool (rng : Nat → Nat) {pool : List Char} (h : pool ∈ tempPools) : ∃ c ∈ drawnChars rng, c ∈ pool := by
  rw [drawnChars_eq]
  simp only [tempPools, List.mem_cons, List.not_mem_nil, or_false] at h
  rcases h with rfl | rfl | rfl | rfl
  · exact ⟨drawFrom rng 0 tempUpper, by simp, drawFrom_mem (by decide)⟩
  · exact ⟨drawFrom rng 1 tempLower, by simp, drawFrom_mem (by decide)⟩
  · exact ⟨drawFrom rng 2 tempDigit, by simp, drawFrom_mem (by decide)⟩
  · exact ⟨drawFrom rng 3 tempSymbol, by simp, drawFrom_mem (by decide)⟩

theorem mem_password_iff : c ∈ (generateTemporaryPassword rng).toList ↔ c ∈ drawnChars rng := by
  rw [generateTemporaryPassword, String.toList_ofList]
  exact (shuffle_perm _ _).mem_iff

theorem utf8ByteSize_of_ascii {l : List Char} (h : ∀ c ∈ l, c.toNat < 128) : (String.ofList l).utf8ByteSize = l.length := by
  have hbytes : (String.ofList l).utf8ByteSize = (String.ofList l).toUTF8.data.toList.length := rfl
  rw [hbytes, toUTF8_ofList, List.length_flatMap]
  have hone : l.map (fun c => (String.utf8EncodeChar c).length) = l.map (fun _ => 1) :=
    List.map_congr_left (fun c hc => by rw [utf8EncodeChar_ascii (h c hc)]; rfl)
  rw [hone]
  simp

/-- **A password with a character of each class, of a length within the bounds, passes the policy.** -/
theorem validatePassword_of_classes {classes : CharClasses} {password : String}
    (hmin : Service.minPasswordLen ≤ password.utf8ByteSize) (hmax : password.utf8ByteSize ≤ Service.maxPasswordLen)
    (hupper : ∃ c ∈ password.toList, classes.isUppercase c = true)
    (hlower : ∃ c ∈ password.toList, classes.isLowercase c = true) (hdigit : ∃ c ∈ password.toList, c.isDigit = true) :
    validatePassword classes password = .ok () := by
  unfold validatePassword
  rw [if_neg (Nat.not_lt.2 hmin), if_neg (Nat.not_lt.2 hmax), List.any_eq_true.2 hupper, List.any_eq_true.2 hlower,
    List.any_eq_true.2 hdigit]
  exact if_neg (by simp [List.count_cons])

theorem length_password (rng : Nat → Nat) : (generateTemporaryPassword rng).toList.length = temporaryPasswordLen := by
  rw [generateTemporaryPassword, String.toList_ofList, (shuffle_perm _ _).length_eq, length_drawnChars]

theorem exists_char_of_pool (rng : Nat → Nat) {pool : List Char} (h : pool ∈ tempPools) :
    ∃ c ∈ (generateTemporaryPassword rng).toList, c ∈ pool := by
  obtain ⟨c, hc, hmem⟩ := exists_drawn_of_pool rng h
  exact ⟨c, mem_password_iff.2 hc, hmem⟩

theorem mem_pool_of_password (h : c ∈ (generateTemporaryPassword rng).toList) : c ∈ tempPools.flatten :=
  mem_pool_of_drawn (mem_password_iff.1 h)

/-- **The policy on passwords accepts a temporary one.** -/
theorem validatePassword_generated {classes : CharClasses} (hclasses : AgreesOnAscii classes) (rng : Nat → Nat) :
    validatePassword classes (generateTemporaryPassword rng) = .ok () := by
  have hclass : ∀ (p : Char → Bool) (pool : List Char), pool ∈ tempPools → (∀ c ∈ pool, p c = true) →
      ∃ c ∈ (generateTemporaryPassword rng).toList, p c = true := by
    intro p pool hpool hp
    obtain ⟨c, hc, hmem⟩ := exists_char_of_pool rng hpool
    exact ⟨c, hc, hp c hmem⟩
  have hsize : (generateTemporaryPassword rng).utf8ByteSize = temporaryPasswordLen := by
    rw [← length_password rng, ← utf8ByteSize_of_ascii (fun c hc => (pool_facts (mem_pool_of_password hc)).1),
      String.ofList_toList]
  have hascii : ∀ pool ∈ tempPools, ∀ c ∈ pool, c.toNat < 128 :=
    fun pool hpool c hc => (pool_facts (List.mem_flatten.2 ⟨pool, hpool, hc⟩)).1
  refine validatePassword_of_classes (hsize ▸ by decide) (hsize ▸ by decide) (hclass _ tempUpper (by decide) ?_)
    (hclass _ tempLower (by decide) ?_) (hclass _ tempDigit (by decide) ?_)
  · intro c hc
    rw [hclasses.upper c (hascii tempUpper (by decide) c hc)]
    exact List.all_eq_true.1 (by decide +kernel : tempUpper.all Char.isUpper = true) c hc
  · intro c hc
    rw [hclasses.lower c (hascii tempLower (by decide) c hc)]
    exact List.all_eq_true.1 (by decide +kernel : tempLower.all Char.isLower = true) c hc
  · intro c hc
    exact List.all_eq_true.1 (by decide +kernel : tempDigit.all Char.isDigit = true) c hc

/-- **A temporary password is fit to hand out**, whatever the generator draws: it has twenty characters of the pools, one
of each pool and none that is mistaken, and the policy on passwords accepts it. -/
theorem generateTemporaryPassword_spec (classes : CharClasses) (hclasses : AgreesOnAscii classes) (rng : Nat → Nat) :
    (generateTemporaryPassword rng).toList.length = temporaryPasswordLen ∧
    (∀ pool ∈ tempPools, ∃ c ∈ (generateTemporaryPassword rng).toList, c ∈ pool) ∧
    (∀ c ∈ (generateTemporaryPassword rng).toList, c ∈ tempPools.flatten ∧ c ∉ hostileChars) ∧
    validatePassword classes (generateTemporaryPassword rng) = .ok () :=
  ⟨length_password rng, fun _ hpool => exists_char_of_pool rng hpool,
    fun _ hc => ⟨mem_pool_of_password hc, (pool_facts (mem_pool_of_password hc)).2⟩, validatePassword_generated hclasses rng⟩

theorem generateTemporaryPassword_spec_ascii :
    validatePassword .ascii (generateTemporaryPassword (fun k => 7 * k)) = .ok () :=
  (generateTemporaryPassword_spec .ascii ⟨fun _ _ => rfl, fun _ _ => rfl, fun _ _ => rfl⟩ (fun k => 7 * k)).2.2.2

/-! ## How it is arranged -/

/-- The characters in an order of their positions. -/
def arranged (chars : List Char) (order : List Nat) : String := String.ofList (order.map (fun i => chars.getD i 'A'))

/-- A password is the characters drawn in the order that the exchanges bring their positions to. -/
theorem password_eq_arranged (rng : Nat → Nat) : generateTemporaryPassword rng =
    arranged (drawnChars rng) (shuffle (drawnSwap rng) (List.range temporaryPasswordLen)) := by
  have hchars : (List.range temporaryPasswordLen).map (fun i => (drawnChars rng).getD i 'A') = drawnChars rng := by
    refine List.ext_getElem (by rw [List.length_map, List.length_range, length_drawnChars]) (fun i _ hi => ?_)
    rw [List.getElem_map, List.getElem_range, List.getD_eq_getElem _ _ hi]
  rw [generateTemporaryPassword, arranged, ← shuffle_map, hchars]

theorem drawnChars_congr {rng' : Nat → Nat} (h : ∀ k, k < temporaryPasswordLen → rng' k = rng k) :
    drawnChars rng' = drawnChars rng := by
  have hdraw : ∀ {k : Nat} {pool : List Char}, k < temporaryPasswordLen → drawFrom rng' k pool = drawFrom rng k pool := by
    intro k pool hk
    rw [drawFrom, drawFrom, randomRange, randomRange, h k hk]
  rw [drawnChars_eq, drawnChars_eq, hdraw (by decide), hdraw (by decide), hdraw (by decide), hdraw (by decide)]
  congr 1
  refine List.map_congr_left (fun k hk => hdraw ?_)
  have hlt := List.mem_range.1 hk
  unfold temporaryPasswordLen
  omega

theorem drawnSwap_le (rng : Nat → Nat) (i : Nat) : drawnSwap rng i ≤ i :=
  Nat.le_of_lt_succ (Nat.mod_lt _ (Nat.succ_pos i))

/-- **Every arrangement comes of one choice of the exchanges**: whatever characters were drawn, each order of their twenty
positions is the one that some later draws bring about, and all draws that do agree on every exchange. -/
theorem temporaryPassword_arrangements (rng : Nat → Nat) (order : List Nat)
    (horder : order.Perm (List.range temporaryPasswordLen)) :
    ∃ rng', (∀ k, k < temporaryPasswordLen → rng' k = rng k) ∧
      generateTemporaryPassword rng' = arranged (drawnChars rng) order ∧
      shuffle (drawnSwap rng') (List.range temporaryPasswordLen) = order ∧
      ∀ rng'', shuffle (drawnSwap rng'') (List.range temporaryPasswordLen) = order →
        ∀ i, 0 < i → i < temporaryPasswordLen → drawnSwap rng'' i = drawnSwap rng' i := by
  obtain ⟨draw, hdraw, heq, hunique⟩ := existsUnique_shuffle List.nodup_range horder
  rw [List.length_range] at hunique
  -- the exchange at position `i` takes the draw that is as far from the last one
  let rng' : Nat → Nat := fun k => if k < temporaryPasswordLen then rng k else draw (2 * temporaryPasswordLen - 1 - k)
  have hswap : ∀ i, i < temporaryPasswordLen → drawnSwap rng' i = draw i := by
    intro i hi
    have hplace : 2 * temporaryPasswordLen - 1 - (temporaryPasswordLen + (temporaryPasswordLen - 1 - i)) = i := by omega
    have hlater : ¬ temporaryPasswordLen + (temporaryPasswordLen - 1 - i) < temporaryPasswordLen := by omega
    simp only [drawnSwap, randomRange, rng', if_neg hlater, hplace]
    exact Nat.mod_eq_of_lt (Nat.lt_succ_of_le (hdraw i))
  have horder' : shuffle (drawnSwap rng') (List.range temporaryPasswordLen) = order := by
    rw [← heq, shuffle, shuffle, List.length_range]
    exact shuffleFrom_congr _ _ (fun i _ hi => hswap i (by unfold temporaryPasswordLen at *; omega))
  have hfirst : ∀ k, k < temporaryPasswordLen → rng' k = rng k := fun k hk => if_pos hk
  refine ⟨rng', hfirst, ?_, horder', fun rng'' heq'' i hi hlt => ?_⟩
  · rw [password_eq_arranged, horder', drawnChars_congr hfirst]
  · rw [hswap i hlt]
    exact hunique (drawnSwap rng'') (drawnSwap_le rng'') heq'' i hi hlt

theorem temporaryPassword_arrangements_reversed :
    ∃ rng', generateTemporaryPassword rng' =
      arranged (drawnChars (fun k => k)) (List.range temporaryPasswordLen).reverse := by
  obtain ⟨rng', -, hpassword, -⟩ := temporaryPassword_arrangements (fun k => k) (List.range temporaryPasswordLen).reverse
    (List.reverse_perm _)
  exact ⟨rng', hpassword⟩

end Auth
end Kirino
