import Kirino.Service.RateLimit
/-!
# Lockout — runs of the login limiter

Whatever keys are tried between them, the attempts on one bucket are those of its window (`tracks_run`).  Every attempt
that is allowed lies in a window that an attempt opened, and a window of another is a window's time away; a window admits
its limit and no more, a full one refuses until its lockout is over, and only then is anything refused.  The other buckets
do not matter, nor which variant of its key an attempt is made under.
-/
namespace Kirino
namespace Service

open Lib (HashMap Machine Window WindowPolicy asciiLowercase isWhitespace)
open Lib.WindowPolicy (next_cases count_next_le window_le_of_lapsed)

structure Attempt where
  now : Nat
  key : String
deriving DecidableEq, Repr

/-- The buckets, and the instant of the last attempt. -/
structure LimiterState where
  entries : RateLimitEntries
  clock : Nat

def limiterMachine (limiter : LoginRateLimiter) : Machine LimiterState Attempt (Except ServiceError Unit) where
  step s e := ⟨(limiter.checkAndRecordFailure s.entries e.key e.now).1, e.now⟩
  out s e := (limiter.checkAndRecordFailure s.entries e.key e.now).2

def LimiterState.start : LimiterState := ⟨HashMap.empty, 0⟩

section Runs
variable (limiter : LoginRateLimiter)

def limiterAt (es : List Attempt) (n : Nat) : LimiterState := (limiterMachine limiter).run .start (es.take n)

/-- The attempt at the place is one on the bucket, and is allowed. -/
def allows (es : List Attempt) (b : String) (j : Nat) : Bool :=
  match es[j]? with
  | some e => decide (limiter.bucketKey e.key = b) && ((limiterMachine limiter).out (limiterAt limiter es j) e).isOk
  | none => false

/-- The attempt at the place is allowed as the first of a window that it opens. -/
def Opens (es : List Attempt) (b : String) (j : Nat) : Prop :=
  allows limiter es b j = true ∧ ∃ e, es[j]? = some e ∧ (limiterAt limiter es (j + 1)).entries.get? b = some ⟨1, e.now⟩

/-- The attempts on the bucket that are allowed from one place on, before another. -/
def allowedBetween (es : List Attempt) (b : String) (i n : Nat) : Nat :=
  (List.range n).countP (fun j => decide (i ≤ j) && allows limiter es b j)

/-- The `i`-th attempt, `e`, opens a window of the bucket, and none of those after it up to the place opens another. -/
structure OpenedBy (es : List Attempt) (b : String) (n i : Nat) (e : Attempt) : Prop where
  place : i < n
  attempt : es[i]? = some e
  opens : Opens limiter es b i
  last : ∀ j, i < j → j < n → ¬ Opens limiter es b j

/-- The same attempt under a variant of its key: another case, or white space around it. -/
structure Variant (e e' : Attempt) : Prop where
  now : e'.now = e.now
  key : ∃ before text after, (∀ c ∈ before.toList, isWhitespace c = true) ∧
    (∀ c ∈ after.toList, isWhitespace c = true) ∧ e'.key = before ++ text ++ after ∧
    limiter.toLowercase (trim text) = limiter.toLowercase (trim e.key)

/-- **Lockouts hold**: every allowed attempt lies in a window that was opened, the windows of a bucket are a window's
time apart, a window allows its limit at most, a full one refuses until the lockout is over, and nothing else is refused;
the attempts on other buckets do not change an answer, nor do variants of the keys. -/
structure LockoutHolds (es : List Attempt) : Prop where
  opened : ∀ b j f, es[j]? = some f → allows limiter es b j = true →
    ∃ i e, OpenedBy limiter es b (j + 1) i e ∧ e.now ≤ f.now ∧ f.now ≤ e.now + limiter.window
  apart : ∀ b i j e f, es[i]? = some e → es[j]? = some f → Opens limiter es b i → Opens limiter es b j → i < j →
    e.now + limiter.window ≤ f.now
  perWindow : ∀ b i n, Opens limiter es b i → (∀ j, i < j → j < n → ¬ Opens limiter es b j) →
    allowedBetween limiter es b i n ≤ limiter.maxAttempts
  locked : ∀ b i n e, Opens limiter es b i → es[i]? = some e → (∀ j, i < j → j < n → ¬ Opens limiter es b j) →
    allowedBetween limiter es b i n = limiter.maxAttempts →
      ∀ j f, n ≤ j → es[j]? = some f → limiter.bucketKey f.key = b → f.now < e.now + limiter.total →
        ∃ remaining, (limiterMachine limiter).out (limiterAt limiter es j) f = .error (tooManyAttempts remaining)
  refused : ∀ b j f, es[j]? = some f → limiter.bucketKey f.key = b → allows limiter es b j = false →
    ∃ i e, OpenedBy limiter es b j i e ∧ allowedBetween limiter es b i j = limiter.maxAttempts ∧
      f.now < e.now + limiter.total
  others : ∀ b, (limiterMachine limiter).outsOn (fun e => decide (limiter.bucketKey e.key = b)) .start es =
    (limiterMachine limiter).outs .start (es.filter (fun e => decide (limiter.bucketKey e.key = b)))
  variants : ∀ es', List.Forall₂ (Variant limiter) es es' →
    (limiterMachine limiter).outs .start es' = (limiterMachine limiter).outs .start es

/-! ## The window of a bucket -/

variable {limiter} (h : limiter.Counts)

/-- The window of the bucket, by the attempts on it alone. -/
def windowOf (b : String) (es : List Attempt) : Option Window :=
  es.foldl (fun w e => if limiter.bucketKey e.key = b then some ((LoginRateLimiter.windowPolicy h).next w e.now) else w) none

theorem windowOf_append (b : String) (es : List Attempt) (e : Attempt) :
    windowOf h b (es ++ [e]) =
      if limiter.bucketKey e.key = b then some ((LoginRateLimiter.windowPolicy h).next (windowOf h b es) e.now)
      else windowOf h b es := List.foldl_append

theorem windowOf_take_succ (b : String) {es : List Attempt} {j : Nat} {e : Attempt} (he : es[j]? = some e) :
    windowOf h b (es.take (j + 1)) =
      if limiter.bucketKey e.key = b then some ((LoginRateLimiter.windowPolicy h).next (windowOf h b (es.take j)) e.now)
      else windowOf h b (es.take j) := by
  rw [List.take_add_one, he, Option.toList_some, windowOf_append]

/-- An attempt keeps a bucket with its window. -/
theorem tracks_step {b : String} {s : LimiterState} {w : Option Window} {e : Attempt} (hclock : s.clock ≤ e.now)
    (htracks : Tracks (LoginRateLimiter.windowPolicy h) s.clock (s.entries.get? b) w) :
    Tracks (LoginRateLimiter.windowPolicy h) e.now (((limiterMachine limiter).step s e).entries.get? b)
      (if limiter.bucketKey e.key = b then some ((LoginRateLimiter.windowPolicy h).next w e.now) else w) := by
  have hnow := htracks.wait hclock
  by_cases hb : limiter.bucketKey e.key = b
  · subst hb
    have hentry := (LoginRateLimiter.check_spec h hnow).2
    rw [if_pos rfl]
    show Tracks _ _ ((limiter.checkAndRecordFailure s.entries e.key e.now).1.get? _) _
    rw [hentry]
    refine ⟨rfl, ?_⟩
    rcases next_cases (p := LoginRateLimiter.windowPolicy h) w e.now with ⟨v, rfl, -, -, -, hnext⟩ |
      ⟨v, rfl, -, -, -, hnext⟩ | ⟨-, -, hnext⟩
    · rw [hnext]
      exact hnow.start_le
    · rw [hnext]
      exact hnow.start_le
    · rw [hnext]
  · rw [if_neg hb]
    exact LoginRateLimiter.check_other h hb hnow

/-- The times of a run do not go back. -/
def Timed (es : List Attempt) : Prop := es.Pairwise (fun e f => e.now ≤ f.now)

theorem along_clock : ∀ (es : List Attempt) (s : LimiterState), (∀ e ∈ es, s.clock ≤ e.now) → Timed es →
    (limiterMachine limiter).Along (fun s e => s.clock ≤ e.now) s es
  | [], _, _, _ => trivial
  | e :: es, s, hs, hes => by
    obtain ⟨he, hes⟩ := List.pairwise_cons.1 hes
    exact ⟨hs e List.mem_cons_self, along_clock es _ he hes⟩

theorem along_start {es : List Attempt} (hes : Timed es) :
    (limiterMachine limiter).Along (fun s e => s.clock ≤ e.now) .start es :=
  along_clock es _ (fun _ _ => Nat.zero_le _) hes

/-- **A bucket is its window**, at every moment of a run. -/
theorem tracks_run (b : String) {es : List Attempt} (hes : Timed es) :
    Tracks (LoginRateLimiter.windowPolicy h) ((limiterMachine limiter).run .start es).clock
      (((limiterMachine limiter).run .start es).entries.get? b) (windowOf h b es) := by
  refine Machine.run_history (limiterMachine limiter) (fun s e => s.clock ≤ e.now)
    (fun es s => Tracks (LoginRateLimiter.windowPolicy h) s.clock (s.entries.get? b) (windowOf h b es)) .start ?_ ?_ es
    (along_start hes)
  · exact trivial
  · intro es e ih hclock
    rw [windowOf_append]
    exact tracks_step h hclock ih

theorem timed_take {es : List Attempt} (hes : Timed es) (n : Nat) : Timed (es.take n) :=
  hes.sublist (List.take_sublist n es)

/-- An attempt on the bucket finds its window. -/
theorem tracks_at {b : String} {es : List Attempt} (hes : Timed es) {j : Nat} {e : Attempt} (he : es[j]? = some e) :
    Tracks (LoginRateLimiter.windowPolicy h) e.now ((limiterAt limiter es j).entries.get? b) (windowOf h b (es.take j)) :=
  (tracks_run h b (timed_take hes j)).wait (Machine.along_getElem? _ _ _ _ (along_start hes) j e he)

theorem limiterAt_succ {es : List Attempt} {j : Nat} {e : Attempt} (he : es[j]? = some e) :
    limiterAt limiter es (j + 1) = (limiterMachine limiter).step (limiterAt limiter es j) e := Machine.run_take_succ _ _ he

/-- What an attempt on the bucket is answered, and whether it opens a window. -/
theorem attempt_spec {b : String} {es : List Attempt} (hes : Timed es) {j : Nat} {e : Attempt} (he : es[j]? = some e)
    (hb : limiter.bucketKey e.key = b) :
    (limiterMachine limiter).out (limiterAt limiter es j) e =
        LoginRateLimiter.answerOf h (windowOf h b (es.take j)) e.now ∧
      (limiterAt limiter es (j + 1)).entries.get? b =
        some (.ofWindow ((LoginRateLimiter.windowPolicy h).next (windowOf h b (es.take j)) e.now)) := by
  have htracks := tracks_at h (b := b) hes he
  rw [← hb] at htracks ⊢
  rw [limiterAt_succ he]
  exact LoginRateLimiter.check_spec h htracks

theorem count_windowOf_le (b : String) (es : List Attempt) :
    ∀ v, windowOf h b es = some v → v.count ≤ limiter.maxAttempts := by
  induction es using List.reverseRecOn with
  | nil => exact nofun
  | append_singleton es e ih =>
    intro v hv
    rw [windowOf_append] at hv
    split at hv
    · obtain rfl := Option.some.inj hv
      exact count_next_le (p := LoginRateLimiter.windowPolicy h) ih e.now
    · exact ih v hv

/-! ## Windows and lockouts -/

theorem allowedBetween_succ (es : List Attempt) (b : String) {i n : Nat} (hin : i ≤ n) :
    allowedBetween limiter es b i (n + 1) = allowedBetween limiter es b i n + (if allows limiter es b n then 1 else 0) := by
  unfold allowedBetween
  rw [List.range_succ, List.countP_append, List.countP_singleton, decide_eq_true hin, Bool.true_and]

theorem allowedBetween_of_le (es : List Attempt) (b : String) {i n : Nat} (hni : n ≤ i) :
    allowedBetween limiter es b i n = 0 := by
  unfold allowedBetween
  rw [List.countP_eq_zero]
  intro j hj
  have hlt := List.mem_range.1 hj
  rw [decide_eq_false (by omega)]
  exact Bool.false_ne_true

theorem allows_of_ne {es : List Attempt} {b : String} {j : Nat} {e : Attempt} (he : es[j]? = some e)
    (hb : limiter.bucketKey e.key ≠ b) : allows limiter es b j = false := by
  unfold allows
  rw [he]
  dsimp only
  rw [decide_eq_false hb, Bool.false_and]

/-- An attempt on the bucket is allowed when its window does not refuse it. -/
theorem allows_iff {es : List Attempt} (hes : Timed es) {b : String} {j : Nat} {e : Attempt} (he : es[j]? = some e)
    (hb : limiter.bucketKey e.key = b) :
    allows limiter es b j = true ↔ (LoginRateLimiter.windowPolicy h).refuses (windowOf h b (es.take j)) e.now = none := by
  unfold allows
  rw [he]
  dsimp only
  rw [decide_eq_true hb, Bool.true_and, (attempt_spec h hes he hb).1]
  unfold LoginRateLimiter.answerOf
  cases (LoginRateLimiter.windowPolicy h).refuses (windowOf h b (es.take j)) e.now with
  | none => exact ⟨fun _ => rfl, fun _ => rfl⟩
  | some remaining => exact ⟨nofun, nofun⟩

theorem isOn_of_allows {es : List Attempt} {b : String} {j : Nat} {e : Attempt} (he : es[j]? = some e)
    (hallows : allows limiter es b j = true) : limiter.bucketKey e.key = b := by
  by_contra hne
  rw [allows_of_ne he hne] at hallows
  cases hallows

/-- From the opening of a window on, its count is that of the attempts it allowed, until another is opened. -/
theorem windowOf_from_opening {es : List Attempt} (hes : Timed es) {b : String} {i : Nat} {e : Attempt}
    (he : es[i]? = some e) (hopens : Opens limiter es b i) {n : Nat} (hin : i < n) :
    (∀ j, i < j → j < n → ¬ Opens limiter es b j) → n ≤ es.length →
      windowOf h b (es.take n) = some ⟨e.now, allowedBetween limiter es b i n⟩ := by
  induction n, hin using Nat.le_induction with
  | base =>
    intro _ _
    obtain ⟨hallows, e', he', hentry⟩ := hopens
    obtain rfl := Option.some.inj (he.symm.trans he')
    have hon := isOn_of_allows he hallows
    have hread := (attempt_spec h hes he hon).2
    rw [hentry] at hread
    have hwindow : ⟨e.now, 1⟩ = (LoginRateLimiter.windowPolicy h).next (windowOf h b (es.take i)) e.now :=
      RateLimitEntry.ofWindow_inj (Option.some.inj hread)
    rw [windowOf_take_succ h b he, if_pos hon, ← hwindow, allowedBetween_succ es b (Nat.le_refl i),
      allowedBetween_of_le es b (Nat.le_refl i), if_pos hallows]
  | succ n hin ih =>
    intro hnone hlen
    have hlt : n < es.length := hlen
    have hf : es[n]? = some es[n] := List.getElem?_eq_getElem hlt
    have hbefore := ih (fun j hij hjn => hnone j hij (Nat.lt_succ_of_lt hjn)) (Nat.le_of_lt hlt)
    rw [windowOf_take_succ h b hf, allowedBetween_succ es b (Nat.le_of_lt hin), hbefore]
    by_cases hb : limiter.bucketKey es[n].key = b
    · have hiff := allows_iff h hes hf hb
      rw [hbefore] at hiff
      rw [if_pos hb]
      rcases next_cases (p := LoginRateLimiter.windowPolicy h) (some ⟨e.now, allowedBetween limiter es b i n⟩) es[n].now with
        ⟨v, hv, -, -, hrefuses, hnext⟩ | ⟨v, hv, -, -, hrefuses, hnext⟩ | ⟨-, hrefuses, hnext⟩
      · have hrefused : allows limiter es b n = false := by
          rw [← Bool.not_eq_true, hiff, hrefuses]
          exact nofun
        rw [hnext, hrefused, ← Option.some.inj hv]
        rfl
      · rw [hnext, if_pos (hiff.2 hrefuses), ← Option.some.inj hv]
      · -- it would open another window
        have hentry := (attempt_spec h hes hf hb).2
        rw [hbefore, hnext] at hentry
        exact absurd ⟨hiff.2 hrefuses, _, hf, hentry⟩ (hnone n hin (Nat.lt_succ_self n))
    · rw [if_neg hb, allows_of_ne hf hb]
      rfl

/-- **The window of a bucket was opened**, at its start, and counts what was allowed since. -/
theorem openedBy_of_windowOf {es : List Attempt} (hes : Timed es) {b : String} {n : Nat} {v : Window}
    (hlen : n ≤ es.length) (hv : windowOf h b (es.take n) = some v) :
    ∃ i e, OpenedBy limiter es b n i e ∧ v = ⟨e.now, allowedBetween limiter es b i n⟩ := by
  induction n generalizing v with
  | zero => cases hv
  | succ n ih =>
    have hf : es[n]? = some es[n] := List.getElem?_eq_getElem hlen
    -- the windows found earlier stay the last ones where this attempt opens none
    have hearlier : ∀ u, windowOf h b (es.take n) = some u → ¬ Opens limiter es b n →
        ∃ i e, OpenedBy limiter es b (n + 1) i e ∧ windowOf h b (es.take (n + 1)) =
          some ⟨e.now, allowedBetween limiter es b i (n + 1)⟩ := by
      intro u hu hnot
      obtain ⟨i, e, hopened, -⟩ := ih (Nat.le_of_lt hlen) hu
      have hlast : ∀ j, i < j → j < n + 1 → ¬ Opens limiter es b j := by
        intro j hij hjn
        rcases Nat.lt_succ_iff_lt_or_eq.1 hjn with hlt | rfl
        · exact hopened.last j hij hlt
        · exact hnot
      have hin := Nat.lt_succ_of_lt hopened.place
      exact ⟨i, e, ⟨hin, hopened.attempt, hopened.opens, hlast⟩,
        windowOf_from_opening h hes hopened.attempt hopened.opens hin hlast hlen⟩
    by_cases hopens : Opens limiter es b n
    · have hwindow := windowOf_from_opening h hes hf hopens (Nat.lt_succ_self n) (fun j hij hjn => by omega) hlen
      exact ⟨n, es[n], ⟨Nat.lt_succ_self n, hf, hopens, fun j hij hjn => by omega⟩,
        Option.some.inj (hv.symm.trans hwindow)⟩
    · have hsome : ∃ u, windowOf h b (es.take n) = some u := by
        rw [windowOf_take_succ h b hf] at hv
        by_cases hb : limiter.bucketKey es[n].key = b
        · rcases next_cases (p := LoginRateLimiter.windowPolicy h) (windowOf h b (es.take n)) es[n].now with
            ⟨u, hu, -⟩ | ⟨u, hu, -⟩ | ⟨-, hrefuses, hnext⟩
          · exact ⟨u, hu⟩
          · exact ⟨u, hu⟩
          · have hentry := (attempt_spec h hes hf hb).2
            rw [hnext] at hentry
            exact absurd ⟨(allows_iff h hes hf hb).2 hrefuses, _, hf, hentry⟩ hopens
        · rw [if_neg hb] at hv
          exact ⟨v, hv⟩
      obtain ⟨u, hu⟩ := hsome
      obtain ⟨i, e, hopened, hwindow⟩ := hearlier u hu hopens
      exact ⟨i, e, hopened, Option.some.inj (hv.symm.trans hwindow)⟩

theorem now_le_of_le {es : List Attempt} (hes : Timed es) {i j : Nat} {e f : Attempt} (he : es[i]? = some e)
    (hf : es[j]? = some f) (hij : i ≤ j) : e.now ≤ f.now := by
  obtain ⟨hi, rfl⟩ := List.getElem?_eq_some_iff.1 he
  obtain ⟨hj, rfl⟩ := List.getElem?_eq_some_iff.1 hf
  rcases Nat.lt_or_eq_of_le hij with hlt | rfl
  · exact List.pairwise_iff_getElem.1 hes i j hi hj hlt
  · exact Nat.le_refl _

include h in
theorem opened_run {es : List Attempt} (hes : Timed es) {b : String} {j : Nat} {f : Attempt} (hf : es[j]? = some f)
    (hallows : allows limiter es b j = true) :
    ∃ i e, OpenedBy limiter es b (j + 1) i e ∧ e.now ≤ f.now ∧ f.now ≤ e.now + limiter.window := by
  have hb := isOn_of_allows hf hallows
  have hlen := (List.getElem?_eq_some_iff.1 hf).1
  have hnow := windowOf_take_succ h b hf
  rw [if_pos hb] at hnow
  obtain ⟨i, e, hopened, hwindow⟩ := openedBy_of_windowOf h hes hlen hnow
  refine ⟨i, e, hopened, now_le_of_le hes hopened.attempt hf (Nat.le_of_lt_succ hopened.place), ?_⟩
  have hrefuses := (allows_iff h hes hf hb).1 hallows
  rcases next_cases (p := LoginRateLimiter.windowPolicy h) (windowOf h b (es.take j)) f.now with
    ⟨v, -, -, -, hrefused, -⟩ | ⟨v, -, -, hopen, -, hnext⟩ | ⟨-, -, hnext⟩
  · cases hrefuses.symm.trans hrefused
  · have hstart : v.start = e.now := congrArg Window.start (hnext.symm.trans hwindow)
    rw [← hstart]
    exact hopen
  · have hstart : f.now = e.now := congrArg Window.start (hnext.symm.trans hwindow)
    omega

theorem windowOf_ne_none {es : List Attempt} {b : String} {i : Nat} {e : Attempt} (he : es[i]? = some e)
    (hb : limiter.bucketKey e.key = b) {n : Nat} (hin : i < n) : n ≤ es.length → windowOf h b (es.take n) ≠ none := by
  induction n, hin using Nat.le_induction with
  | base =>
    intro _
    rw [windowOf_take_succ h b he, if_pos hb]
    exact Option.some_ne_none _
  | succ n hin ih =>
    intro hlen
    have hf : es[n]? = some es[n] := List.getElem?_eq_getElem hlen
    rw [windowOf_take_succ h b hf]
    split
    · exact Option.some_ne_none _
    · exact ih (Nat.le_of_lt hlen)

theorem one_le_allowedBetween {es : List Attempt} {b : String} {i n : Nat} (hallows : allows limiter es b i = true)
    (hin : i < n) : 1 ≤ allowedBetween limiter es b i n := by
  refine List.countP_pos_iff.2 ⟨i, List.mem_range.2 hin, ?_⟩
  rw [decide_eq_true (Nat.le_refl i), hallows]
  rfl

include h in
theorem apart_run {es : List Attempt} (hes : Timed es) {b : String} {i j : Nat} {e f : Attempt} (he : es[i]? = some e)
    (hf : es[j]? = some f) (hi : Opens limiter es b i) (hj : Opens limiter es b j) (hij : i < j) :
    e.now + limiter.window ≤ f.now := by
  have hlen := (List.getElem?_eq_some_iff.1 hf).1
  have hb := isOn_of_allows hf hj.1
  obtain ⟨-, f', hf', hentry⟩ := id hj
  obtain rfl := Option.some.inj (hf.symm.trans hf')
  have hread := (attempt_spec h hes hf hb).2
  rw [hentry] at hread
  have hfirst : ⟨f.now, 1⟩ = (LoginRateLimiter.windowPolicy h).next (windowOf h b (es.take j)) f.now :=
    RateLimitEntry.ofWindow_inj (Option.some.inj hread)
  -- the last window opened before is not earlier than the one at `i`
  have hwindow : ∃ v, windowOf h b (es.take j) = some v ∧ 1 ≤ v.count ∧ e.now ≤ v.start := by
    obtain ⟨v, hv⟩ := Option.ne_none_iff_exists'.1
      (windowOf_ne_none h he (isOn_of_allows he hi.1) hij (Nat.le_of_lt hlen))
    obtain ⟨i', e', hopened, rfl⟩ := openedBy_of_windowOf h hes (Nat.le_of_lt hlen) hv
    have hii' : i ≤ i' := by
      by_contra hlt
      exact hopened.last i (by omega) hij hi
    exact ⟨_, hv, one_le_allowedBetween hopened.opens.1 hopened.place, now_le_of_le hes he hopened.attempt hii'⟩
  obtain ⟨v, hv, hcount, hstart⟩ := hwindow
  rcases next_cases (p := LoginRateLimiter.windowPolicy h) (windowOf h b (es.take j)) f.now with
    ⟨u, hu, hfull, hlocked, hrefused, -⟩ | ⟨u, hu, hroom, hopen, -, hnext⟩ | ⟨hlapsed, -, -⟩
  · cases ((allows_iff h hes hf hb).1 hj.1).symm.trans hrefused
  · obtain rfl := Option.some.inj (hu.symm.trans hv)
    have : 1 = u.count + 1 := congrArg Window.count (hfirst.trans hnext)
    omega
  · have hpast : v.start + limiter.window ≤ f.now := window_le_of_lapsed (hlapsed v hv)
    omega

theorem allowedBetween_of_length_le {es : List Attempt} {b : String} {i n : Nat} (hlen : es.length ≤ n) :
    allowedBetween limiter es b i n = allowedBetween limiter es b i es.length := by
  induction n, hlen using Nat.le_induction with
  | base => rfl
  | succ n hlen ih =>
    have hnone : allows limiter es b n = false := by
      unfold allows
      rw [List.getElem?_eq_none hlen]
    unfold allowedBetween at ih ⊢
    rw [List.range_succ, List.countP_append, List.countP_singleton, hnone, Bool.and_false, ih]
    rfl

include h in
theorem allowedBetween_le {es : List Attempt} (hes : Timed es) {b : String} {i n : Nat} (hopens : Opens limiter es b i)
    (hnone : ∀ j, i < j → j < n → ¬ Opens limiter es b j) : allowedBetween limiter es b i n ≤ limiter.maxAttempts := by
  obtain ⟨-, e, he, -⟩ := id hopens
  have hlt := (List.getElem?_eq_some_iff.1 he).1
  have hshort : ∀ n, i < n → n ≤ es.length → (∀ j, i < j → j < n → ¬ Opens limiter es b j) →
      allowedBetween limiter es b i n ≤ limiter.maxAttempts := fun n hin hlen hnone =>
    count_windowOf_le h b _ _ (windowOf_from_opening h hes he hopens hin hnone hlen)
  by_cases hin : i < n
  · by_cases hlen : n ≤ es.length
    · exact hshort n hin hlen hnone
    · rw [allowedBetween_of_length_le (by omega)]
      exact hshort es.length hlt (Nat.le_refl _) (fun j hij hjl => hnone j hij (by omega))
  · rw [allowedBetween_of_le es b (Nat.le_of_not_lt hin)]
    exact Nat.zero_le _

/-- A full window stays as it is until its lockout is over. -/
theorem windowOf_locked {es : List Attempt} (hes : Timed es) {b : String} {n j : Nat} {f : Attempt} {v : Window}
    (hfull : limiter.maxAttempts ≤ v.count) (hn : windowOf h b (es.take n) = some v) (hf : es[j]? = some f)
    (hover : f.now < v.start + limiter.total) (hnj : n ≤ j) : windowOf h b (es.take j) = some v := by
  induction j, hnj using Nat.le_induction generalizing f with
  | base => exact hn
  | succ j hnj ih =>
    have hlt := (List.getElem?_eq_some_iff.1 hf).1
    have hg : es[j]? = some es[j] := List.getElem?_eq_getElem (by omega)
    have hgf : es[j].now ≤ f.now := by
      have hle := List.pairwise_iff_getElem.1 hes j (j + 1) (by omega) hlt (Nat.lt_succ_self j)
      rw [List.getElem?_eq_getElem hlt] at hf
      rwa [Option.some.inj hf] at hle
    have hbefore := ih hg (Nat.lt_of_le_of_lt hgf hover)
    rw [windowOf_take_succ h b hg, hbefore]
    split
    · rcases next_cases (p := LoginRateLimiter.windowPolicy h) (some v) es[j].now with
        ⟨u, hu, -, -, -, hnext⟩ | ⟨u, hu, hroom, -, -, -⟩ | ⟨hlapsed, -, -⟩
      · rw [hnext, ← Option.some.inj hu]
      · obtain rfl := Option.some.inj hu
        exact absurd hroom (Nat.not_lt_of_le hfull)
      · rcases hlapsed v rfl with ⟨-, hpast⟩ | ⟨hroom, -⟩
        · have hpast : v.start + limiter.total ≤ es[j].now := hpast
          omega
        · exact absurd hroom (Nat.not_lt_of_le hfull)
    · rfl

include h in
theorem locked_run {es : List Attempt} (hes : Timed es) {b : String} {i n j : Nat} {e f : Attempt}
    (hopens : Opens limiter es b i) (he : es[i]? = some e) (hnone : ∀ j, i < j → j < n → ¬ Opens limiter es b j)
    (hfull : allowedBetween limiter es b i n = limiter.maxAttempts) (hnj : n ≤ j) (hf : es[j]? = some f)
    (hb : limiter.bucketKey f.key = b) (hover : f.now < e.now + limiter.total) :
    ∃ remaining, (limiterMachine limiter).out (limiterAt limiter es j) f = .error (tooManyAttempts remaining) := by
  have hjl := (List.getElem?_eq_some_iff.1 hf).1
  have hin : i < n := by
    by_contra hle
    have hpos := h.one_le_max
    have hzero := (allowedBetween_of_le es b (Nat.le_of_not_lt hle) : allowedBetween limiter es b i n = 0)
    omega
  have hwindow := windowOf_from_opening h hes he hopens hin hnone (by omega)
  rw [hfull] at hwindow
  have hlocked := windowOf_locked h hes (Nat.le_refl _) hwindow hf hover hnj
  rw [(attempt_spec h hes hf hb).1, hlocked]
  have hboth : (LoginRateLimiter.windowPolicy h).max ≤ limiter.maxAttempts ∧
      f.now < e.now + (LoginRateLimiter.windowPolicy h).total := ⟨Nat.le_refl _, hover⟩
  exact ⟨_, LoginRateLimiter.answerOf_of_some h (if_pos hboth)⟩

include h in
/-- Two limiters whose buckets for the key are one window answer alike, whatever the other buckets are. -/
theorem others_run (b : String) {es : List Attempt} (hes : Timed es) :
    (limiterMachine limiter).outsOn (fun e => decide (limiter.bucketKey e.key = b)) .start es =
      (limiterMachine limiter).outs .start (es.filter (fun e => decide (limiter.bucketKey e.key = b))) := by
  refine Machine.outsOn_eq_filter (limiterMachine limiter) _ (fun s e => s.clock ≤ e.now)
    (fun s t => t.clock ≤ s.clock ∧ ∃ w, Tracks (LoginRateLimiter.windowPolicy h) s.clock (s.entries.get? b) w ∧
      Tracks (LoginRateLimiter.windowPolicy h) t.clock (t.entries.get? b) w) ?_ ?_ .start .start es
    ⟨Nat.le_refl 0, none, trivial, trivial⟩ (along_start hes)
  · rintro s t e ⟨hts, w, hs, ht⟩ hclock hkeep
    have hb := of_decide_eq_true hkeep
    have hclock' := Nat.le_trans hts hclock
    refine ⟨⟨Nat.le_refl _, _, tracks_step h hclock hs, tracks_step h hclock' ht⟩, ?_⟩
    have hs' := hs.wait hclock
    have ht' := ht.wait hclock'
    rw [← hb] at hs' ht'
    exact (LoginRateLimiter.check_spec h hs').1.trans (LoginRateLimiter.check_spec h ht').1.symm
  · rintro s t e ⟨hts, w, hs, ht⟩ hclock hdrop
    have hb := of_decide_eq_false hdrop
    have hstep := tracks_step h hclock hs
    rw [if_neg hb] at hstep
    exact ⟨Nat.le_trans hts hclock, w, hstep, ht⟩

include h in
/-- What is refused is refused by a full window, before its lockout is over. -/
theorem refused_run {es : List Attempt} (hes : Timed es) {b : String} {j : Nat} {f : Attempt} (hf : es[j]? = some f)
    (hb : limiter.bucketKey f.key = b) (hrefused : allows limiter es b j = false) :
    ∃ i e, OpenedBy limiter es b j i e ∧ allowedBetween limiter es b i j = limiter.maxAttempts ∧
      f.now < e.now + limiter.total := by
  have hlen := (List.getElem?_eq_some_iff.1 hf).1
  have hnot : (LoginRateLimiter.windowPolicy h).refuses (windowOf h b (es.take j)) f.now ≠ none := by
    rw [Ne, ← allows_iff h hes hf hb, hrefused]
    exact Bool.false_ne_true
  rcases next_cases (p := LoginRateLimiter.windowPolicy h) (windowOf h b (es.take j)) f.now with
    ⟨v, hv, hfull, hlocked, -, -⟩ | ⟨-, -, -, -, hnone, -⟩ | ⟨-, hnone, -⟩
  · obtain ⟨i, e, hopened, rfl⟩ := openedBy_of_windowOf h hes (Nat.le_of_lt hlen) hv
    exact ⟨i, e, hopened, Nat.le_antisymm (count_windowOf_le h b _ _ hv) hfull, hlocked⟩
  · exact absurd hnone hnot
  · exact absurd hnone hnot

theorem bucketKey_of_variant {e e' : Attempt} (hvariant : Variant limiter e e') :
    limiter.bucketKey e'.key = limiter.bucketKey e.key := by
  obtain ⟨before, text, after, hbefore, hafter, hkey, hlower⟩ := hvariant.key
  unfold LoginRateLimiter.bucketKey
  rw [hkey, trim_append hbefore hafter, hlower]

/-- Attempts under variants of their keys are answered alike. -/
theorem variants_run {es es' : List Attempt} (hvariants : List.Forall₂ (Variant limiter) es es') :
    ∀ s, (limiterMachine limiter).outs s es' = (limiterMachine limiter).outs s es := by
  induction hvariants with
  | nil => exact fun _ => rfl
  | @cons e e' es es' hvariant _ ih =>
    intro s
    have hcheck : limiter.checkAndRecordFailure s.entries e'.key e'.now =
        limiter.checkAndRecordFailure s.entries e.key e.now := by
      rw [hvariant.now]
      exact LoginRateLimiter.check_of_bucketKey limiter (bucketKey_of_variant hvariant) s.entries e.now
    have hstep : (limiterMachine limiter).step s e' = (limiterMachine limiter).step s e := by
      change LimiterState.mk (limiter.checkAndRecordFailure s.entries e'.key e'.now).1 e'.now = ⟨_, e.now⟩
      rw [hcheck, hvariant.now]
    have hout : (limiterMachine limiter).out s e' = (limiterMachine limiter).out s e := congrArg Prod.snd hcheck
    rw [Machine.outs, Machine.outs, hout, hstep, ih]

/-- **A lockout cannot be evaded**, with any keys and at any times. -/
theorem lockoutHolds (limiter : LoginRateLimiter) (h : limiter.Counts) (es : List Attempt) (hes : Timed es) :
    LockoutHolds limiter es where
  opened _ _ _ hf hallows := opened_run h hes hf hallows
  apart _ _ _ _ _ he hf hi hj hij := apart_run h hes he hf hi hj hij
  perWindow _ _ _ hopens hnone := allowedBetween_le h hes hopens hnone
  locked _ _ _ _ hopens he hnone hfull _ _ hnj hf hb hover := locked_run h hes hopens he hnone hfull hnj hf hb hover
  refused _ _ _ hf hb hrefused := refused_run h hes hf hb hrefused
  others b := others_run h b hes
  variants _ hvariants := variants_run hvariants .start

end Runs

/-! ## A bucket that locks -/

/-- Two attempts in ten seconds, and a lockout of twenty. -/
def testLimiter : LoginRateLimiter := ⟨2, 10, 20, true, asciiLowercase⟩

/-- The third attempt on one name is refused, and the one at the end of the lockout allowed. -/
def testAttempts : List Attempt :=
  [⟨0, "Ann"⟩, ⟨10 ^ 9, "bob"⟩, ⟨2 * 10 ^ 9, " ann"⟩, ⟨29 * 10 ^ 9, "ANN "⟩, ⟨30 * 10 ^ 9, "ann"⟩]

example : (limiterMachine testLimiter).outs .start testAttempts =
    [.ok (), .ok (), .ok (), .error (.validation "too many login attempts, try again in 1 seconds"), .ok ()] := by
  decide +kernel

theorem lockoutHolds_testAttempts : LockoutHolds testLimiter testAttempts :=
  lockoutHolds testLimiter ⟨rfl, by decide, by decide⟩ testAttempts (by unfold Timed testAttempts; decide)

end Service
end Kirino
