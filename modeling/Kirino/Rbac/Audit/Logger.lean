import Kirino.Lib.Threads
import Kirino.Rbac.Audit.Engine
/-!
# Logger — a decision recorded, evaluated and announced (`rbac/audit.rs`)

A call of `log` hands the entry to the sink, asks the policy engine, and runs every hook for every alert while it holds
the hooks' lock for reading; a registration waits until no call holds it.  In any interleaving of calls and registrations
a call that returns has handed each of its alerts to the hooks once, in order, among them every hook that was registered
when the call was made, whichever of them panic; and no hook ran before the entry was in the sink (`log_delivers`).  What
the engine answers and whether a hook panics at its run are inputs of the steps.
-/
namespace Kirino
namespace Rbac
namespace Audit

open Lib (Machine Pool PoolEvent Program)

/-- One run of a hook, made by the numbered call, and whether it panicked. -/
structure Delivery (H : Type) where
  call : Nat
  hook : H
  alert : AuditAlert
  panicked : Bool

/-- What a step is given: what the engine answers, nothing without an engine, and whether the hook that runs panics. -/
structure LogInput where
  fired : List AuditAlert
  panics : Bool

/-- The entries handed to the sink, the hooks and the readers of their lock, the runs of the hooks, and the names of the
rules for which a panic was reported. -/
structure LoggerState (H : Type) where
  appended : List AuditEntry
  hooks : List H
  readers : Nat
  delivered : List (Delivery H)
  reported : List String

/-- A call of `log`, named by what it does next; `dispatch` has the alerts left, the first of them with the hooks left. -/
inductive LogCall (H : Type) where
  | append (entry : AuditEntry)
  | evaluate (entry : AuditEntry)
  | lockHooks (entry : AuditEntry) (fired : List AuditAlert)
  | dispatch (entry : AuditEntry) (fired alerts : List AuditAlert) (hooks : List H)
  | returned (entry : AuditEntry) (alerts : List AuditAlert)
deriving DecidableEq

inductive LoggerOp (H : Type) where
  | onAlert (hook : H)
  | append (entry : AuditEntry)

section Steps
variable {H : Type}

/-- The hook runs; a panic is caught and reported. -/
def LoggerState.deliver (w : LoggerState H) (call : Nat) (hook : H) (alert : AuditAlert) (panicked : Bool) :
    LoggerState H :=
  { w with
    delivered := w.delivered ++ [⟨call, hook, alert, panicked⟩]
    reported := if panicked then w.reported ++ [alert.ruleName] else w.reported }

def LogCall.next (i : Nat) (input : LogInput) (w : LoggerState H) :
    LogCall H → LoggerState H × LogCall H × Option (List AuditAlert)
  | append entry => ({ w with appended := w.appended ++ [entry] }, .evaluate entry, none)
  | evaluate entry =>
    if input.fired = [] then (w, .returned entry [], some []) else (w, .lockHooks entry input.fired, none)
  | lockHooks entry fired => ({ w with readers := w.readers + 1 }, .dispatch entry fired fired w.hooks, none)
  | dispatch entry fired (alert :: alerts) (hook :: hooks) =>
    (w.deliver i hook alert input.panics, .dispatch entry fired (alert :: alerts) hooks, none)
  | dispatch entry fired (_ :: alerts) [] => (w, .dispatch entry fired alerts w.hooks, none)
  | dispatch entry fired [] _ => ({ w with readers := w.readers - 1 }, .returned entry fired, some fired)
  | returned entry alerts => (w, .returned entry alerts, none)

/-- A registration waits while the lock is held. -/
def LoggerOp.perform (w : LoggerState H) : LoggerOp H → LoggerState H
  | onAlert hook => if w.readers = 0 then { w with hooks := w.hooks ++ [hook] } else w
  | append entry => { w with appended := w.appended ++ [entry] }

def loggerProgram : Program (LoggerState H) (LogCall H) LogInput (LoggerOp H) (Option (List AuditAlert)) where
  next i input w call := call.next i input w
  env op w := (op.perform w, none)
  idle := none

/-- A call of `log` begins, a call in flight takes its next step, or something else happens. -/
inductive LoggerEvent (H : Type) where
  | log (entry : AuditEntry)
  | step (call : Nat) (input : LogInput)
  | env (op : LoggerOp H)

def LoggerEvent.inPool : LoggerEvent H → PoolEvent (LogCall H) LogInput (LoggerOp H)
  | log entry => .spawn (.append entry)
  | step call input => .step call input
  | env op => .env op

abbrev LoggerPool (H : Type) := Pool (LoggerState H) (LogCall H)

def loggerMachine : Machine (LoggerPool H) (LoggerEvent H) (Option (List AuditAlert)) where
  step p event := loggerProgram.machine.step p event.inPool
  out p event := loggerProgram.machine.out p event.inPool

/-- A logger as it is built. -/
def newLogger : LoggerPool H := ⟨⟨[], [], 0, [], []⟩, []⟩

end Steps

/-! ## What a run of hooks amounts to -/

section Deliveries
variable {H : Type}

/-- The runs of the hooks that the call made. -/
def LoggerState.deliveriesOf (w : LoggerState H) (call : Nat) : List (H × AuditAlert) :=
  (w.delivered.filter (fun d => decide (d.call = call))).map (fun d => (d.hook, d.alert))

/-- Every hook for every alert, alert by alert. -/
def announced (hooks : List H) (alerts : List AuditAlert) : List (H × AuditAlert) :=
  alerts.flatMap (fun alert => hooks.map (fun hook => (hook, alert)))

/-- What is left to run, where the first alert has the hooks left and each other one has all. -/
def toSend (all : List H) : List AuditAlert → List H → List (H × AuditAlert)
  | [], _ => []
  | alert :: alerts, hooks => hooks.map (fun hook => (hook, alert)) ++ announced all alerts

theorem toSend_all (all : List H) (alerts : List AuditAlert) : toSend all alerts all = announced all alerts := by
  cases alerts <;> rfl

theorem toSend_nil (all : List H) (alert : AuditAlert) (alerts : List AuditAlert) :
    toSend all (alert :: alerts) [] = toSend all alerts all := by
  rw [toSend_all]
  rfl

theorem deliveriesOf_deliver (w : LoggerState H) (i j : Nat) (hook : H) (alert : AuditAlert) (panicked : Bool) :
    (w.deliver i hook alert panicked).deliveriesOf j =
      if i = j then w.deliveriesOf j ++ [(hook, alert)] else w.deliveriesOf j := by
  unfold LoggerState.deliveriesOf LoggerState.deliver
  by_cases h : i = j <;> simp [List.filter_append, h]

end Deliveries

/-! ## What every pool keeps -/

section Invariants
variable {H : Type} {p : LoggerPool H} {i m : Nat} {entry : AuditEntry}

/-- The call holds the hooks' lock. -/
def LogCall.holds : LogCall H → Bool
  | .dispatch _ _ _ _ => true
  | _ => false

/-- The readers are the calls that run hooks, each run was made by a call, and each panic is reported. -/
structure Kept (p : LoggerPool H) : Prop where
  readers : p.shared.readers = p.threads.countP LogCall.holds
  calls : ∀ d ∈ p.shared.delivered, d.call < p.threads.length
  reported : p.shared.reported =
    (p.shared.delivered.filter Delivery.panicked).map (fun d => d.alert.ruleName)

theorem countP_holds_set {l : List (LogCall H)} {call : LogCall H} (hcall : l[i]? = some call) (call' : LogCall H) :
    (l.set i call').countP LogCall.holds + call.holds.toNat = l.countP LogCall.holds + call'.holds.toNat := by
  obtain ⟨hi, hget⟩ := List.getElem?_eq_some_iff.1 hcall
  have hpos : call.holds = true → 0 < l.countP LogCall.holds := fun hholds =>
    List.countP_pos_iff.2 ⟨call, List.mem_of_getElem? hcall, hholds⟩
  rw [List.countP_set hi, hget]
  cases hholds : call.holds with
  | true =>
    have hone := hpos hholds
    cases call'.holds <;> simp <;> omega
  | false => cases call'.holds <;> simp

/-- What a step of call `i` does to the logger: it records an entry, takes the lock or gives it back, runs a hook, or does
nothing; and it holds the lock afterwards as long as it has hooks to run. -/
inductive LogEffect (i : Nat) (w : LoggerState H) (call : LogCall H) :
    LoggerState H → LogCall H → Prop where
  | quiet (call' : LogCall H) (hholds : call'.holds = call.holds) : LogEffect i w call w call'
  | recorded (entry : AuditEntry) (hcall : call = .append entry) :
    LogEffect i w call { w with appended := w.appended ++ [entry] } (.evaluate entry)
  | locked (entry : AuditEntry) (fired : List AuditAlert) (hcall : call = .lockHooks entry fired) :
    LogEffect i w call { w with readers := w.readers + 1 } (.dispatch entry fired fired w.hooks)
  | ran (entry : AuditEntry) (fired alerts : List AuditAlert) (alert : AuditAlert) (hook : H) (hooks : List H)
      (panicked : Bool) (hcall : call = .dispatch entry fired (alert :: alerts) (hook :: hooks)) :
    LogEffect i w call (w.deliver i hook alert panicked) (.dispatch entry fired (alert :: alerts) hooks)
  | unlocked (entry : AuditEntry) (fired : List AuditAlert) (hooks : List H) (hcall : call = .dispatch entry fired [] hooks) :
    LogEffect i w call { w with readers := w.readers - 1 } (.returned entry fired)

theorem log_effect (i : Nat) (input : LogInput) (w : LoggerState H) (call : LogCall H) :
    LogEffect i w call (call.next i input w).1 (call.next i input w).2.1 := by
  cases call with
  | append entry => exact .recorded entry rfl
  | evaluate entry =>
    have hnext : (LogCall.evaluate entry).next i input w =
        if input.fired = [] then (w, .returned entry [], some []) else (w, .lockHooks entry input.fired, none) := rfl
    rw [hnext]
    split <;> exact .quiet _ rfl
  | lockHooks entry fired => exact .locked entry fired rfl
  | dispatch entry fired alerts hooks =>
    cases alerts with
    | nil => exact .unlocked entry fired hooks rfl
    | cons alert alerts =>
      cases hooks with
      | nil => exact .quiet _ rfl
      | cons hook hooks => exact .ran entry fired alerts alert hook hooks input.panics rfl
  | returned entry alerts => exact .quiet _ rfl

theorem kept_next (h : Kept p) {call : LogCall H} (hcall : p.threads[i]? = some call) (input : LogInput) :
    Kept ⟨(call.next i input p.shared).1, p.threads.set i (call.next i input p.shared).2.1⟩ := by
  have hi : i < p.threads.length := (List.getElem?_eq_some_iff.1 hcall).1
  have heffect := log_effect i input p.shared call
  generalize (call.next i input p.shared).1 = w' at heffect
  generalize (call.next i input p.shared).2.1 = call' at heffect
  have hcount := countP_holds_set hcall call'
  have hreaders := h.readers
  have hcalls : ∀ d ∈ p.shared.delivered, d.call < (p.threads.set i call').length := fun d hd => by
    rw [List.length_set]
    exact h.calls d hd
  cases heffect with
  | quiet _ hholds =>
    rw [hholds] at hcount
    exact ⟨by dsimp only; omega, hcalls, h.reported⟩
  | recorded entry hcall' =>
    subst hcall'
    exact ⟨by dsimp only [LogCall.holds, Bool.toNat] at hcount ⊢; omega, hcalls, h.reported⟩
  | locked entry fired hcall' =>
    subst hcall'
    exact ⟨by dsimp only [LogCall.holds, Bool.toNat, cond] at hcount ⊢; omega, hcalls, h.reported⟩
  | ran entry fired alerts alert hook hooks panicked hcall' =>
    subst hcall'
    refine ⟨by dsimp only [LogCall.holds, LoggerState.deliver] at hcount ⊢; omega, fun d hd => ?_, ?_⟩
    · rcases List.mem_append.1 hd with hd | hd
      · exact hcalls d hd
      · rw [List.mem_singleton.1 hd, List.length_set]
        exact hi
    · unfold LoggerState.deliver
      dsimp only
      rw [h.reported, List.filter_append, List.map_append]
      cases panicked <;> simp
  | unlocked entry fired hooks hcall' =>
    subst hcall'
    exact ⟨by dsimp only [LogCall.holds, Bool.toNat, cond] at hcount ⊢; omega, hcalls, h.reported⟩

theorem kept_step (h : Kept p) (event : LoggerEvent H) : Kept (loggerMachine.step p event) := by
  cases event with
  | log entry =>
    refine ⟨?_, fun d hd => ?_, h.reported⟩
    · show p.shared.readers = (p.threads ++ [LogCall.append entry]).countP LogCall.holds
      rw [List.countP_append, h.readers]
      rfl
    · show d.call < (p.threads ++ [LogCall.append entry]).length
      rw [List.length_append]
      exact Nat.lt_add_right _ (h.calls d hd)
  | step i input =>
    show Kept (loggerProgram.machine.step p (.step i input))
    cases hcall : p.threads[i]? with
    | none =>
      rw [(loggerProgram.machine_step_none hcall input).1]
      exact h
    | some call =>
      rw [(loggerProgram.machine_step hcall input).1]
      exact kept_next h hcall input
  | env op =>
    cases op with
    | onAlert hook =>
      show Kept ⟨if p.shared.readers = 0 then { p.shared with hooks := p.shared.hooks ++ [hook] } else p.shared,
        p.threads⟩
      split
      · exact ⟨h.readers, h.calls, h.reported⟩
      · exact h
    | append entry => exact ⟨h.readers, h.calls, h.reported⟩

theorem kept_run (events : List (LoggerEvent H)) : Kept (loggerMachine.run newLogger events) := by
  have hnew : Kept (newLogger : LoggerPool H) := ⟨rfl, fun d hd => (by cases hd), rfl⟩
  exact loggerMachine.run_invariant (fun _ _ => True) (Kept) (fun _ event h _ => kept_step h event)
    newLogger events hnew (loggerMachine.along_of_forall _ _ _ (fun _ _ _ => trivial))

/-! ## What one call does -/

/-- What is known of the call of the entry, made with `m` hooks registered, and of the hooks it has run. -/
def LogCall.Facts (entry : AuditEntry) (m : Nat) (w : LoggerState H) (sent : List (H × AuditAlert)) : LogCall H → Prop
  | .append e => e = entry ∧ sent = []
  | .evaluate e => e = entry ∧ entry ∈ w.appended ∧ sent = []
  | .lockHooks e _ => e = entry ∧ entry ∈ w.appended ∧ sent = []
  | .dispatch e fired alerts hooks =>
    e = entry ∧ entry ∈ w.appended ∧ sent ++ toSend w.hooks alerts hooks = announced w.hooks fired
  | .returned e alerts => e = entry ∧ entry ∈ w.appended ∧
    ∃ n, m ≤ n ∧ n ≤ w.hooks.length ∧ sent = announced (w.hooks.take n) alerts

/-- The call `i` of the entry, made with `m` hooks registered, is at its place. -/
structure Follows (entry : AuditEntry) (i m : Nat) (p : LoggerPool H) : Prop where
  hooks : m ≤ p.shared.hooks.length
  call : ∃ call, p.threads[i]? = some call ∧ call.Facts entry m p.shared (p.shared.deliveriesOf i)

/-- More entries, and more hooks while no call runs any, leave what is known of a call. -/
theorem facts_mono {w w' : LoggerState H} {sent : List (H × AuditAlert)} {call : LogCall H}
    (h : call.Facts entry m w sent) (happended : w.appended ⊆ w'.appended)
    (hhooks : w'.hooks = w.hooks ∨ call.holds = false ∧ ∃ hook, w'.hooks = w.hooks ++ [hook]) :
    call.Facts entry m w' sent := by
  cases call with
  | append e => exact h
  | evaluate e => exact ⟨h.1, happended h.2.1, h.2.2⟩
  | lockHooks e fired => exact ⟨h.1, happended h.2.1, h.2.2⟩
  | dispatch e fired alerts hooks =>
    rcases hhooks with heq | ⟨hholds, -⟩
    · obtain ⟨he, hentry, hsent⟩ := h
      exact ⟨he, happended hentry, heq.symm ▸ hsent⟩
    · cases hholds
  | returned e alerts =>
    obtain ⟨he, hentry, n, hm, hn, hsent⟩ := h
    refine ⟨he, happended hentry, n, hm, ?_, ?_⟩
    · rcases hhooks with heq | ⟨-, hook, heq⟩ <;> rw [heq]
      · exact hn
      · rw [List.length_append]
        exact Nat.le_add_right_of_le hn
    · rcases hhooks with heq | ⟨-, hook, heq⟩ <;> rw [heq]
      · exact hsent
      · rw [List.take_append_of_le_length hn]
        exact hsent

/-- **A step of the call itself**, from what is known of it to what is known of it next. -/
theorem facts_next {w : LoggerState H} {call : LogCall H} (hm : m ≤ w.hooks.length)
    (h : call.Facts entry m w (w.deliveriesOf i)) (input : LogInput) :
    m ≤ (call.next i input w).1.hooks.length ∧
      (call.next i input w).2.1.Facts entry m (call.next i input w).1 ((call.next i input w).1.deliveriesOf i) := by
  cases call with
  | append e =>
    obtain ⟨rfl, hsent⟩ := h
    exact ⟨hm, rfl, List.mem_append_right _ (List.mem_singleton_self _), hsent⟩
  | evaluate e =>
    have hnext : (LogCall.evaluate e).next i input w =
        if input.fired = [] then (w, .returned e [], some []) else (w, .lockHooks e input.fired, none) := rfl
    rw [hnext]
    split
    · exact ⟨hm, h.1, h.2.1, w.hooks.length, hm, Nat.le_refl _, h.2.2⟩
    · exact ⟨hm, h⟩
  | lockHooks e fired =>
    obtain ⟨he, hentry, hsent⟩ := h
    refine ⟨hm, he, hentry, ?_⟩
    show w.deliveriesOf i ++ toSend w.hooks fired w.hooks = announced w.hooks fired
    rw [hsent, toSend_all, List.nil_append]
  | dispatch e fired alerts hooks =>
    obtain ⟨he, hentry, hsent⟩ := h
    cases alerts with
    | nil =>
      refine ⟨hm, he, hentry, w.hooks.length, hm, Nat.le_refl _, ?_⟩
      show w.deliveriesOf i = announced (w.hooks.take w.hooks.length) fired
      rw [List.take_length, ← hsent, toSend, List.append_nil]
    | cons alert alerts =>
      cases hooks with
      | nil =>
        refine ⟨hm, he, hentry, ?_⟩
        show w.deliveriesOf i ++ toSend w.hooks alerts w.hooks = announced w.hooks fired
        rw [← hsent, toSend_nil]
      | cons hook hooks =>
        refine ⟨hm, he, hentry, ?_⟩
        show (w.deliver i hook alert input.panics).deliveriesOf i ++ toSend w.hooks (alert :: alerts) hooks =
          announced w.hooks fired
        rw [deliveriesOf_deliver, if_pos rfl, ← hsent, toSend, toSend, List.map_cons, List.append_assoc]
        rfl
  | returned e alerts => exact ⟨hm, h⟩

/-- What a step of another call leaves alone. -/
theorem effect_frame {w w' : LoggerState H} {call call' : LogCall H} {j : Nat} (h : LogEffect j w call w' call')
    (hji : j ≠ i) : w'.hooks = w.hooks ∧ w.appended ⊆ w'.appended ∧ w'.deliveriesOf i = w.deliveriesOf i := by
  cases h with
  | quiet _ _ => exact ⟨rfl, List.Subset.refl _, rfl⟩
  | recorded e _ => exact ⟨rfl, List.subset_append_left _ _, rfl⟩
  | locked _ _ _ => exact ⟨rfl, List.Subset.refl _, rfl⟩
  | ran _ _ _ alert hook _ _ =>
    refine ⟨rfl, List.Subset.refl _, ?_⟩
    rw [deliveriesOf_deliver, if_neg hji]
  | unlocked _ _ _ _ => exact ⟨rfl, List.Subset.refl _, rfl⟩

theorem follows_step (hkept : Kept p) (h : Follows entry i m p) (event : LoggerEvent H) :
    Follows entry i m (loggerMachine.step p event) := by
  obtain ⟨hm, call, hcall, hfacts⟩ := h
  cases event with
  | log e =>
    refine ⟨hm, call, ?_, hfacts⟩
    exact (List.getElem?_append_left (List.getElem?_eq_some_iff.1 hcall).1).trans hcall
  | step j input =>
    show Follows entry i m (loggerProgram.machine.step p (.step j input))
    cases hj : p.threads[j]? with
    | none =>
      rw [(loggerProgram.machine_step_none hj input).1]
      exact ⟨hm, call, hcall, hfacts⟩
    | some call' =>
      rw [(loggerProgram.machine_step hj input).1]
      by_cases hji : j = i
      · subst hji
        obtain rfl := Option.some.inj (hj.symm.trans hcall)
        obtain ⟨hm', hfacts'⟩ := facts_next hm hfacts input
        exact ⟨hm', _, List.getElem?_set_self (List.getElem?_eq_some_iff.1 hj).1, hfacts'⟩
      · obtain ⟨hhooks, happended, hdeliveries⟩ := effect_frame (log_effect j input p.shared call') hji
        refine ⟨hm.trans (Nat.le_of_eq (congrArg List.length hhooks.symm)), call, ?_, ?_⟩
        · exact (List.getElem?_set_ne hji).trans hcall
        · refine facts_mono ?_ happended (Or.inl hhooks)
          exact hdeliveries.symm ▸ hfacts
  | env op =>
    cases op with
    | append e => exact ⟨hm, call, hcall, facts_mono hfacts (List.subset_append_left _ _) (Or.inl rfl)⟩
    | onAlert hook =>
      show Follows entry i m ⟨if p.shared.readers = 0 then { p.shared with hooks := p.shared.hooks ++ [hook] } else p.shared,
        p.threads⟩
      split
      · rename_i hfree
        -- with no reader this call runs no hooks, so that it may not miss the new one
        have hholds : call.holds = false := by
          by_contra hnot
          have hpos : 0 < p.threads.countP LogCall.holds :=
            List.countP_pos_iff.2 ⟨call, List.mem_of_getElem? hcall, Bool.eq_true_of_not_eq_false hnot⟩
          have hreaders := hkept.readers
          omega
        refine ⟨?_, call, hcall, facts_mono hfacts (List.Subset.refl _) (Or.inr ⟨hholds, hook, rfl⟩)⟩
        show m ≤ (p.shared.hooks ++ [hook]).length
        rw [List.length_append]
        exact Nat.le_add_right_of_le hm
      · exact ⟨hm, call, hcall, hfacts⟩

end Invariants

/-- The number of the call that event `k` makes. -/
def callAt {H : Type} (events : List (LoggerEvent H)) (k : Nat) : Nat :=
  (Program.spawned ((events.take k).map LoggerEvent.inPool)).length

section Main
variable {H : Type}

theorem run_inPool (p : LoggerPool H) (events : List (LoggerEvent H)) :
    loggerMachine.run p events = loggerProgram.machine.run p (events.map LoggerEvent.inPool) := by
  unfold Machine.run
  rw [List.foldl_map]
  rfl

/-- The call of the entry, as it is made. -/
theorem follows_log {p : LoggerPool H} (hkept : Kept p) (entry : AuditEntry) :
    Follows entry p.threads.length p.shared.hooks.length (loggerMachine.step p (.log entry)) := by
  refine ⟨Nat.le_refl _, .append entry, List.getElem?_concat_length, rfl, ?_⟩
  show p.shared.deliveriesOf p.threads.length = []
  unfold LoggerState.deliveriesOf
  rw [List.map_eq_nil_iff, List.filter_eq_nil_iff]
  intro d hd
  have hlt := hkept.calls d hd
  simp only [decide_eq_true_eq]
  omega

/-- **Alerts reach the hooks once and in order**: in any interleaving, a call whose entry reached a hook has handed the
entry to the sink, and one that returned alerts has run every hook registered when it was made, and those of the hooks
registered meanwhile that it found, for each of the alerts, once and in order; every panic of a hook is reported. -/
theorem log_delivers (events : List (LoggerEvent H)) (k : Nat) (entry : AuditEntry)
    (hk : events[k]? = some (.log entry)) :
    let before := loggerMachine.run newLogger (events.take k)
    let after := loggerMachine.run newLogger events
    (after.shared.deliveriesOf (callAt events k) ≠ [] → entry ∈ after.shared.appended) ∧
      (∀ e alerts, after.threads[callAt events k]? = some (.returned e alerts) →
        entry ∈ after.shared.appended ∧ ∃ n, before.shared.hooks.length ≤ n ∧ n ≤ after.shared.hooks.length ∧
          after.shared.deliveriesOf (callAt events k) = announced (after.shared.hooks.take n) alerts) ∧
      after.shared.reported =
        (after.shared.delivered.filter Delivery.panicked).map (fun d => d.alert.ruleName) := by
  intro before after
  have hcall : callAt events k = before.threads.length := by
    unfold callAt
    rw [← loggerProgram.length_threads_run ⟨[], [], 0, [], []⟩]
    exact congrArg (fun p => p.threads.length) (run_inPool newLogger (events.take k)).symm
  have hkept : ∀ q, Kept (loggerMachine.run newLogger (events.take q)) := fun q => kept_run (events.take q)
  have hstart : Follows entry before.threads.length before.shared.hooks.length
      (loggerMachine.run newLogger (events.take (k + 1))) := by
    rw [loggerMachine.run_take_succ newLogger hk]
    exact follows_log (hkept k) entry
  have hlt : k < events.length := (List.getElem?_eq_some_iff.1 hk).1
  have hfollows := loggerMachine.run_invariant_between
    (Follows entry before.threads.length before.shared.hooks.length) newLogger events (Nat.succ_le_of_lt hlt) hstart
    (fun q event _ _ _ h => follows_step (hkept q) h event)
  rw [List.take_length] at hfollows
  obtain ⟨-, call, hthread, hfacts⟩ := hfollows
  rw [hcall]
  refine ⟨fun hsent => ?_, fun e alerts hreturned => ?_, (kept_run events).reported⟩
  · cases call with
    | append e => exact absurd hfacts.2 hsent
    | returned e alerts => exact hfacts.2.1
    | evaluate e => exact hfacts.2.1
    | lockHooks e fired => exact hfacts.2.1
    | dispatch e fired alerts hooks => exact hfacts.2.1
  · obtain rfl := Option.some.inj (hthread.symm.trans hreturned)
    exact ⟨hfacts.2.1, hfacts.2.2⟩

end Main

def deniedAlert : AuditAlert := ⟨"r1", "denials", .notify "ops" "denied", aliceEntry, 5⟩

/-- Two hooks, the first of which panics, one decision and one alert. -/
def announcedRun : List (LoggerEvent Nat) :=
  [.env (.onAlert 0), .env (.onAlert 1), .log aliceEntry, .step 0 ⟨[], false⟩, .step 0 ⟨[deniedAlert], false⟩,
    .step 0 ⟨[], false⟩, .step 0 ⟨[], true⟩, .step 0 ⟨[], false⟩, .step 0 ⟨[], false⟩, .step 0 ⟨[], false⟩]

def announcedPool : LoggerPool Nat := loggerMachine.run newLogger announcedRun

theorem log_delivers_both : aliceEntry ∈ announcedPool.shared.appended ∧
    ∃ n, n ≤ announcedPool.shared.hooks.length ∧ announcedPool.shared.deliveriesOf (callAt announcedRun 2) =
      announced (announcedPool.shared.hooks.take n) [deniedAlert] := by
  have hthread : announcedPool.threads[callAt announcedRun 2]? = some (.returned aliceEntry [deniedAlert]) := by
    decide +kernel
  obtain ⟨hentry, n, -, hn, hsent⟩ :=
    (log_delivers announcedRun 2 aliceEntry rfl).2.1 aliceEntry [deniedAlert] hthread
  exact ⟨hentry, n, hn, hsent⟩

end Audit
end Rbac
end Kirino
