import Kirino.Lib.Entries
import Kirino.Rbac.ConstraintValidator
/-!
# ConstraintStore — constraints added and removed (`rbac/constraints/store.rs`)

The store keeps the constraints of each kind in a vector.  An addition is refused when one of the same key is there; the
key is the policy's name, the role of a cardinality, the role and what it requires, the role and both ends of a window.
After any calls a constraint is in force exactly when one of them added it and none removed it since, and the gate before
an assignment checks exactly the constraints in force (`validateAssignment_run`).
-/
namespace Kirino
namespace Rbac

open Lib (Machine)
open Lib.Entries (Edit Enters Leaves)

inductive ConstraintCall where
  | addSsdPolicy (policy : SsdPolicy)
  | removeSsdPolicy (name : String)
  | addDsdPolicy (policy : DsdPolicy)
  | removeDsdPolicy (name : String)
  | addCardinalityConstraint (constraint : CardinalityConstraint)
  | removeCardinalityConstraint (roleName : String)
  | addPrerequisiteConstraint (constraint : PrerequisiteConstraint)
  | removePrerequisiteConstraint (roleName : String)
  | removePrerequisiteConstraintFor (roleName requires : String)
  | addTemporalConstraint (constraint : TemporalConstraint)
  | removeTemporalConstraint (roleName : String)
  | removeTemporalConstraintFor (roleName : String) (validFrom validUntil : Int)

inductive ConstraintAnswer where
  | added (result : Except String Unit)
  | removed (answer : Bool)

namespace InMemoryConstraintLists

def new : InMemoryConstraintLists := ⟨⟨[]⟩, [], [], [], []⟩

section Vectors
variable {α : Type}

/-- An addition to a vector, with the text of its refusal. -/
def addTo (clashes : α → Bool) (message : String) (l : List α) (entry : α) : List α × ConstraintAnswer :=
  if l.any clashes then (l, .added (.error message)) else (l ++ [entry], .added (.ok ()))

/-- A removal from a vector. -/
def removeFrom (gone : α → Bool) (l : List α) : List α × ConstraintAnswer :=
  let kept := l.filter (fun c => !gone c)
  (kept, .removed (decide (kept.length < l.length)))

end Vectors

variable (store : InMemoryConstraintLists)

def setSsdPolicies (r : List SsdPolicy × ConstraintAnswer) : InMemoryConstraintLists × ConstraintAnswer :=
  ({ store with ssdPolicies := r.1 }, r.2)

def setDsdPolicies (r : List DsdPolicy × ConstraintAnswer) : InMemoryConstraintLists × ConstraintAnswer :=
  ({ store with dsdPolicies := r.1 }, r.2)

def setCardinality (r : List CardinalityConstraint × ConstraintAnswer) : InMemoryConstraintLists × ConstraintAnswer :=
  ({ store with cardinality := r.1 }, r.2)

def setPrerequisites (r : List PrerequisiteConstraint × ConstraintAnswer) : InMemoryConstraintLists × ConstraintAnswer :=
  ({ store with prerequisites := r.1 }, r.2)

def setTemporal (r : List TemporalConstraint × ConstraintAnswer) : InMemoryConstraintLists × ConstraintAnswer :=
  ({ store with temporal := r.1 }, r.2)

def addSsdPolicy (policy : SsdPolicy) : InMemoryConstraintLists × ConstraintAnswer :=
  store.setSsdPolicies (addTo (fun p => decide (p.name = policy.name))
    s!"SSD policy with name '{policy.name}' already exists" store.ssdPolicies policy)

def removeSsdPolicy (name : String) : InMemoryConstraintLists × ConstraintAnswer :=
  store.setSsdPolicies (removeFrom (fun p => decide (p.name = name)) store.ssdPolicies)

def addDsdPolicy (policy : DsdPolicy) : InMemoryConstraintLists × ConstraintAnswer :=
  store.setDsdPolicies (addTo (fun p => decide (p.name = policy.name))
    s!"DSD policy with name '{policy.name}' already exists" store.dsdPolicies policy)

def removeDsdPolicy (name : String) : InMemoryConstraintLists × ConstraintAnswer :=
  store.setDsdPolicies (removeFrom (fun p => decide (p.name = name)) store.dsdPolicies)

def addCardinalityConstraint (constraint : CardinalityConstraint) : InMemoryConstraintLists × ConstraintAnswer :=
  store.setCardinality (addTo (fun c => decide (c.roleName = constraint.roleName))
    s!"cardinality constraint for role '{constraint.roleName}' already exists" store.cardinality constraint)

def removeCardinalityConstraint (roleName : String) : InMemoryConstraintLists × ConstraintAnswer :=
  store.setCardinality (removeFrom (fun c => decide (c.roleName = roleName)) store.cardinality)

def addPrerequisiteConstraint (constraint : PrerequisiteConstraint) : InMemoryConstraintLists × ConstraintAnswer :=
  store.setPrerequisites (addTo
    (fun c => decide (c.roleName = constraint.roleName) && decide (c.requires = constraint.requires))
    s!"prerequisite constraint for role '{constraint.roleName}' requiring '{constraint.requires}' already exists"
    store.prerequisites constraint)

def removePrerequisiteConstraint (roleName : String) : InMemoryConstraintLists × ConstraintAnswer :=
  store.setPrerequisites (removeFrom (fun c => decide (c.roleName = roleName)) store.prerequisites)

def removePrerequisiteConstraintFor (roleName requires : String) : InMemoryConstraintLists × ConstraintAnswer :=
  store.setPrerequisites (removeFrom (fun c => decide (c.roleName = roleName) && decide (c.requires = requires))
    store.prerequisites)

def addTemporalConstraint (constraint : TemporalConstraint) : InMemoryConstraintLists × ConstraintAnswer :=
  store.setTemporal (addTo
    (fun c => decide (c.roleName = constraint.roleName) && decide (c.validFrom = constraint.validFrom) &&
      decide (c.validUntil = constraint.validUntil))
    s!"identical temporal constraint for role '{constraint.roleName}' already exists" store.temporal constraint)

def removeTemporalConstraint (roleName : String) : InMemoryConstraintLists × ConstraintAnswer :=
  store.setTemporal (removeFrom (fun c => decide (c.roleName = roleName)) store.temporal)

def removeTemporalConstraintFor (roleName : String) (validFrom validUntil : Int) :
    InMemoryConstraintLists × ConstraintAnswer :=
  store.setTemporal (removeFrom
    (fun c => decide (c.roleName = roleName) && decide (c.validFrom = validFrom) && decide (c.validUntil = validUntil))
    store.temporal)

def call : ConstraintCall → InMemoryConstraintLists × ConstraintAnswer
  | .addSsdPolicy policy => store.addSsdPolicy policy
  | .removeSsdPolicy name => store.removeSsdPolicy name
  | .addDsdPolicy policy => store.addDsdPolicy policy
  | .removeDsdPolicy name => store.removeDsdPolicy name
  | .addCardinalityConstraint constraint => store.addCardinalityConstraint constraint
  | .removeCardinalityConstraint roleName => store.removeCardinalityConstraint roleName
  | .addPrerequisiteConstraint constraint => store.addPrerequisiteConstraint constraint
  | .removePrerequisiteConstraint roleName => store.removePrerequisiteConstraint roleName
  | .removePrerequisiteConstraintFor roleName requires => store.removePrerequisiteConstraintFor roleName requires
  | .addTemporalConstraint constraint => store.addTemporalConstraint constraint
  | .removeTemporalConstraint roleName => store.removeTemporalConstraint roleName
  | .removeTemporalConstraintFor roleName validFrom validUntil =>
    store.removeTemporalConstraintFor roleName validFrom validUntil

def machine : Machine InMemoryConstraintLists ConstraintCall ConstraintAnswer where
  step store call := (store.call call).1
  out store call := (store.call call).2

end InMemoryConstraintLists

/-! ## Constraints of any kind -/

inductive Constraint where
  | ssd (policy : SsdPolicy)
  | dsd (policy : DsdPolicy)
  | cardinality (constraint : CardinalityConstraint)
  | prerequisite (constraint : PrerequisiteConstraint)
  | temporal (constraint : TemporalConstraint)

namespace Constraint

/-- The constraint stands in the vector of its kind. -/
def In (store : InMemoryConstraintLists) : Constraint → Prop
  | ssd policy => policy ∈ store.ssdPolicies
  | dsd policy => policy ∈ store.dsdPolicies
  | cardinality constraint => constraint ∈ store.cardinality
  | prerequisite constraint => constraint ∈ store.prerequisites
  | temporal constraint => constraint ∈ store.temporal

/-- The call that adds the constraint. -/
def addCall : Constraint → ConstraintCall
  | ssd policy => .addSsdPolicy policy
  | dsd policy => .addDsdPolicy policy
  | cardinality constraint => .addCardinalityConstraint constraint
  | prerequisite constraint => .addPrerequisiteConstraint constraint
  | temporal constraint => .addTemporalConstraint constraint

/-- The call removes the constraint. -/
def RemovedBy : Constraint → ConstraintCall → Prop
  | ssd policy, .removeSsdPolicy name => policy.name = name
  | dsd policy, .removeDsdPolicy name => policy.name = name
  | cardinality constraint, .removeCardinalityConstraint roleName => constraint.roleName = roleName
  | prerequisite constraint, .removePrerequisiteConstraint roleName => constraint.roleName = roleName
  | prerequisite constraint, .removePrerequisiteConstraintFor roleName requires =>
    constraint.roleName = roleName ∧ constraint.requires = requires
  | temporal constraint, .removeTemporalConstraint roleName => constraint.roleName = roleName
  | temporal constraint, .removeTemporalConstraintFor roleName validFrom validUntil =>
    constraint.roleName = roleName ∧ constraint.validFrom = validFrom ∧ constraint.validUntil = validUntil
  | _, _ => False

/-- Two constraints of one kind and one key. -/
def SameKey : Constraint → Constraint → Prop
  | ssd p, ssd q => p.name = q.name
  | dsd p, dsd q => p.name = q.name
  | cardinality c, cardinality d => c.roleName = d.roleName
  | prerequisite c, prerequisite d => c = d
  | temporal c, temporal d => c = d
  | _, _ => False

/-- One of the calls added the constraint, and no later one removed it. -/
def InForce (calls : List ConstraintCall) (c : Constraint) : Prop :=
  ∃ i, calls[i]? = some c.addCall ∧
    (InMemoryConstraintLists.machine.outs .new calls)[i]? = some (ConstraintAnswer.added (.ok ())) ∧
    ∀ (j : Nat) (f : ConstraintCall), i < j → calls[j]? = some f → ¬ c.RemovedBy f

/-! ## Calls over the constraints -/

open InMemoryConstraintLists

section Vectors
variable {α : Type} {clashes gone : α → Bool} {message : String} {l : List α} {entry a : α}

theorem addTo_eq_ok_iff : (addTo clashes message l entry).2 = .added (.ok ()) ↔ ∀ b ∈ l, clashes b = false := by
  unfold addTo
  cases h : l.any clashes with
  | true =>
    obtain ⟨b, hb, hclash⟩ := List.any_eq_true.1 h
    simp only [if_true]
    refine iff_of_false (by simp) (fun hnone => ?_)
    rw [hnone b hb] at hclash
    cases hclash
  | false =>
    refine iff_of_true rfl (fun b hb => Bool.eq_false_iff.2 (fun hc => ?_))
    rw [List.any_eq_true.2 ⟨b, hb, hc⟩] at h
    cases h

theorem mem_addTo : a ∈ (addTo clashes message l entry).1 ↔
    entry = a ∧ (addTo clashes message l entry).2 = .added (.ok ()) ∨ a ∈ l := by
  unfold addTo
  split
  · simp
  · simp only [List.mem_append, List.mem_singleton, and_true, or_comm, eq_comm]

theorem mem_removeFrom : a ∈ (removeFrom gone l).1 ↔ a ∈ l ∧ ¬ gone a = true := by
  simp [removeFrom]

end Vectors

/-- **What a call does to the constraints.** -/
theorem in_step_iff (store : InMemoryConstraintLists) (f : ConstraintCall) (c : Constraint) :
    c.In (machine.step store f) ↔
      (f = c.addCall ∧ machine.out store f = .added (.ok ())) ∨ c.In store ∧ ¬ c.RemovedBy f := by
  cases f <;> cases c <;>
    simp only [machine, call, addSsdPolicy, removeSsdPolicy, addDsdPolicy, removeDsdPolicy, addCardinalityConstraint,
      removeCardinalityConstraint, addPrerequisiteConstraint, removePrerequisiteConstraint,
      removePrerequisiteConstraintFor, addTemporalConstraint, removeTemporalConstraint, removeTemporalConstraintFor,
      setSsdPolicies, setDsdPolicies, setCardinality, setPrerequisites, setTemporal, In, addCall, RemovedBy, mem_addTo,
      mem_removeFrom]
  all_goals simp [and_assoc]

/-- The constraints of one kind, whose key the vector's own test compares. -/
theorem fresh_iff {α : Type} (kind : α → Constraint) {clashes : α → Bool} {l : List α} {store : InMemoryConstraintLists}
    {c : Constraint} (hin : ∀ a, (kind a).In store ↔ a ∈ l) (hkey : ∀ a, (kind a).SameKey c ↔ clashes a = true)
    (hkind : ∀ b : Constraint, b.SameKey c → ∃ a, b = kind a) :
    (∀ a ∈ l, clashes a = false) ↔ ∀ b : Constraint, b.In store → ¬ b.SameKey c := by
  constructor
  · intro hnone b hb hsame
    obtain ⟨a, rfl⟩ := hkind b hsame
    have hclash := (hkey a).1 hsame
    rw [hnone a ((hin a).1 hb)] at hclash
    cases hclash
  · intro hnone a ha
    exact Bool.eq_false_iff.2 (fun hclash => hnone (kind a) ((hin a).2 ha) ((hkey a).2 hclash))

/-- **An addition is accepted exactly when no constraint of its key is there.** -/
theorem added_iff (store : InMemoryConstraintLists) (c : Constraint) :
    machine.out store c.addCall = .added (.ok ()) ↔ ∀ b : Constraint, b.In store → ¬ b.SameKey c := by
  cases c with
  | ssd policy =>
    refine addTo_eq_ok_iff.trans (fresh_iff ssd (fun _ => Iff.rfl) (by simp [SameKey]) (fun b hb => ?_))
    cases b <;> first | exact ⟨_, rfl⟩ | cases hb
  | dsd policy =>
    refine addTo_eq_ok_iff.trans (fresh_iff dsd (fun _ => Iff.rfl) (by simp [SameKey]) (fun b hb => ?_))
    cases b <;> first | exact ⟨_, rfl⟩ | cases hb
  | cardinality constraint =>
    refine addTo_eq_ok_iff.trans (fresh_iff cardinality (fun _ => Iff.rfl) (by simp [SameKey]) (fun b hb => ?_))
    cases b <;> first | exact ⟨_, rfl⟩ | cases hb
  | prerequisite constraint =>
    refine addTo_eq_ok_iff.trans (fresh_iff prerequisite (fun _ => Iff.rfl) (fun a => ?_) (fun b hb => ?_))
    · cases a; cases constraint; simp [SameKey]
    · cases b <;> first | exact ⟨_, rfl⟩ | cases hb
  | temporal constraint =>
    refine addTo_eq_ok_iff.trans (fresh_iff temporal (fun _ => Iff.rfl) (fun a => ?_) (fun b hb => ?_))
    · cases a; cases constraint; simp [SameKey, and_assoc]
    · cases b <;> first | exact ⟨_, rfl⟩ | cases hb

theorem SameKey.symm {b c : Constraint} (h : b.SameKey c) : c.SameKey b := by
  cases b <;> cases c <;> first | exact Eq.symm h | cases h

/-! ## Constraints in force -/

theorem in_run_iff_inForce (calls : List ConstraintCall) (c : Constraint) :
    c.In (machine.run .new calls) ↔ InForce calls c := by
  have hrun := Lib.Entries.in_run_iff (M := machine) (fun store c => Constraint.In store c)
    (fun store f c => f = c.addCall ∧ machine.out store f = .added (.ok ())) (fun f c => c.RemovedBy f)
    in_step_iff .new calls c
  have hnew : ¬ c.In .new := by cases c <;> simp [In, InMemoryConstraintLists.new]
  rw [hrun]
  simp only [hnew, false_and, false_or, InForce]
  constructor
  · rintro ⟨i, f, hi, ⟨rfl, hok⟩, hlater⟩
    exact ⟨i, hi, by rw [Machine.outs_getElem?, hi, Option.map_some, hok], hlater⟩
  · rintro ⟨i, hi, hok, hlater⟩
    exact ⟨i, _, hi, ⟨rfl, machine.out_of_getElem? hi hok⟩, hlater⟩

/-- **No two constraints in force share a key.** -/
theorem inForce_unique {calls : List ConstraintCall} {b c : Constraint} (hb : InForce calls b) (hc : InForce calls c)
    (hsame : b.SameKey c) : b = c := by
  refine Lib.Entries.unique_run (M := machine) (fun store c => Constraint.In store c)
    (fun store f c => f = c.addCall ∧ machine.out store f = .added (.ok ())) (fun f c => c.RemovedBy f) SameKey
    (fun _ _ => SameKey.symm) in_step_iff ?_ ?_ (s := .new) ?_ calls ((in_run_iff_inForce calls b).2 hb)
    ((in_run_iff_inForce calls c).2 hc) hsame
  · rintro store f a b ⟨rfl, -⟩ ⟨hcall, -⟩
    cases a <;> cases b <;> simp_all [addCall]
  · rintro store f a b ⟨rfl, hok⟩ hin hsame
    exact (added_iff store a).1 hok b hin hsame.symm
  · intro c
    cases c <;> simp [In, InMemoryConstraintLists.new]

/-- What the constraint asks of an assignment of the role. -/
def Asks (now : Int) (currentRoles : List String) (newRole : String) (count : Nat) : Constraint → Prop
  | ssd policy => newRole ∉ currentRoles → policy.validate (Multiset.ofList (currentRoles ++ [newRole])) = true
  | dsd _ => True
  | cardinality constraint => constraint.roleName = newRole → count < constraint.maxSubjects
  | prerequisite constraint => constraint.roleName = newRole → constraint.requires ∈ currentRoles
  | temporal constraint => constraint.roleName = newRole → constraint.validFrom ≤ now ∧ now ≤ constraint.validUntil

theorem admits_iff_asks (store : InMemoryConstraintLists) {now : Int} {currentRoles : List String} {newRole : String}
    {count : Nat} : Admits store now currentRoles newRole count ↔
      ∀ c : Constraint, c.In store → c.Asks now currentRoles newRole count := by
  constructor
  · rintro ⟨⟨_, hssd, h1⟩, ⟨_, hcard, h2⟩, ⟨_, hpre, h3⟩, ⟨_, htemp, h4⟩⟩ c hc
    cases hssd
    cases hcard
    cases hpre
    cases htemp
    cases c with
    | ssd policy => exact fun hnew => h1 hnew policy hc
    | dsd policy => trivial
    | cardinality constraint => exact h2 constraint hc
    | prerequisite constraint => exact h3 constraint hc
    | temporal constraint => exact h4 constraint hc
  · intro h
    exact ⟨⟨_, rfl, fun hnew policy hp => h (ssd policy) hp hnew⟩, ⟨_, rfl, fun c hc => h (cardinality c) hc⟩,
      ⟨_, rfl, fun c hc => h (prerequisite c) hc⟩, ⟨_, rfl, fun c hc => h (temporal c) hc⟩⟩

end Constraint

open Constraint InMemoryConstraintLists

/-- **The gate enforces the constraints in force**, over any calls on a new store: an assignment is accepted exactly when
every constraint that was added and not removed since lets it pass, an activation exactly when every such dynamic policy
does; and an addition is accepted exactly when no constraint of its key is in force. -/
theorem validateAssignment_run (calls : List ConstraintCall) (now : Int) (roles : List String) (newRole : String)
    (count : Nat) :
    (validateAssignment (machine.run .new calls) now roles newRole count = .ok () ↔
      ∀ c, InForce calls c → c.Asks now roles newRole count) ∧
    (validateDsd (machine.run .new calls) roles newRole = .ok () ↔
      (newRole ∉ roles → ∀ policy, InForce calls (dsd policy) →
        policy.validate (Multiset.ofList (roles ++ [newRole])) = true)) ∧
    (∀ b c, InForce calls b → InForce calls c → b.SameKey c → b = c) ∧
    ∀ c : Constraint, machine.out (machine.run .new calls) c.addCall = .added (.ok ()) ↔
      ∀ b, InForce calls b → ¬ b.SameKey c := by
  refine ⟨?_, ?_, fun b c => inForce_unique, fun c => ?_⟩
  · rw [validateAssignment_eq_ok_iff, admits_iff_asks]
    exact forall_congr' (fun c => by rw [in_run_iff_inForce])
  · unfold validateDsd
    rw [validateSod_eq_ok_iff]
    have hin : ∀ policy, policy ∈ (machine.run .new calls).dsdPolicies ↔ InForce calls (dsd policy) := fun policy =>
      in_run_iff_inForce calls (dsd policy)
    constructor
    · rintro ⟨_, hlisted, h⟩ hnew policy hp
      cases hlisted
      exact h hnew policy ((hin policy).2 hp)
    · intro h
      exact ⟨_, rfl, fun hnew policy hp => h hnew policy ((hin policy).1 hp)⟩
  · rw [added_iff]
    exact forall_congr' (fun b => by rw [in_run_iff_inForce])

end Rbac
end Kirino
