import Kirino.Lib.Machine
import Kirino.Rbac.ConstraintValidator
import Kirino.Rbac.Store.Memory
/-!
# AssignmentRuns — what the gate keeps, over runs

The caller asks the gate before each assignment, with the roles of the subject and the number of holders as the store has
them, and assigns when it is let; revocations come as they may.  What the gate admits keeps every constraint, and a
revocation only takes holders and roles away.
-/
namespace Kirino
namespace Rbac

open Lib (HashMap Machine)

section Holders
variable {S P : Type} [Subject S]

/-- How many subjects hold the role. -/
def holders (st : InMemoryAssignmentStore S P) (roleName : String) : Nat :=
  st.roleAssignments.count (fun _ roles => decide (roleName ∈ roles))

/-- The row of a subject holds the role, as a number. -/
theorem any_row (st : InMemoryAssignmentStore S P) (s : S) (roleName : String) :
    (st.roleAssignments.get? (subjectId s)).any (fun roles => decide (roleName ∈ roles)) =
      decide (roleName ∈ st.rolesOf s) := by
  unfold InMemoryAssignmentStore.rolesOf
  cases st.roleAssignments.get? (subjectId s) <;> rfl

/-- **An assignment adds one holder of its role at most, and none of another.** -/
theorem holders_assignRole_le (st : InMemoryAssignmentStore S P) (s : S) (newRole roleName : String) :
    holders (st.assignRole s newRole) roleName ≤ holders st roleName + if roleName = newRole then 1 else 0 := by
  have hcount := st.roleAssignments.count_insert (subjectId s) ((st.rolesOf s).insert newRole)
    (fun _ roles => decide (roleName ∈ roles))
  rw [any_row] at hcount
  have hnew : holders (st.assignRole s newRole) roleName =
      (st.roleAssignments.insert (subjectId s) ((st.rolesOf s).insert newRole)).count
        (fun _ roles => decide (roleName ∈ roles)) := rfl
  rw [hnew]
  unfold holders
  by_cases hrole : roleName = newRole
  · have hone : (decide (roleName ∈ (st.rolesOf s).insert newRole)).toNat ≤ 1 := Bool.toNat_le _
    rw [if_pos hrole]
    omega
  · have hsame : decide (roleName ∈ (st.rolesOf s).insert newRole) = decide (roleName ∈ st.rolesOf s) := by
      simp [hrole]
    rw [hsame] at hcount
    rw [if_neg hrole]
    omega

theorem holders_revokeRole_le (st : InMemoryAssignmentStore S P) (s : S) (revoked roleName : String) :
    holders (st.revokeRole s revoked) roleName ≤ holders st roleName := by
  unfold InMemoryAssignmentStore.revokeRole
  cases hroles : st.roleAssignments.get? (subjectId s) with
  | none => exact Nat.le_refl _
  | some roles =>
    have hcount := st.roleAssignments.count_insert (subjectId s) (roles.filter (fun r => decide (r ≠ revoked)))
      (fun _ roles => decide (roleName ∈ roles))
    rw [hroles, Option.any_some] at hcount
    unfold holders
    dsimp only
    by_cases hheld : roleName ∈ roles
    · have hone : (decide (roleName ∈ roles.filter (fun r => decide (r ≠ revoked)))).toNat ≤ 1 := Bool.toNat_le _
      rw [decide_eq_true hheld, Bool.toNat_true] at hcount
      omega
    · have hnone : decide (roleName ∈ roles.filter (fun r => decide (r ≠ revoked))) = false :=
        decide_eq_false (fun h => hheld (List.mem_of_mem_filter h))
      rw [hnone, Bool.toNat_false] at hcount
      omega

end Holders

/-! ## Runs -/

inductive AssignmentEvent (S : Type) where
  | assign (now : Int) (s : S) (roleName : String)
  | revoke (s : S) (roleName : String)

section Runs
variable {C S P E : Type} [ConstraintLists C E] [Subject S]

/-- The gate, asked for an assignment in the state of the store. -/
def askGate (constraints : C) (st : InMemoryAssignmentStore S P) (now : Int) (s : S) (roleName : String) :
    Except (ConstraintError E) Unit :=
  validateAssignment constraints now (st.rolesOf s) roleName (holders st roleName)

/-- An assignment is made when the gate lets it. -/
def assignmentMachine (constraints : C) :
    Machine (InMemoryAssignmentStore S P) (AssignmentEvent S) (Except (ConstraintError E) Unit) where
  step st
    | .assign now s roleName =>
      match askGate constraints st now s roleName with
      | .ok _ => st.assignRole s roleName
      | .error _ => st
    | .revoke s roleName => st.revokeRole s roleName
  out st
    | .assign now s roleName => askGate constraints st now s roleName
    | .revoke _ _ => .ok ()

/-- The store after the first events of a run from the empty store. -/
def assignedAt (P : Type) (constraints : C) (es : List (AssignmentEvent S)) (n : Nat) : InMemoryAssignmentStore S P :=
  (assignmentMachine constraints).run .new (es.take n)

/-- The event is an assignment of the role to a subject of the id, let by the gate. -/
def Grants (constraints : C) (st : InMemoryAssignmentStore S P) (event : AssignmentEvent S) (id roleName : String) : Prop :=
  ∃ now s, event = .assign now s roleName ∧ subjectId s = id ∧ askGate constraints st now s roleName = .ok ()

/-- Every constraint holds at every moment of the run, and every role was assigned with its prerequisites held. -/
structure KeepsConstraints (P : Type) (constraints : C) (es : List (AssignmentEvent S)) : Prop where
  separated : ∀ n s, ((assignedAt P constraints es n).rolesOf s).Nodup ∧
    ∀ policies, listSsdPolicies constraints = .ok policies → ∀ policy ∈ policies,
      policy.validate (Multiset.ofList ((assignedAt P constraints es n).rolesOf s)) = true
  limited : ∀ n listed, listCardinalityConstraints constraints = .ok listed → ∀ constraint ∈ listed,
    holders (assignedAt P constraints es n) constraint.roleName ≤ constraint.maxSubjects
  granted : ∀ n s roleName, roleName ∈ (assignedAt P constraints es n).rolesOf s →
    ∃ i e, i < n ∧ es[i]? = some e ∧ Grants constraints (assignedAt P constraints es i) e (subjectId s) roleName ∧
      ∀ j, i < j → j ≤ n → roleName ∈ (assignedAt P constraints es j).rolesOf s
  prepared : ∀ i e s roleName, es[i]? = some e →
    Grants constraints (assignedAt P constraints es i) e (subjectId s) roleName →
    ∀ listed, listPrerequisiteConstraints constraints = .ok listed → ∀ constraint ∈ listed,
      constraint.roleName = roleName → constraint.requires ∈ (assignedAt P constraints es i).rolesOf s

/-- What a step does to the roles of a subject: it grants one, or leaves out some. -/
theorem step_cases (constraints : C) (st : InMemoryAssignmentStore S P) (event : AssignmentEvent S) :
    (∃ now s roleName, event = .assign now s roleName ∧ askGate constraints st now s roleName = .ok () ∧
      (assignmentMachine constraints).step st event = st.assignRole s roleName) ∨
    (∃ s roleName, (assignmentMachine constraints).step st event = st.revokeRole s roleName) ∨
      (assignmentMachine constraints).step st event = st := by
  cases event with
  | assign now s roleName =>
    cases hgate : askGate constraints st now s roleName with
    | ok u =>
      refine Or.inl ⟨now, s, roleName, rfl, hgate, ?_⟩
      simp only [assignmentMachine, hgate]
    | error e =>
      refine Or.inr (Or.inr ?_)
      simp only [assignmentMachine, hgate]
  | revoke s roleName => exact Or.inr (Or.inl ⟨s, roleName, rfl⟩)

/-- What the store keeps between the calls. -/
structure Constrained (constraints : C) (st : InMemoryAssignmentStore S P) : Prop where
  nodup : ∀ s, (st.rolesOf s).Nodup
  separated : ∀ policies, listSsdPolicies constraints = .ok policies → ∀ policy ∈ policies, ∀ s,
    policy.validate (Multiset.ofList (st.rolesOf s)) = true
  limited : ∀ listed, listCardinalityConstraints constraints = .ok listed → ∀ constraint ∈ listed,
    holders st constraint.roleName ≤ constraint.maxSubjects

/-- Every separation policy listed was built by its constructor. -/
def SsdBuilt (constraints : C) : Prop :=
  ∀ policies, listSsdPolicies constraints = .ok policies → ∀ policy ∈ policies,
    ∃ name roles cardinality, policy = SodPolicy.new name roles cardinality

theorem constrained_new {constraints : C} (hbuilt : SsdBuilt constraints) :
    Constrained constraints (InMemoryAssignmentStore.new : InMemoryAssignmentStore S P) := by
  refine ⟨fun _ => List.nodup_nil, fun policies hlist policy hpolicy s => ?_, fun _ _ _ _ => Nat.zero_le _⟩
  obtain ⟨name, roles, cardinality, rfl⟩ := hbuilt policies hlist policy hpolicy
  have hpos : 0 < max cardinality 1 := by omega
  exact decide_eq_true hpos

theorem constrained_assign {constraints : C} {st : InMemoryAssignmentStore S P} (h : Constrained constraints st)
    {now : Int} {s : S} {roleName : String} (hgate : askGate constraints st now s roleName = .ok ()) :
    Constrained constraints (st.assignRole s roleName) := by
  have hadmits := validateAssignment_eq_ok_iff.1 hgate
  refine ⟨fun s' => ?_, fun policies hlist policy hpolicy s' => ?_, fun listed hlist constraint hconstraint => ?_⟩
  · rw [InMemoryAssignmentStore.rolesOf_assignRole]
    by_cases hid : subjectId s' = subjectId s
    · rw [if_pos hid]
      exact (h.nodup s').insert
    · rw [if_neg hid]
      exact h.nodup s'
  · rw [InMemoryAssignmentStore.rolesOf_assignRole]
    by_cases hid : subjectId s' = subjectId s
    · rw [if_pos hid]
      have hrow : st.rolesOf s' = st.rolesOf s := by
        unfold InMemoryAssignmentStore.rolesOf
        rw [hid]
      by_cases hheld : roleName ∈ st.rolesOf s'
      · rw [List.insert_of_mem hheld]
        exact h.separated policies hlist policy hpolicy s'
      · rw [List.insert_of_not_mem hheld]
        rw [hrow] at hheld ⊢
        obtain ⟨policies', hlist', hvalid⟩ := hadmits.ssd
        obtain rfl := Except.ok.inj (hlist.symm.trans hlist')
        have hperm : Multiset.ofList (roleName :: st.rolesOf s) = Multiset.ofList (st.rolesOf s ++ [roleName]) :=
          Multiset.coe_eq_coe.2 (List.perm_append_singleton roleName (st.rolesOf s)).symm
        rw [hperm]
        exact hvalid hheld policy hpolicy
    · rw [if_neg hid]
      exact h.separated policies hlist policy hpolicy s'
  · have hle := holders_assignRole_le st s roleName constraint.roleName
    have hbefore := h.limited listed hlist constraint hconstraint
    by_cases hrole : constraint.roleName = roleName
    · obtain ⟨listed', hlist', hbelow⟩ := hadmits.cardinality
      obtain rfl := Except.ok.inj (hlist.symm.trans hlist')
      have hlt := hbelow constraint hconstraint hrole
      rw [if_pos hrole] at hle
      rw [← hrole] at hlt hle ⊢
      omega
    · rw [if_neg hrole] at hle
      omega

theorem constrained_revoke {constraints : C} {st : InMemoryAssignmentStore S P} (h : Constrained constraints st) (s : S)
    (roleName : String) : Constrained constraints (st.revokeRole s roleName) := by
  have hsub : ∀ s', ((st.revokeRole s roleName).rolesOf s').Sublist (st.rolesOf s') := by
    intro s'
    rw [InMemoryAssignmentStore.rolesOf_revokeRole]
    by_cases hid : subjectId s' = subjectId s
    · rw [if_pos hid]
      exact List.filter_sublist
    · rw [if_neg hid]
  refine ⟨fun s' => (h.nodup s').sublist (hsub s'), fun policies hlist policy hpolicy s' => ?_, fun listed hlist c hc => ?_⟩
  · exact SodPolicy.validate_anti (Multiset.coe_le.2 (hsub s').subperm) (h.separated policies hlist policy hpolicy s')
  · exact (holders_revokeRole_le st s roleName c.roleName).trans (h.limited listed hlist c hc)

theorem constrained_step {constraints : C} {st : InMemoryAssignmentStore S P} (h : Constrained constraints st)
    (event : AssignmentEvent S) : Constrained constraints ((assignmentMachine constraints).step st event) := by
  rcases step_cases constraints st event with ⟨now, s, roleName, -, hgate, hstep⟩ | ⟨s, roleName, hstep⟩ | hstep
  · rw [hstep]
    exact constrained_assign h hgate
  · rw [hstep]
    exact constrained_revoke h s roleName
  · rw [hstep]
    exact h

theorem constrained_assignedAt {constraints : C} (hbuilt : SsdBuilt constraints) (es : List (AssignmentEvent S)) (n : Nat) :
    Constrained constraints (assignedAt P constraints es n) :=
  Machine.run_invariant _ (fun _ _ => True) (Constrained constraints) (fun _ e h _ => constrained_step h e) _ _
    (constrained_new hbuilt) (Machine.along_of_forall _ _ _ _ (fun _ _ _ => trivial))

/-- A role that a subject has after a step and had not before was granted by it. -/
theorem grants_of_new {constraints : C} {st : InMemoryAssignmentStore S P} {event : AssignmentEvent S} {s : S}
    {roleName : String} (hafter : roleName ∈ ((assignmentMachine constraints).step st event).rolesOf s)
    (hbefore : roleName ∉ st.rolesOf s) : Grants constraints st event (subjectId s) roleName := by
  rcases step_cases constraints st event with ⟨now, s', roleName', hevent, hgate, hstep⟩ | ⟨s', roleName', hstep⟩ | hstep
  · rw [hstep, InMemoryAssignmentStore.rolesOf_assignRole] at hafter
    by_cases hid : subjectId s = subjectId s'
    · rw [if_pos hid, List.mem_insert_iff] at hafter
      obtain rfl := hafter.resolve_right hbefore
      exact ⟨now, s', hevent, hid.symm, hgate⟩
    · rw [if_neg hid] at hafter
      exact absurd hafter hbefore
  · rw [hstep, InMemoryAssignmentStore.rolesOf_revokeRole] at hafter
    by_cases hid : subjectId s = subjectId s'
    · rw [if_pos hid] at hafter
      exact absurd (List.mem_of_mem_filter hafter) hbefore
    · rw [if_neg hid] at hafter
      exact absurd hafter hbefore
  · rw [hstep] at hafter
    exact absurd hafter hbefore

theorem assignedAt_succ {constraints : C} {es : List (AssignmentEvent S)} {n : Nat} {e : AssignmentEvent S}
    (he : es[n]? = some e) :
    assignedAt P constraints es (n + 1) = (assignmentMachine constraints).step (assignedAt P constraints es n) e :=
  Machine.run_take_succ _ _ he

/-- **A role that is held was granted by an earlier event, and held since.** -/
theorem granted_of_held (constraints : C) (es : List (AssignmentEvent S)) (s : S) (roleName : String) (n : Nat) :
    roleName ∈ (assignedAt P constraints es n).rolesOf s →
      ∃ i e, i < n ∧ es[i]? = some e ∧ Grants constraints (assignedAt P constraints es i) e (subjectId s) roleName ∧
        ∀ j, i < j → j ≤ n → roleName ∈ (assignedAt P constraints es j).rolesOf s := by
  induction n with
  | zero => exact fun h => nomatch h
  | succ n ih =>
    intro hheld
    by_cases hbefore : roleName ∈ (assignedAt P constraints es n).rolesOf s
    · obtain ⟨i, e, hin, he, hgrants, hsince⟩ := ih hbefore
      refine ⟨i, e, Nat.lt_succ_of_lt hin, he, hgrants, fun j hij hjn => ?_⟩
      rcases Nat.lt_or_ge n j with hnj | hjn'
      · obtain rfl : j = n + 1 := by omega
        exact hheld
      · exact hsince j hij hjn'
    · cases he : es[n]? with
      | none =>
        have hlen := List.getElem?_eq_none_iff.1 he
        unfold assignedAt at hheld hbefore
        rw [List.take_of_length_le (Nat.le_succ_of_le hlen)] at hheld
        rw [List.take_of_length_le hlen] at hbefore
        exact absurd hheld hbefore
      | some e =>
        have hafter := hheld
        rw [assignedAt_succ he] at hafter
        refine ⟨n, e, Nat.lt_succ_self n, he, grants_of_new hafter hbefore, fun j hnj hjn => ?_⟩
        obtain rfl : j = n + 1 := by omega
        exact hheld

/-- **Accepted assignments keep the constraints.** -/
theorem constraintsKept (constraints : C) (es : List (AssignmentEvent S)) (hbuilt : SsdBuilt constraints) :
    KeepsConstraints P constraints es := by
  refine ⟨fun n s => ?_, fun n => ?_, fun n s roleName => granted_of_held constraints es s roleName n, ?_⟩
  · have h := constrained_assignedAt (P := P) hbuilt es n
    exact ⟨h.nodup s, fun policies hlist policy hpolicy => h.separated policies hlist policy hpolicy s⟩
  · exact (constrained_assignedAt (P := P) hbuilt es n).limited
  · rintro i e s roleName - ⟨now, s', rfl, hid, hgate⟩ listed hlist constraint hconstraint hrole
    obtain ⟨listed', hlist', hrequired⟩ := (validateAssignment_eq_ok_iff.1 hgate).prerequisite
    obtain rfl := Except.ok.inj (hlist.symm.trans hlist')
    have hrow : (assignedAt P constraints es i).rolesOf s = (assignedAt P constraints es i).rolesOf s' := by
      unfold InMemoryAssignmentStore.rolesOf
      rw [hid]
    rw [hrow]
    exact hrequired constraint hconstraint hrole

/-- One policy of each kind on `admin`, which `operator` prepares and `auditor` excludes. -/
def adminConstraints : InMemoryConstraintLists :=
  ⟨⟨[]⟩, [SodPolicy.new "exclusive" {"admin", "auditor"} 2], [CardinalityConstraint.new "admin" 1],
    [PrerequisiteConstraint.new "admin" "operator"], []⟩

def adminRun : List (AssignmentEvent String) :=
  [.assign 0 "a" "operator", .assign 0 "a" "admin", .assign 0 "a" "auditor", .revoke "a" "operator"]

theorem adminRun_keeps : KeepsConstraints TestPerm adminConstraints adminRun ∧
    (assignedAt TestPerm adminConstraints adminRun 4).rolesOf "a" = ["admin"] := by
  refine ⟨constraintsKept adminConstraints adminRun (fun policies hlist policy hpolicy => ?_), by decide +kernel⟩
  obtain rfl := Except.ok.inj hlist
  exact ⟨_, _, _, List.mem_singleton.1 hpolicy⟩

end Runs
end Rbac
end Kirino
