import Mathlib.Data.Finset.Card
/-!
# Constraints — separation-of-duty policies (`rbac/constraints/policies.rs`, `rbac/constraints/store.rs`)

A policy caps how many of its roles may be present at once.  The predicate counts occurrences, so taking roles away
never violates a policy (`validate_anti`).
-/
namespace Kirino
namespace Rbac

/-- The policy the macro `define_sod_policy` expands to, for static and for dynamic separation alike. -/
structure SodPolicy where
  name : String
  roles : Finset String
  cardinality : Nat
deriving DecidableEq

abbrev DsdPolicy := SodPolicy

namespace SodPolicy

def new (name : String) (roles : Finset String) (cardinality : Nat) : SodPolicy := ⟨name, roles, max cardinality 1⟩

/-- The roles are those of a slice, counted with their occurrences. -/
def validate (policy : SodPolicy) (roles : Multiset String) : Bool :=
  let count := roles.countP (fun r => r ∈ policy.roles)
  decide (count < policy.cardinality)

theorem validate_anti {policy : SodPolicy} {roles roles' : Multiset String} (h : roles' ≤ roles)
    (hv : policy.validate roles = true) : policy.validate roles' = true := by
  unfold validate at *
  rw [decide_eq_true_iff] at *
  exact lt_of_le_of_lt (Multiset.countP_le_of_le _ h) hv

end SodPolicy

/-- A constraint store, cut to the query the session managers make. -/
class ConstraintStore (C : Type) (E : outParam Type) where
  listDsdPolicies : C → Except E (List DsdPolicy)

export ConstraintStore (listDsdPolicies)

/-- The in-memory store, cut to its dynamic policies. -/
structure InMemoryConstraintStore where
  dsdPolicies : List DsdPolicy

instance : ConstraintStore InMemoryConstraintStore Empty where
  listDsdPolicies store := .ok store.dsdPolicies

/-- The set of roles passes every policy. -/
def PassesAll (policies : List DsdPolicy) (roles : Finset String) : Prop :=
  ∀ policy ∈ policies, policy.validate roles.val = true

instance (policies : List DsdPolicy) (roles : Finset String) : Decidable (PassesAll policies roles) :=
  inferInstanceAs (Decidable (∀ policy ∈ policies, _))

theorem passesAll_anti {policies : List DsdPolicy} {roles roles' : Finset String} (h : roles' ⊆ roles)
    (hp : PassesAll policies roles) : PassesAll policies roles' :=
  fun policy hpolicy => SodPolicy.validate_anti (Finset.val_le_iff.2 h) (hp policy hpolicy)

end Rbac
end Kirino
