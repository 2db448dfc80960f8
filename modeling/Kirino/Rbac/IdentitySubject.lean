import Kirino.Rbac.Separation
/-!
# IdentitySubject — principals by identity kind (`rbac/identity_subject.rs`, `models/identity.rs`)

A subject built from an identity carries the rendered UUID and the name of the kind, and two subjects are equal when
both agree.  Its subject id is the UUID alone, so the store and the cache keep one row set and one entry per UUID
whatever the kind.  Rendering a UUID is the function `toString` of the parameters.
-/
namespace Kirino
namespace Rbac

open Lib (Machine)

/-- Instants are natural numbers. -/
inductive Identity (U : Type) where
  | anonymous (id : U) (createdAt : Nat)
  | basic (id : U) (createdAt : Nat)
  | temporary (id : U) (expiresAt : Nat)
  | service (id caller : U) (createdAt : Nat)

def Identity.id {U : Type} : Identity U → U
  | .anonymous id _ => id
  | .basic id _ => id
  | .temporary id _ => id
  | .service id _ _ => id

def Identity.typeStr {U : Type} : Identity U → String
  | .anonymous _ _ => "anonymous"
  | .basic _ _ => "user"
  | .temporary _ _ => "temporary"
  | .service _ _ _ => "service"

/-- Both strings are derived from the identity, at construction. -/
structure IdentitySubject (U : Type) (toString : U → String) where
  identity : Identity U
  idStr : String
  typeStr : String
  idStr_eq : idStr = toString identity.id
  typeStr_eq : typeStr = identity.typeStr

namespace IdentitySubject

variable {U : Type} {toString : U → String}

def new (toString : U → String) (identity : Identity U) : IdentitySubject U toString :=
  ⟨identity, toString identity.id, identity.typeStr, rfl, rfl⟩

/-- The source's own equality: the pair of the id and the kind. -/
instance : BEq (IdentitySubject U toString) where
  beq a b := a.idStr == b.idStr && a.typeStr == b.typeStr

instance : Subject (IdentitySubject U toString) where
  subjectId s := s.idStr

theorem beq_iff (a b : IdentitySubject U toString) : (a == b) = true ↔ a.idStr = b.idStr ∧ a.typeStr = b.typeStr := by
  show (a.idStr == b.idStr && a.typeStr == b.typeStr) = true ↔ _
  rw [Bool.and_eq_true, beq_iff_eq, beq_iff_eq]

theorem subjectId_of_beq {a b : IdentitySubject U toString} (h : (a == b) = true) : subjectId a = subjectId b :=
  ((beq_iff a b).1 h).1

section
variable {P : Type} [Permission P] [DecidableEq P]

/-- In every run of operations for the two that evicts nothing, the answers for the second are those of the run
without the operations for the first. -/
def Separated (registry : RoleRegistry P) (maxEntries ttl : Nat) (a b : IdentitySubject U toString) : Prop :=
  ∀ ops : List (SubjectOp (IdentitySubject U toString) P),
    (∀ op ∈ ops, (op.subject == a) = true ∨ (op.subject == b) = true) →
    (opMachine registry).Along NoEviction (newState maxEntries ttl) ops →
      (opMachine registry).outsOn (fun op => op.subject == b) (newState maxEntries ttl) ops =
        (opMachine registry).outs (newState maxEntries ttl) (ops.filter (fun op => op.subject == b))

/-- **Two principals are separated exactly when their ids are different.** -/
theorem separated_iff (registry : RoleRegistry P) (maxEntries ttl : Nat) (p : P) (a b : IdentitySubject U toString)
    (hne : (a == b) = false) : Separated registry maxEntries ttl a b ↔ subjectId a ≠ subjectId b := by
  constructor
  · intro hsep hid
    obtain ⟨hroom, houts, hfresh⟩ := shared_grant registry maxEntries ttl p hid
    have hbb : (b == b) = true := (beq_iff b b).2 ⟨rfl, rfl⟩
    have h := hsep [.write (.setExtraPermissions a {p}), .check .flat (clockAt 0) b p] (fun op hop => ?_) hroom
    · unfold Machine.outsOn at h
      rw [houts] at h
      simp only [List.zip_cons_cons, List.zip_nil_right, List.filter_cons, List.filter_nil, SubjectOp.subject,
        StoreWrite.subject, hne, hbb, if_true, Bool.false_eq_true, if_false] at h
      rw [hfresh] at h
      cases h
    · rcases List.mem_cons.1 hop with rfl | hop
      · exact Or.inl ((beq_iff a a).2 ⟨rfl, rfl⟩)
      · rw [List.mem_singleton.1 hop]
        exact Or.inr hbb
  · intro hid ops hops hroom
    refine outsOn_subject registry maxEntries ttl _ (subjectId b) ops (fun op hop => ⟨subjectId_of_beq, fun heq => ?_⟩)
      hroom
    rcases hops op hop with ha | hb
    · exact absurd ((subjectId_of_beq ha).symm.trans heq) hid
    · exact hb

end

def anonymousUser : IdentitySubject String id := new id (.anonymous "018f6b3c-7e1a-7000-8000-000000000001" 0)

def user : IdentitySubject String id := new id (.basic "018f6b3c-7e1a-7000-8000-000000000001" 0)

def otherUser : IdentitySubject String id := new id (.basic "018f6b3c-7e1a-7000-8000-000000000002" 0)

theorem separated_users : Separated testRegistry defaultMaxCacheEntries (fromSecs 300) otherUser user :=
  (separated_iff testRegistry defaultMaxCacheEntries (fromSecs 300) TestPerm.read otherUser user (by decide)).2
    (by decide)

def anonymousGrant : List (SubjectOp (IdentitySubject String id) TestPerm) :=
  [.write (.setExtraPermissions anonymousUser {.read}), .check .flat (clockAt 0) user .read]

/-- What is granted to the anonymous identity of a UUID is granted to the user of that UUID. -/
theorem anonymous_grant_reaches_user :
    (anonymousUser == user) = false ∧
      (opMachine testRegistry).Along NoEviction (newState defaultMaxCacheEntries (fromSecs 300)) anonymousGrant ∧
      (opMachine testRegistry).outsOn (fun op => op.subject == user)
        (newState defaultMaxCacheEntries (fromSecs 300)) anonymousGrant = [some true] ∧
      (opMachine testRegistry).outs (newState defaultMaxCacheEntries (fromSecs 300))
        (anonymousGrant.filter (fun op => op.subject == user)) = [some false] := by
  refine ⟨by decide, ⟨trivial, fun _ => Or.inl (by decide), trivial⟩, by decide, by decide⟩

end IdentitySubject

end Rbac
end Kirino
