import Mathlib.Data.Multiset.Basic
import Kirino.Lib.Entries
import Kirino.Lib.Machine
import Kirino.Rbac.IdentitySubject
import Kirino.Service.Users
/-!
# UserDirectory — the user table and the identity provider (`database/memory.rs`, `auth/identity/basic.rs`)

The database keeps its users under their names with an index by id, the identity provider keeps its records in a vector.
Both refuse a name or an id that is taken, the name first.  They answer every run of the calls they share alike
(`directories_agree`), but for the text of one error: the index never loses a user, and the vector never holds two.
-/
namespace Kirino
namespace Service

open Lib (HashMap Machine)
open Rbac (Identity)

variable {U : Type}

/-! ## The user table's remaining calls -/

namespace UserTable

/-- The users, in no order. -/
def listUsers (table : UserTable U) : Multiset (UserRecord U) := (table.users.entries.map Prod.snd : List (UserRecord U))

variable [DecidableEq U]

/-- The table without the user of an id. -/
def without (table : UserTable U) {id : U} {username : String} (h : table.idToUsername.get? id = some username) :
    UserTable U where
  users := table.users.remove username
  idToUsername := table.idToUsername.remove id
  keyed name user hu := by
    rw [← HashMap.get?_eq_some_iff, HashMap.get?_remove] at hu
    split at hu
    · cases hu
    · exact table.keyed name user ((HashMap.get?_eq_some_iff _ _ _).1 hu)
  indexed id' name := by
    have hindexed := table.indexed id'
    obtain ⟨user, huser, hid⟩ := user_of_index h
    simp only [← HashMap.get?_eq_some_iff, HashMap.get?_remove] at hindexed ⊢
    by_cases hname : name = username
    · rw [if_pos hname]
      constructor
      · intro hget
        -- another id has another name
        split at hget
        · cases hget
        · rename_i hother
          obtain ⟨user', huser', hid'⟩ := (hindexed name).1 hget
          rw [hname, huser] at huser'
          exact absurd (hid'.symm.trans ((congrArg UserRecord.id (Option.some.inj huser')).symm.trans hid)) hother
      · rintro ⟨user', hnone, -⟩
        cases hnone
    · rw [if_neg hname]
      by_cases hsame : id' = id
      · rw [if_pos hsame]
        constructor
        · intro hnone
          cases hnone
        · rintro ⟨user', huser', hid'⟩
          have hget := (hindexed name).2 ⟨user', huser', hid'⟩
          rw [hsame, h] at hget
          exact absurd (Option.some.inj hget).symm hname
      · rw [if_neg hsame]
        exact hindexed name

/-- A user is removed under its name and under its id; the answer is whether there was one under the name. -/
def deleteUser (table : UserTable U) (id : U) : Bool × UserTable U :=
  match h : table.idToUsername.get? id with
  | some username => ((table.users.get? username).isSome, table.without h)
  | none => (false, table)

variable {table : UserTable U} {user : UserRecord U} {id : U}

theorem createUser_of_name (hname : table.users.get? user.username ≠ none) :
    table.createUser user = .error (.validation "username already exists") := by
  unfold createUser
  split
  · rfl
  · next hnone => exact absurd hnone hname

theorem createUser_of_id (hname : table.users.get? user.username = none) (hid : table.idToUsername.get? user.id ≠ none) :
    table.createUser user = .error (.validation "user ID already exists") := by
  unfold createUser
  split
  · next hsome => cases hname.symm.trans hsome
  · split
    · rfl
    · next hnone => exact absurd hnone hid

theorem createUser_of_new (hname : table.users.get? user.username = none) (hid : table.idToUsername.get? user.id = none) :
    table.createUser user = .ok (table.insertNew user hname hid) := by
  unfold createUser
  split
  · next hsome => cases hname.symm.trans hsome
  · split
    · next hsome => cases hid.symm.trans hsome
    · rfl

theorem deleteUser_of_index {username : String} (h : table.idToUsername.get? id = some username) :
    table.deleteUser id = (true, table.without h) := by
  obtain ⟨user, huser, -⟩ := user_of_index h
  unfold deleteUser
  split
  · rename_i username' h'
    obtain rfl : username = username' := Option.some.inj (h.symm.trans h')
    rw [huser]
    rfl
  · next hnone => cases h.symm.trans hnone

theorem deleteUser_of_none (h : table.idToUsername.get? id = none) : table.deleteUser id = (false, table) := by
  unfold deleteUser
  split
  · next hsome => cases h.symm.trans hsome
  · rfl

/-- **A deleted user is not found**, and the others still are. -/
theorem findById_deleteUser (id' : U) :
    findById (table.deleteUser id).2 id' = if id' = id then none else findById table id' := by
  cases h : table.idToUsername.get? id with
  | none =>
    rw [deleteUser_of_none h]
    by_cases hsame : id' = id
    · rw [if_pos hsame, hsame]
      unfold findById
      rw [h]
    · rw [if_neg hsame]
  | some username =>
    rw [deleteUser_of_index h]
    unfold findById without
    simp only [HashMap.get?_remove]
    by_cases hsame : id' = id
    · rw [if_pos hsame, if_pos hsame]
    · rw [if_neg hsame, if_neg hsame]
      cases hname : table.idToUsername.get? id' with
      | none => rfl
      | some name =>
        -- another id has another name
        have hother : name ≠ username := by
          rintro rfl
          obtain ⟨user, huser, hid⟩ := user_of_index h
          obtain ⟨user', huser', hid'⟩ := user_of_index hname
          obtain rfl := Option.some.inj (huser.symm.trans huser')
          exact hsame (hid'.symm.trans hid)
        exact if_neg hother

end UserTable

/-! ## The identity provider -/

structure IdentityRecord (U : Type) where
  identity : Identity U
  username : String
  passwordHash : String
  isActive : Bool

def IdentityRecord.toUser (record : IdentityRecord U) : UserRecord U :=
  ⟨record.identity.id, record.username, record.passwordHash, record.isActive⟩

/-- The records in the order of their creation. -/
structure InMemoryIdentityProvider (U : Type) where
  records : List (IdentityRecord U)
  names : (records.map IdentityRecord.username).Nodup
  ids : (records.map (fun record => record.identity.id)).Nodup

namespace InMemoryIdentityProvider

def new : InMemoryIdentityProvider U := ⟨[], List.nodup_nil, List.nodup_nil⟩

def findByUsername (provider : InMemoryIdentityProvider U) (username : String) : Option (IdentityRecord U) :=
  provider.records.find? (fun record => decide (record.username = username))

variable [DecidableEq U]

def create (provider : InMemoryIdentityProvider U) (record : IdentityRecord U) :
    Except ServiceError (InMemoryIdentityProvider U) :=
  if hname : ∃ r ∈ provider.records, r.username = record.username then .error (.validation "username already exists")
  else if hid : ∃ r ∈ provider.records, r.identity.id = record.identity.id then
    .error (.validation "identity already exists")
  else .ok {
    records := provider.records ++ [record]
    names := by
      rw [List.map_append, List.nodup_append]
      refine ⟨provider.names, List.nodup_singleton _, fun name hold name' hnew hsame => ?_⟩
      obtain ⟨r, hr, rfl⟩ := List.mem_map.1 hold
      exact hname ⟨r, hr, hsame.trans (List.mem_singleton.1 hnew)⟩
    ids := by
      rw [List.map_append, List.nodup_append]
      refine ⟨provider.ids, List.nodup_singleton _, fun id hold id' hnew hsame => ?_⟩
      obtain ⟨r, hr, rfl⟩ := List.mem_map.1 hold
      exact hid ⟨r, hr, hsame.trans (List.mem_singleton.1 hnew)⟩ }

def get (provider : InMemoryIdentityProvider U) (id : U) : Option (IdentityRecord U) :=
  provider.records.find? (fun record => decide (record.identity.id = id))

def delete (provider : InMemoryIdentityProvider U) (id : U) : Bool × InMemoryIdentityProvider U :=
  let kept := provider.records.filter (fun record => decide (record.identity.id ≠ id))
  (decide (kept.length < provider.records.length),
    { records := kept
      names := provider.names.sublist (List.filter_sublist.map _)
      ids := provider.ids.sublist (List.filter_sublist.map _) })

end InMemoryIdentityProvider

/-! ## The calls they share -/

inductive DirectoryCall (U : Type) where
  | create (record : IdentityRecord U)
  | findByUsername (username : String)
  | findById (id : U)
  | delete (id : U)
  | list

inductive DirectoryAnswer (U : Type) where
  | created (result : Except ServiceError Unit)
  | found (user : Option (UserRecord U))
  | deleted (removed : Bool)
  | listed (users : Multiset (UserRecord U))

/-- The answer with the text of the database's error for an id that is taken. -/
def DirectoryAnswer.inDatabaseText : DirectoryAnswer U → DirectoryAnswer U
  | .created (.error (.validation "identity already exists")) => .created (.error (.validation "user ID already exists"))
  | answer => answer

section Machines
variable [DecidableEq U]

def UserTable.call (table : UserTable U) : DirectoryCall U → UserTable U × DirectoryAnswer U
  | .create record =>
    match table.createUser record.toUser with
    | .error e => (table, .created (.error e))
    | .ok table => (table, .created (.ok ()))
  | .findByUsername username => (table, .found (table.findByUsername username))
  | .findById id => (table, .found (table.findById id))
  | .delete id => ((table.deleteUser id).2, .deleted (table.deleteUser id).1)
  | .list => (table, .listed table.listUsers)

def InMemoryIdentityProvider.call (provider : InMemoryIdentityProvider U) :
    DirectoryCall U → InMemoryIdentityProvider U × DirectoryAnswer U
  | .create record =>
    match provider.create record with
    | .error e => (provider, .created (.error e))
    | .ok provider => (provider, .created (.ok ()))
  | .findByUsername username => (provider, .found ((provider.findByUsername username).map IdentityRecord.toUser))
  | .findById id => (provider, .found ((provider.get id).map IdentityRecord.toUser))
  | .delete id => ((provider.delete id).2, .deleted (provider.delete id).1)
  | .list => (provider, .listed (provider.records.map IdentityRecord.toUser : List (UserRecord U)))

def userTableMachine : Machine (UserTable U) (DirectoryCall U) (DirectoryAnswer U) :=
  ⟨fun table call => (table.call call).1, fun table call => (table.call call).2⟩

def identityProviderMachine : Machine (InMemoryIdentityProvider U) (DirectoryCall U) (DirectoryAnswer U) :=
  ⟨fun provider call => (provider.call call).1, fun provider call => (provider.call call).2.inDatabaseText⟩

end Machines

/-! ## The two side by side -/

section Sides
variable {table : UserTable U} {provider : InMemoryIdentityProvider U}

/-- The table's users are the provider's records. -/
def SameUsers (table : UserTable U) (provider : InMemoryIdentityProvider U) : Prop :=
  (table.users.entries.map Prod.snd).Perm (provider.records.map IdentityRecord.toUser)

theorem SameUsers.mem_iff (h : SameUsers table provider) {user : UserRecord U} :
    user ∈ table.users.entries.map Prod.snd ↔ ∃ record ∈ provider.records, record.toUser = user :=
  (List.Perm.mem_iff h).trans List.mem_map

theorem findByUsername_iff {username : String} {user : UserRecord U} :
    table.findByUsername username = some user ↔ user ∈ table.users.entries.map Prod.snd ∧ user.username = username := by
  unfold UserTable.findByUsername
  rw [HashMap.get?_eq_some_iff]
  constructor
  · intro h
    exact ⟨List.mem_map.2 ⟨_, h, rfl⟩, table.keyed username user h⟩
  · rintro ⟨hmem, rfl⟩
    obtain ⟨⟨name, user'⟩, hentry, rfl⟩ := List.mem_map.1 hmem
    rw [table.keyed name user' hentry]
    exact hentry

theorem provider_findByUsername_iff {username : String} {record : IdentityRecord U} :
    provider.findByUsername username = some record ↔ record ∈ provider.records ∧ record.username = username :=
  Lib.Entries.find?_eq_some_iff (List.pairwise_map.1 provider.names)

theorem SameUsers.findByUsername (h : SameUsers table provider) (username : String) :
    table.findByUsername username = (provider.findByUsername username).map IdentityRecord.toUser := by
  refine Option.ext (fun user => ?_)
  rw [findByUsername_iff, h.mem_iff, Option.map_eq_some_iff]
  constructor
  · rintro ⟨⟨record, hrecord, rfl⟩, hname⟩
    exact ⟨record, provider_findByUsername_iff.2 ⟨hrecord, hname⟩, rfl⟩
  · rintro ⟨record, hfind, rfl⟩
    obtain ⟨hrecord, hname⟩ := provider_findByUsername_iff.1 hfind
    exact ⟨⟨record, hrecord, rfl⟩, hname⟩

theorem SameUsers.name_taken (h : SameUsers table provider) (username : String) :
    table.users.get? username = none ↔ ¬ ∃ record ∈ provider.records, record.username = username := by
  have hfind := h.findByUsername username
  unfold UserTable.findByUsername at hfind
  rw [hfind, Option.map_eq_none_iff]
  constructor
  · rintro hnone ⟨record, hrecord, hname⟩
    rw [provider_findByUsername_iff.2 ⟨hrecord, hname⟩] at hnone
    cases hnone
  · intro hfree
    refine Option.eq_none_iff_forall_ne_some.2 (fun record hsome => hfree ⟨record, ?_⟩)
    exact provider_findByUsername_iff.1 hsome

section Ids
variable [DecidableEq U]

theorem findById_iff {id : U} {user : UserRecord U} :
    table.findById id = some user ↔ user ∈ table.users.entries.map Prod.snd ∧ user.id = id := by
  rw [UserTable.findById_eq_some, findByUsername_iff, and_iff_left rfl]

theorem provider_get_iff {id : U} {record : IdentityRecord U} :
    provider.get id = some record ↔ record ∈ provider.records ∧ record.identity.id = id :=
  Lib.Entries.find?_eq_some_iff (List.pairwise_map.1 provider.ids)

theorem SameUsers.findById (h : SameUsers table provider) (id : U) :
    table.findById id = (provider.get id).map IdentityRecord.toUser := by
  refine Option.ext (fun user => ?_)
  rw [findById_iff, h.mem_iff, Option.map_eq_some_iff]
  constructor
  · rintro ⟨⟨record, hrecord, rfl⟩, hid⟩
    exact ⟨record, provider_get_iff.2 ⟨hrecord, hid⟩, rfl⟩
  · rintro ⟨record, hfind, rfl⟩
    obtain ⟨hrecord, hid⟩ := provider_get_iff.1 hfind
    exact ⟨⟨record, hrecord, rfl⟩, hid⟩

/-- The index has an id exactly when a user has it. -/
theorem SameUsers.id_taken (h : SameUsers table provider) (id : U) :
    table.idToUsername.get? id = none ↔ ¬ ∃ record ∈ provider.records, record.identity.id = id := by
  constructor
  · rintro hnone ⟨record, hrecord, hid⟩
    have hfind := (h.findById id).trans (congrArg _ (provider_get_iff.2 ⟨hrecord, hid⟩))
    unfold UserTable.findById at hfind
    rw [hnone] at hfind
    cases hfind
  · intro hfree
    refine Option.eq_none_iff_forall_ne_some.2 (fun username hsome => hfree ?_)
    obtain ⟨user, huser, hid⟩ := UserTable.user_of_index hsome
    obtain ⟨record, hrecord, rfl⟩ := h.mem_iff.1 (findByUsername_iff.1 huser).1
    exact ⟨record, hrecord, hid⟩

/-- **A creation succeeds on both sides or on none**, and leaves the same users. -/
theorem SameUsers.create (h : SameUsers table provider) (record : IdentityRecord U) :
    SameUsers (table.call (.create record)).1 (provider.call (.create record)).1 ∧
      (table.call (.create record)).2 = (provider.call (.create record)).2.inDatabaseText := by
  have hname := h.name_taken record.username
  have hid := h.id_taken record.identity.id
  unfold UserTable.call InMemoryIdentityProvider.call InMemoryIdentityProvider.create
  dsimp only
  by_cases htaken : ∃ r ∈ provider.records, r.username = record.username
  · rw [dif_pos htaken, UserTable.createUser_of_name (fun hnone => hname.1 hnone htaken)]
    exact ⟨h, rfl⟩
  · rw [dif_neg htaken]
    by_cases hused : ∃ r ∈ provider.records, r.identity.id = record.identity.id
    · rw [dif_pos hused, UserTable.createUser_of_id (hname.2 htaken) (fun hnone => hid.1 hnone hused)]
      exact ⟨h, rfl⟩
    · rw [dif_neg hused, UserTable.createUser_of_new (hname.2 htaken) (hid.2 hused)]
      refine ⟨?_, rfl⟩
      have hnew : table.users.get? record.toUser.username = none := hname.2 htaken
      unfold SameUsers UserTable.insertNew HashMap.insert
      dsimp only
      rw [HashMap.entries_remove_of_none hnew, List.map_cons, List.map_append]
      exact (List.Perm.cons _ h).trans (List.perm_append_singleton _ _).symm

/-- The users that go with a name are those of its id. -/
theorem without_users {id : U} {username : String} (hname : table.idToUsername.get? id = some username) :
    (table.without hname).users.entries.map Prod.snd =
      (table.users.entries.map Prod.snd).filter (fun user => decide (user.id ≠ id)) := by
  obtain ⟨user, huser, hid⟩ := UserTable.user_of_index hname
  have hkey : ∀ e ∈ table.users.entries, decide (e.1 ≠ username) = decide (e.2.id ≠ id) := by
    rintro ⟨name, user'⟩ hentry
    refine decide_eq_decide.2 (not_congr ⟨?_, ?_⟩)
    · rintro rfl
      have hget := (HashMap.get?_eq_some_iff _ _ _).2 hentry
      rw [huser] at hget
      rw [← Option.some.inj hget, hid]
    · rintro rfl
      have hindexed := (HashMap.get?_eq_some_iff _ _ _).2 ((table.indexed _ name).2 ⟨user', hentry, rfl⟩)
      exact Option.some.inj (hindexed.symm.trans hname)
  unfold UserTable.without HashMap.remove HashMap.retain
  dsimp only
  rw [List.filter_congr hkey, List.filter_map]
  rfl

/-- **A deletion finds a user on both sides or on none**, and leaves the same users. -/
theorem SameUsers.delete (h : SameUsers table provider) (id : U) :
    SameUsers (table.call (.delete id)).1 (provider.call (.delete id)).1 ∧
      (table.call (.delete id)).2 = (provider.call (.delete id)).2.inDatabaseText := by
  have hid := h.id_taken id
  have hshorter : (provider.records.filter (fun record => decide (record.identity.id ≠ id))).length <
      provider.records.length ↔ ∃ record ∈ provider.records, record.identity.id = id := by
    rw [List.length_filter_lt_length_iff_exists]
    simp
  unfold UserTable.call InMemoryIdentityProvider.call InMemoryIdentityProvider.delete
  dsimp only
  cases hname : table.idToUsername.get? id with
  | some username =>
    have htaken : ∃ record ∈ provider.records, record.identity.id = id := by
      by_contra hfree
      cases hname.symm.trans (hid.2 hfree)
    rw [decide_eq_true (hshorter.2 htaken), UserTable.deleteUser_of_index hname]
    refine ⟨?_, rfl⟩
    show ((table.without hname).users.entries.map Prod.snd).Perm
      ((provider.records.filter (fun record => decide (record.identity.id ≠ id))).map IdentityRecord.toUser)
    rw [without_users hname]
    exact (List.Perm.filter _ h).trans (List.Perm.of_eq List.filter_map)
  | none =>
    have hfree := hid.1 hname
    have hsame : provider.records.filter (fun record => decide (record.identity.id ≠ id)) = provider.records :=
      List.filter_eq_self.2 (fun record hrecord => decide_eq_true (fun hid => hfree ⟨record, hrecord, hid⟩))
    rw [decide_eq_false (fun hlt => hfree (hshorter.1 hlt)), UserTable.deleteUser_of_none hname]
    refine ⟨?_, rfl⟩
    show (table.users.entries.map Prod.snd).Perm
      ((provider.records.filter (fun record => decide (record.identity.id ≠ id))).map IdentityRecord.toUser)
    rw [hsame]
    exact h

theorem sameUsers_step (h : SameUsers table provider) (call : DirectoryCall U) :
    SameUsers (userTableMachine.step table call) (identityProviderMachine.step provider call) ∧
      userTableMachine.out table call = identityProviderMachine.out provider call := by
  cases call with
  | create record => exact h.create record
  | delete id => exact h.delete id
  | findByUsername username => exact ⟨h, congrArg DirectoryAnswer.found (h.findByUsername username)⟩
  | findById id => exact ⟨h, congrArg DirectoryAnswer.found (h.findById id)⟩
  | list => exact ⟨h, congrArg DirectoryAnswer.listed (Multiset.coe_eq_coe.2 h)⟩

/-- **The user table and the identity provider are one directory**: from empty, they answer every run of creations,
lookups, deletions and listings alike, an id that is taken reported in the database's words. -/
theorem directories_agree (calls : List (DirectoryCall U)) :
    userTableMachine.outs (UserTable.new : UserTable U) calls =
      identityProviderMachine.outs (InMemoryIdentityProvider.new : InMemoryIdentityProvider U) calls :=
  userTableMachine.outs_eq_of_simulation identityProviderMachine (fun _ _ => True) SameUsers
    (fun _ _ call h _ => sameUsers_step h call) _ _ calls (List.Perm.refl _)
    (userTableMachine.along_of_forall _ _ calls (fun _ _ _ => trivial))

end Ids

end Sides

end Service
end Kirino
