import Kirino.Lib.HashMap
/-!
# Users — the user table, password hashes and user ids (`database/memory.rs`, `auth/passport/static_password.rs`)

The table holds the users under their names, and the name of each id; that the two agree is part of it, so no two users
share a name or an id.  A lookup by name is an exact match.  The hash of a password is the Argon2 library's, and the text
of an id the UUID library's, both parameters.
-/
namespace Kirino
namespace Service

open Lib (HashMap)

/-- The UUID library: an id's text parses back to it. -/
class UuidText (U : Type) where
  toText : U → String
  parseStr : String → Option U
  parse_toText : ∀ id, parseStr (toText id) = some id

export UuidText (toText parseStr)

theorem toText_injective {U : Type} [UuidText U] {id id' : U} (h : toText id = toText id') : id = id' := by
  have hparse := UuidText.parse_toText id
  rw [h, UuidText.parse_toText] at hparse
  exact (Option.some.inj hparse).symm

instance : UuidText String := ⟨id, some, fun _ => rfl⟩

/-- The password hash library; a hash takes a salt that is drawn. -/
structure PasswordHasher where
  hashPassword : String → String → Except String String
  verifyPassword : String → String → Except String Bool

/-- A hash verifies against its own password alone. -/
def PasswordHasher.Lawful (hasher : PasswordHasher) : Prop :=
  ∀ {salt password hash}, hasher.hashPassword salt password = .ok hash →
    ∀ password', hasher.verifyPassword password' hash = .ok (decide (password' = password))

/-- A hasher whose hash is the password itself. -/
def plainHasher : PasswordHasher := ⟨fun _ password => .ok password, fun password hash => .ok (decide (password = hash))⟩

theorem plainHasher_lawful : plainHasher.Lawful := fun h _ => by cases h; rfl

/-- What the service's calls return for errors, and a panic. -/
inductive ServiceError where
  | validation (message : String)
  | authenticationFailed
  | authorizationDenied (message : String)
  | notFound (message : String)
  | other (message : String)
  | panicked
deriving DecidableEq

structure UserRecord (U : Type) where
  id : U
  username : String
  passwordHash : String
  isActive : Bool
deriving DecidableEq

/-- The users by name, and the names by id. -/
structure UserTable (U : Type) where
  users : HashMap String (UserRecord U)
  idToUsername : HashMap U String
  keyed : ∀ name user, (name, user) ∈ users.entries → user.username = name
  indexed : ∀ id name, (id, name) ∈ idToUsername.entries ↔ ∃ user, (name, user) ∈ users.entries ∧ user.id = id

namespace UserTable

variable {U : Type}

def new : UserTable U := ⟨HashMap.empty, HashMap.empty, nofun, fun _ _ => ⟨nofun, nofun⟩⟩

def findByUsername (table : UserTable U) (username : String) : Option (UserRecord U) := table.users.get? username

def countUsers (table : UserTable U) : Nat := table.users.len

variable [DecidableEq U]

/-- A user of a new name and a new id. -/
def insertNew (table : UserTable U) (user : UserRecord U) (hname : table.users.get? user.username = none)
    (hid : table.idToUsername.get? user.id = none) : UserTable U where
  users := table.users.insert user.username user
  idToUsername := table.idToUsername.insert user.id user.username
  keyed name u hu := by
    rw [← HashMap.get?_eq_some_iff, HashMap.get?_insert] at hu
    split at hu
    · rename_i hsame
      rw [← Option.some.inj hu, hsame]
    · exact table.keyed name u ((HashMap.get?_eq_some_iff _ _ _).1 hu)
  indexed id name := by
    have hindexed := table.indexed id name
    simp only [← HashMap.get?_eq_some_iff, HashMap.get?_insert] at hindexed ⊢
    by_cases hsame : id = user.id
    · subst hsame
      rw [if_pos rfl]
      by_cases hsamename : name = user.username
      · simp [hsamename]
      · -- the id is new: no other name has it
        rw [if_neg hsamename, ← hindexed, hid]
        simp [Ne.symm hsamename]
    · rw [if_neg hsame, hindexed]
      by_cases hsamename : name = user.username
      · rw [hsamename, if_pos rfl, hname]
        simp [Ne.symm hsame]
      · rw [if_neg hsamename]

/-- The user's hash changes. -/
def rehash (table : UserTable U) {username : String} {user : UserRecord U} (huser : table.users.get? username = some user)
    (newHash : String) : UserTable U where
  users := table.users.insert username { user with passwordHash := newHash }
  idToUsername := table.idToUsername
  keyed name u hu := by
    rw [← HashMap.get?_eq_some_iff, HashMap.get?_insert] at hu
    split at hu
    · rename_i hsame
      rw [← Option.some.inj hu, hsame]
      exact table.keyed username user ((HashMap.get?_eq_some_iff _ _ _).1 huser)
    · exact table.keyed name u ((HashMap.get?_eq_some_iff _ _ _).1 hu)
  indexed id name := by
    rw [table.indexed]
    simp only [← HashMap.get?_eq_some_iff, HashMap.get?_insert]
    by_cases hsame : name = username
    · simp [hsame, huser]
    · simp [hsame]

def createUser (table : UserTable U) (user : UserRecord U) : Except ServiceError (UserTable U) :=
  match hname : table.users.get? user.username with
  | some _ => .error (.validation "username already exists")
  | none =>
    match hid : table.idToUsername.get? user.id with
    | some _ => .error (.validation "user ID already exists")
    | none => .ok (table.insertNew user hname hid)

def findById (table : UserTable U) (id : U) : Option (UserRecord U) :=
  match table.idToUsername.get? id with
  | some username => table.users.get? username
  | none => none

def updatePassword (table : UserTable U) (id : U) (newHash : String) : Except ServiceError (UserTable U) :=
  match table.idToUsername.get? id with
  | none => .error (.notFound "user not found")
  | some username =>
    match huser : table.users.get? username with
    | none => .error (.notFound "user not found")
    | some _ => .ok (table.rehash huser newHash)

/-! ## What a lookup reads -/

variable {table table' : UserTable U} {user : UserRecord U}

theorem user_of_index {id : U} {name : String} (h : table.idToUsername.get? id = some name) :
    ∃ user, table.users.get? name = some user ∧ user.id = id := by
  obtain ⟨user, huser, hid⟩ := (table.indexed id name).1 ((HashMap.get?_eq_some_iff _ _ _).1 h)
  exact ⟨user, (HashMap.get?_eq_some_iff _ _ _).2 huser, hid⟩

/-- **The two lookups agree**: a user is found by its id exactly when it is found by its name. -/
theorem findById_eq_some {id : U} :
    findById table id = some user ↔ findByUsername table user.username = some user ∧ user.id = id := by
  have hindexed := table.indexed id
  have hkeyed := table.keyed
  simp only [← HashMap.get?_eq_some_iff] at hindexed hkeyed
  unfold findById findByUsername
  constructor
  · intro h
    split at h
    · rename_i name hname
      obtain ⟨user', huser', hid⟩ := (hindexed name).1 hname
      obtain rfl := Option.some.inj (h.symm.trans huser')
      rw [hkeyed name user h]
      exact ⟨h, hid⟩
    · cases h
  · rintro ⟨h, hid⟩
    rw [(hindexed user.username).2 ⟨user, h, hid⟩]
    exact h

theorem findById_of_findByUsername {username : String} (h : findByUsername table username = some user) :
    findById table user.id = some user := by
  have hkeyed := table.keyed username user ((HashMap.get?_eq_some_iff _ _ _).1 h)
  exact findById_eq_some.2 ⟨hkeyed ▸ h, rfl⟩

/-- A user of a new name and a new id is created, and found. -/
theorem createUser_eq_ok (hname : table.findByUsername user.username = none)
    (hid : table.idToUsername.get? user.id = none) :
    ∃ table', table.createUser user = .ok table' ∧ table'.findByUsername user.username = some user := by
  refine ⟨table.insertNew user hname hid, ?_, ?_⟩
  · unfold createUser
    split
    · next hsome => exact absurd (hsome.symm.trans hname) (by simp)
    · split
      · next hsome => exact absurd (hsome.symm.trans hid) (by simp)
      · rfl
  · exact HashMap.get?_insert_self _ _ _

theorem createUser_eq_error (hid : table.idToUsername.get? user.id ≠ none) : ∃ e, table.createUser user = .error e := by
  unfold createUser
  split
  · exact ⟨_, rfl⟩
  · split
    · exact ⟨_, rfl⟩
    · next hnone => exact absurd hnone hid

/-- **A created user is found**, and those there before still are. -/
theorem findById_createUser (h : createUser table user = .ok table') (id : U) :
    findById table' id = if id = user.id then some user else findById table id := by
  unfold createUser at h
  split at h
  · cases h
  · rename_i hname
    split at h
    · cases h
    · rename_i hid
      obtain rfl : table.insertNew user hname hid = table' := Except.ok.inj h
      unfold findById insertNew
      dsimp only
      rw [HashMap.get?_insert]
      by_cases hsame : id = user.id
      · rw [if_pos hsame, if_pos hsame]
        exact HashMap.get?_insert_self _ _ _
      · rw [if_neg hsame, if_neg hsame]
        split
        · rename_i name hname'
          have hold : name ≠ user.username := by
            rintro rfl
            obtain ⟨user', huser', -⟩ := user_of_index hname'
            cases hname.symm.trans huser'
          exact HashMap.get?_insert_of_ne _ _ hold
        · rfl

theorem findById_kept (h : createUser table user = .ok table') {id : U} {u : UserRecord U}
    (hu : findById table id = some u) : ∃ u', findById table' id = some u' := by
  rw [findById_createUser h]
  split
  · exact ⟨user, rfl⟩
  · exact ⟨u, hu⟩

/-- **An update changes one user's hash.** -/
theorem findById_updatePassword {id : U} {newHash : String} (h : updatePassword table id newHash = .ok table') (id' : U) :
    findById table' id' =
      if id' = id then (findById table id).map (fun user => { user with passwordHash := newHash }) else findById table id' := by
  unfold updatePassword at h
  split at h
  · cases h
  · rename_i username hid
    split at h
    · cases h
    · rename_i user huser
      obtain rfl : table.rehash huser newHash = table' := Except.ok.inj h
      unfold findById rehash
      dsimp only
      by_cases hsame : id' = id
      · rw [if_pos hsame, hsame, hid]
        dsimp only
        rw [HashMap.get?_insert_self, huser]
        rfl
      · rw [if_neg hsame]
        split
        · rename_i name hname
          -- another id has another name
          have hother : name ≠ username := by
            rintro rfl
            obtain ⟨u, hu, hui⟩ := user_of_index hname
            obtain ⟨u', hu', hui'⟩ := user_of_index hid
            obtain rfl := Option.some.inj (hu.symm.trans hu')
            exact hsame (hui.symm.trans hui')
          exact HashMap.get?_insert_of_ne _ _ hother
        · rfl

end UserTable

end Service
end Kirino
