import Kirino.Service.FirstUser
/-!
# Registration — what a failed registration leaves behind (`service/login/mod.rs`)

The row of the new user is written before its role is assigned.  Every step up to the row's creation leaves the user
table as it was when it fails; the assignment of the role does not: it returns its error with the row in the table, and
the same registration then finds its own name taken.
-/
namespace Kirino
namespace Service

open Auth (JwtCrate)

/-- The steps of a registration. -/
inductive RegisterStep where
  | admission | find | latch | count | create | assign
deriving DecidableEq

/-- The step that a registration in flight takes next. -/
def ServiceCall.registerStep {U : Type} : ServiceCall U → RegisterStep
  | .registerFind _ _ => .find
  | .registerLatch _ _ => .latch
  | .registerCount _ => .count
  | .registerCreate _ _ => .create
  | .registerAssign _ _ => .assign
  | _ => .admission

namespace AuthService

variable {J : JwtCrate} {U P : Type} [UuidText U] [DecidableEq U]

/-- A call run by itself, for at most so many steps. -/
def runAlone (svc : AuthService J) (inputs : RegisterStep → ServiceInput U) :
    Nat → ServiceState U P → ServiceCall U → ServiceState U P × Option (ServiceAnswer U)
  | 0, w, _ => (w, none)
  | n + 1, w, call =>
    match svc.next w (inputs call.registerStep) call with
    | (w', _, some answer) => (w', some answer)
    | (w', call', none) => svc.runAlone inputs n w' call'

/-- A registration, with what each of its steps draws and is given. -/
def register (svc : AuthService J) (w : ServiceState U P) (inputs : RegisterStep → ServiceInput U)
    (username password : String) : ServiceState U P × Option (ServiceAnswer U) :=
  svc.runAlone inputs 6 w (.registerAdmit username password)

/-- The request and the steps before the creation are in order: a row is created, of that name and hash. -/
structure Creates (svc : AuthService J) (w : ServiceState U P) (inputs : RegisterStep → ServiceInput U)
    (username password name passwordHash : String) : Prop where
  valid : validateUsername username = .ok name
  strong : validatePassword svc.classes password = .ok ()
  admitted : (inputs .admission).refused = none
  looked : (inputs .find).refused = none
  free : w.users.findByUsername name = none
  hashed : svc.hasher.hashPassword (inputs .latch).salt password = .ok passwordHash
  counted : svc.autoAdminFirstUser = true → w.hasFirstUser = false → (inputs .count).refused = none
  created : (inputs .create).refused = none
  fresh : w.users.idToUsername.get? (inputs .latch).id = none

/-- **The row is left**: it is created, and its role is not assigned. -/
def LeavesRow (svc : AuthService J) (w : ServiceState U P) (inputs : RegisterStep → ServiceInput U)
    (username password : String) : Prop :=
  (inputs .assign).refused ≠ none ∧ ∃ name passwordHash, svc.Creates w inputs username password name passwordHash

/-- The database answers at every step. -/
def Recovered (inputs : RegisterStep → ServiceInput U) : Prop := ∀ step, (inputs step).refused = none

variable {svc : AuthService J} {w : ServiceState U P} {inputs : RegisterStep → ServiceInput U}
variable {username password name passwordHash : String}

/-- The user that the registration makes. -/
def newUser (inputs : RegisterStep → ServiceInput U) (name passwordHash : String) : UserRecord U :=
  ⟨(inputs .latch).id, name, passwordHash, true⟩

section Steps
variable (svc : AuthService J) (inputs : RegisterStep → ServiceInput U) (n : Nat) (w : ServiceState U P)

theorem runAlone_admit (username password : String) :
    svc.runAlone inputs (n + 1) w (.registerAdmit username password) =
      match validateUsername username with
      | .error e => (w, some (.error e))
      | .ok name =>
        match validatePassword svc.classes password with
        | .error e => (w, some (.error e))
        | .ok () =>
          match (inputs .admission).refused with
          | some e => (w, some (.error e))
          | none => svc.runAlone inputs n w (.registerFind name password) := by
  simp only [runAlone, next, ServiceCall.registerStep, registerAdmitStep]
  cases validateUsername username with
  | error e => rfl
  | ok name =>
    cases validatePassword svc.classes password with
    | error e => rfl
    | ok u =>
      cases (inputs .admission).refused with
      | some e => rfl
      | none => rfl

theorem runAlone_find (name password : String) :
    svc.runAlone inputs (n + 1) w (.registerFind name password) =
      match (inputs .find).refused with
      | some e => (w, some (.error e))
      | none =>
        match w.users.findByUsername name with
        | some _ => (w, some (.error (.validation "username already exists")))
        | none => svc.runAlone inputs n w (.registerLatch name password) := by
  simp only [runAlone, next, ServiceCall.registerStep, registerFindStep]
  cases (inputs .find).refused with
  | some e => rfl
  | none =>
    cases w.users.findByUsername name with
    | some user => rfl
    | none => rfl

theorem runAlone_count (user : UserRecord U) :
    svc.runAlone inputs (n + 1) w (.registerCount user) =
      match (inputs .count).refused with
      | some e => (w, some (.error e))
      | none => svc.runAlone inputs n w (.registerCreate user (decide (w.users.countUsers = 0))) := by
  simp only [runAlone, next, ServiceCall.registerStep, registerCountStep]
  cases (inputs .count).refused with
  | some e => rfl
  | none => rfl

theorem runAlone_latch (name password : String) :
    svc.runAlone inputs (n + 2) w (.registerLatch name password) =
      match svc.hasher.hashPassword (inputs .latch).salt password with
      | .error e => (w, some (.error (.other e)))
      | .ok passwordHash =>
        if svc.autoAdminFirstUser ∧ w.hasFirstUser = false then
          match (inputs .count).refused with
          | some e => ({ w with hasFirstUser := true }, some (.error e))
          | none => svc.runAlone inputs n { w with hasFirstUser := true }
              (.registerCreate (newUser inputs name passwordHash) (decide (w.users.countUsers = 0)))
        else svc.runAlone inputs (n + 1) w (.registerCreate (newUser inputs name passwordHash) false) := by
  rw [runAlone]
  simp only [next, ServiceCall.registerStep, registerLatchStep]
  cases svc.hasher.hashPassword (inputs .latch).salt password with
  | error e => rfl
  | ok passwordHash =>
    cases svc.autoAdminFirstUser with
    | false => rfl
    | true =>
      cases hlatch : w.hasFirstUser with
      | true => simp [ServiceState.goOn, newUser]
      | false =>
        simp only [if_true, Bool.false_eq_true, if_false, ServiceState.goOn, and_self]
        exact runAlone_count svc inputs n _ _

/-- From the creation on: the row is there whatever becomes of the role. -/
theorem runAlone_create (user : UserRecord U) (isFirst : Bool) :
    svc.runAlone inputs (n + 2) w (.registerCreate user isFirst) =
      match (inputs .create).refused with
      | some e => (w, some (.error e))
      | none =>
        match w.users.createUser user with
        | .error e => (w, some (.error e))
        | .ok users =>
          match (inputs .assign).refused with
          | some e => ({ w with users }, some (.error e))
          | none =>
            ({ w with users, assignments := w.assignments.assignRole (toText user.id) (svc.roleName isFirst) },
              some (.ok (.registered user))) := by
  simp only [runAlone, next, ServiceCall.registerStep, registerCreateStep, registerAssignStep]
  cases (inputs .create).refused with
  | some e => rfl
  | none =>
    cases w.users.createUser user with
    | error e => rfl
    | ok users =>
      dsimp only [ServiceState.goOn]
      cases (inputs .assign).refused with
      | some e => rfl
      | none => rfl

end Steps

/-- The registration returns an error with the table as it was. -/
def FailsClean (w : ServiceState U P) (r : ServiceState U P × Option (ServiceAnswer U)) : Prop :=
  (∃ e, r.2 = some (.error e)) ∧ r.1.users = w.users

/-- The registration has created the row, and the assignment of the role decides what it returns. -/
def EndsWithRow (inputs : RegisterStep → ServiceInput U) (name passwordHash : String)
    (r : ServiceState U P × Option (ServiceAnswer U)) : Prop :=
  r.1.users.findByUsername name = some (newUser inputs name passwordHash) ∧
    r.2 = match (inputs .assign).refused with
      | some e => some (.error e)
      | none => some (.ok (.registered (newUser inputs name passwordHash)))

/-- From the creation on, of a name that is free. -/
theorem create_cases (svc : AuthService J) (n : Nat) (isFirst : Bool) (hfree : w.users.findByUsername name = none) :
    FailsClean w (svc.runAlone inputs (n + 2) w (.registerCreate (newUser inputs name passwordHash) isFirst)) ∧
      ¬ ((inputs .create).refused = none ∧ w.users.idToUsername.get? (inputs .latch).id = none) ∨
    EndsWithRow inputs name passwordHash
        (svc.runAlone inputs (n + 2) w (.registerCreate (newUser inputs name passwordHash) isFirst)) ∧
      (inputs .create).refused = none ∧ w.users.idToUsername.get? (inputs .latch).id = none := by
  rw [runAlone_create]
  cases hcreate : (inputs .create).refused with
  | some e => exact Or.inl ⟨⟨⟨e, rfl⟩, rfl⟩, by simp⟩
  | none =>
    by_cases hid : w.users.idToUsername.get? (inputs .latch).id = none
    · obtain ⟨users, hok, hfound⟩ : ∃ users, w.users.createUser (newUser inputs name passwordHash) = .ok users ∧
          users.findByUsername name = some (newUser inputs name passwordHash) := UserTable.createUser_eq_ok hfree hid
      right
      rw [hok]
      cases hassign : (inputs .assign).refused with
      | some e => exact ⟨⟨hfound, by rw [hassign]⟩, rfl, hid⟩
      | none => exact ⟨⟨hfound, by rw [hassign]⟩, rfl, hid⟩
    · obtain ⟨e, herror⟩ : ∃ e, w.users.createUser (newUser inputs name passwordHash) = .error e :=
        UserTable.createUser_eq_error hid
      left
      rw [herror]
      exact ⟨⟨⟨e, rfl⟩, rfl⟩, fun h => hid h.2⟩

/-- From the latch on, of a name that is free. -/
theorem latch_cases (svc : AuthService J) (n : Nat) (password : String) (hfree : w.users.findByUsername name = none) :
    (FailsClean w (svc.runAlone inputs (n + 4) w (.registerLatch name password)) ∧
      ∀ username passwordHash, ¬ svc.Creates w inputs username password name passwordHash) ∨
    ∃ passwordHash, EndsWithRow inputs name passwordHash (svc.runAlone inputs (n + 4) w (.registerLatch name password)) ∧
      svc.hasher.hashPassword (inputs .latch).salt password = .ok passwordHash ∧
      (svc.autoAdminFirstUser = true → w.hasFirstUser = false → (inputs .count).refused = none) ∧
      (inputs .create).refused = none ∧ w.users.idToUsername.get? (inputs .latch).id = none := by
  rw [runAlone_latch]
  cases hhash : svc.hasher.hashPassword (inputs .latch).salt password with
  | error e => exact Or.inl ⟨⟨⟨.other e, rfl⟩, rfl⟩, fun _ _ h => by cases hhash.symm.trans h.hashed⟩
  | ok passwordHash =>
    dsimp only
    split_ifs with hcounts
    · cases hcount : (inputs .count).refused with
      | some e =>
        refine Or.inl ⟨⟨⟨e, rfl⟩, rfl⟩, fun _ _ h => ?_⟩
        exact absurd (hcount.symm.trans (h.counted hcounts.1 hcounts.2)) (by simp)
      | none =>
        rcases create_cases (w := { w with hasFirstUser := true }) svc n (decide (w.users.countUsers = 0)) hfree with
          ⟨hfails, hnot⟩ | ⟨hends, hcreate, hid⟩
        · exact Or.inl ⟨hfails, fun _ _ h => hnot ⟨h.created, h.fresh⟩⟩
        · exact Or.inr ⟨passwordHash, hends, rfl, fun _ _ => rfl, hcreate, hid⟩
    · rcases create_cases svc (n + 1) false hfree with ⟨hfails, hnot⟩ | ⟨hends, hcreate, hid⟩
      · exact Or.inl ⟨hfails, fun _ _ h => hnot ⟨h.created, h.fresh⟩⟩
      · exact Or.inr ⟨passwordHash, hends, rfl, fun h1 h2 => absurd ⟨h1, h2⟩ hcounts, hcreate, hid⟩

/-- **How a registration goes**: it fails with the table as it was, or it creates a row. -/
theorem register_cases (svc : AuthService J) (w : ServiceState U P) (inputs : RegisterStep → ServiceInput U)
    (username password : String) :
    (FailsClean w (svc.register w inputs username password) ∧
      ∀ name passwordHash, ¬ svc.Creates w inputs username password name passwordHash) ∨
    ∃ name passwordHash, EndsWithRow inputs name passwordHash (svc.register w inputs username password) ∧
      svc.Creates w inputs username password name passwordHash := by
  rw [register, runAlone_admit]
  cases hvalid : validateUsername username with
  | error e => exact Or.inl ⟨⟨⟨e, rfl⟩, rfl⟩, fun _ _ h => by cases hvalid.symm.trans h.valid⟩
  | ok name =>
    cases hstrong : validatePassword svc.classes password with
    | error e => exact Or.inl ⟨⟨⟨e, rfl⟩, rfl⟩, fun _ _ h => by cases hstrong.symm.trans h.strong⟩
    | ok u =>
      cases hadmit : (inputs .admission).refused with
      | some e => exact Or.inl ⟨⟨⟨e, rfl⟩, rfl⟩, fun _ _ h => by cases hadmit.symm.trans h.admitted⟩
      | none =>
        dsimp only
        rw [runAlone_find]
        cases hfind : (inputs .find).refused with
        | some e => exact Or.inl ⟨⟨⟨e, rfl⟩, rfl⟩, fun _ _ h => by cases hfind.symm.trans h.looked⟩
        | none =>
          dsimp only
          cases hfree : w.users.findByUsername name with
          | some user =>
            refine Or.inl ⟨⟨⟨_, rfl⟩, rfl⟩, fun name' _ h => ?_⟩
            obtain rfl := Except.ok.inj (hvalid.symm.trans h.valid)
            cases hfree.symm.trans h.free
          | none =>
            rcases latch_cases svc 0 password hfree with ⟨hfails, hnot⟩ | ⟨passwordHash, hends, hhash, hcount, hcreate, hid⟩
            · refine Or.inl ⟨hfails, fun name' passwordHash h => ?_⟩
              obtain rfl := Except.ok.inj (hvalid.symm.trans h.valid)
              exact hnot username passwordHash h
            · exact Or.inr ⟨name, passwordHash, hends, hvalid, hstrong, hadmit, hfind, hfree, hhash, hcount, hcreate, hid⟩

theorem register_returns (svc : AuthService J) (w : ServiceState U P) (inputs : RegisterStep → ServiceInput U)
    (username password : String) : (svc.register w inputs username password).2.isSome := by
  rcases register_cases svc w inputs username password with ⟨⟨⟨e, he⟩, -⟩, -⟩ | ⟨name, passwordHash, ⟨-, hans⟩, -⟩
  · rw [he]
    rfl
  · rw [hans]
    cases (inputs .assign).refused <;> rfl

/-- A row is left exactly where the registration returns an error and the table has changed. -/
theorem leavesRow_iff (svc : AuthService J) (w : ServiceState U P) (inputs : RegisterStep → ServiceInput U)
    (username password : String) :
    svc.LeavesRow w inputs username password ↔ (∃ e, (svc.register w inputs username password).2 = some (.error e)) ∧
      (svc.register w inputs username password).1.users ≠ w.users := by
  rcases register_cases svc w inputs username password with ⟨hfails, hnot⟩ | ⟨name, passwordHash, ⟨hrow, hans⟩, hcreates⟩
  · constructor
    · rintro ⟨-, name, passwordHash, h⟩
      exact absurd h (hnot name passwordHash)
    · rintro ⟨-, hne⟩
      exact absurd hfails.2 hne
  · have hne : (svc.register w inputs username password).1.users ≠ w.users := by
      intro h
      rw [h, hcreates.free] at hrow
      cases hrow
    cases hassign : (inputs .assign).refused with
    | none =>
      rw [hassign] at hans
      simp [LeavesRow, hassign, hans]
    | some e =>
      rw [hassign] at hans
      exact ⟨fun _ => ⟨⟨e, hans⟩, hne⟩, fun _ => ⟨by simp [hassign], name, passwordHash, hcreates⟩⟩

omit [UuidText U] in
/-- What would have been created before is created again where the table is as it was and the database answers. -/
theorem Creates.again {w' : ServiceState U P} (h : svc.Creates w inputs username password name passwordHash)
    (hrec : Recovered inputs) (husers : w'.users = w.users) :
    svc.Creates w' inputs username password name passwordHash where
  valid := h.valid
  strong := h.strong
  admitted := h.admitted
  looked := h.looked
  free := husers ▸ h.free
  hashed := h.hashed
  counted _ _ := hrec .count
  created := h.created
  fresh := husers ▸ h.fresh

/-- A registration whose row is created, by a database that answers, succeeds. -/
theorem register_ok_of_creates (h : svc.Creates w inputs username password name passwordHash) (hrec : Recovered inputs) :
    ∃ user, (svc.register w inputs username password).2 = some (.ok (.registered user)) := by
  rcases register_cases svc w inputs username password with ⟨-, hnot⟩ | ⟨name', passwordHash', ⟨-, hans⟩, -⟩
  · exact absurd h (hnot name passwordHash)
  · rw [hrec .assign] at hans
    exact ⟨_, hans⟩

/-- **Atomic but for the role**: a registration that returns an error leaves the user table as it was unless its row was
created and the assignment of the role failed; and it can be repeated, once the database answers, exactly then. -/
theorem register_atomic_iff (svc : AuthService J) (w : ServiceState U P) (inputs : RegisterStep → ServiceInput U)
    (username password : String) :
    (svc.register w inputs username password).2.isSome ∧
    ((∀ e, (svc.register w inputs username password).2 = some (.error e) →
      (svc.register w inputs username password).1.users = w.users) ↔ ¬ svc.LeavesRow w inputs username password) ∧
    ∀ e, (svc.register w inputs username password).2 = some (.error e) →
      ∀ inputs', Recovered inputs' →
        (∃ name passwordHash, svc.Creates w inputs' username password name passwordHash) →
          ((∃ user, (svc.register (svc.register w inputs username password).1 inputs' username password).2 =
            some (.ok (.registered user))) ↔ ¬ svc.LeavesRow w inputs username password) := by
  refine ⟨register_returns svc w inputs username password, ?_, ?_⟩
  · rw [leavesRow_iff]
    constructor
    · rintro h ⟨⟨e, he⟩, hne⟩
      exact hne (h e he)
    · intro h e he
      by_contra hne
      exact h ⟨⟨e, he⟩, hne⟩
  · rintro e he inputs' hrec ⟨name, passwordHash, hcreates⟩
    constructor
    · rintro ⟨user, hok⟩ ⟨-, name', passwordHash', hcreates'⟩
      -- the name is taken by the row left behind
      obtain rfl := Except.ok.inj (hcreates.valid.symm.trans hcreates'.valid)
      rcases register_cases svc w inputs username password with ⟨-, hnot⟩ | ⟨taken, hash, ⟨hrow, -⟩, hfirst⟩
      · exact hnot _ _ hcreates'
      · obtain rfl := Except.ok.inj (hcreates.valid.symm.trans hfirst.valid)
        rcases register_cases svc (svc.register w inputs username password).1 inputs' username password with
          ⟨⟨⟨e', he'⟩, -⟩, -⟩ | ⟨again, hash', -, hsecond⟩
        · cases he'.symm.trans hok
        · obtain rfl := Except.ok.inj (hcreates.valid.symm.trans hsecond.valid)
          cases hrow.symm.trans hsecond.free
    · intro hleaves
      have husers : (svc.register w inputs username password).1.users = w.users := by
        by_contra hne
        exact hleaves ((leavesRow_iff svc w inputs username password).2 ⟨⟨e, he⟩, hne⟩)
      exact register_ok_of_creates (hcreates.again hrec husers) hrec

/-- The database fails at one step of Ann's registration, if any. -/
def failingAt (failing : Option RegisterStep) (step : RegisterStep) : ServiceInput String :=
  townInput "u-1" (if some step = failing then some (.other "database error") else none)

theorem register_atomic_iff_count :
    (townService.register (freshService : ServicePool String String).shared (failingAt (some .count)) "ann"
      "Passw0rd-ann").1.users = (freshService : ServicePool String String).shared.users := by
  refine (register_atomic_iff townService (freshService : ServicePool String String).shared (failingAt (some .count)) "ann"
    "Passw0rd-ann").2.1.2 ?_ (.other "database error") rfl
  rintro ⟨hassign, -⟩
  exact hassign rfl

/-- Ann's role is not assigned: the registration fails, and the repeated one finds her name taken. -/
theorem register_not_atomic_assign :
    ¬ ∀ (w : ServiceState String String) (inputs : RegisterStep → ServiceInput String) (username password : String) e,
      (townService.register w inputs username password).2 = some (.error e) →
        (townService.register w inputs username password).1.users = w.users := by
  intro h
  have husers := h (freshService : ServicePool String String).shared (failingAt (some .assign)) "ann" "Passw0rd-ann"
    (.other "database error") rfl
  have hfound := congrArg (fun table => (table.findByUsername "ann").isSome) husers
  revert hfound
  decide +kernel

end AuthService

end Service
end Kirino
