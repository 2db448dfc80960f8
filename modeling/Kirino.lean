import Kirino.Lib.HashMap
import Kirino.Lib.Tally
import Kirino.Lib.Grouping
import Kirino.Lib.Records
import Kirino.Lib.Machine
import Kirino.Lib.Entries
import Kirino.Lib.Threads
import Kirino.Lib.Serial
import Kirino.Lib.WriteBack
import Kirino.Lib.SingleUse
import Kirino.Lib.OneTime
import Kirino.Lib.Lease
import Kirino.Lib.CasLoop
import Kirino.Lib.MachineInt
import Kirino.Lib.Instants
import Kirino.Lib.Fallible
import Kirino.Lib.Text
import Kirino.Lib.RowReader
import Kirino.Lib.Least
import Kirino.Lib.BoundedHeap
import Kirino.Lib.StableSort
import Kirino.Lib.Shuffle
import Kirino.Lib.Cbor
import Kirino.Lib.FixedWindow
import Kirino.Lib.Reach
import Kirino.Lib.Sextets
import Kirino.Lib.Walk
import Kirino.Lib.PrefixBits
import Kirino.Lib.IpText
import Kirino.Utils.Base64Url
import Kirino.Utils.ConstantTime
import Kirino.Utils.Base64Exact
import Kirino.Utils.WebCodec
import Kirino.Rbac.Traits
import Kirino.Rbac.Permission
import Kirino.Rbac.PermissionMacro
import Kirino.Rbac.Hierarchy
import Kirino.Rbac.RoleChain
import Kirino.Rbac.CycleDetection
import Kirino.Rbac.Cache
import Kirino.Rbac.CacheRuns
import Kirino.Rbac.Engine
import Kirino.Rbac.Store.Memory
import Kirino.Rbac.Transparency
import Kirino.Rbac.StoreError
import Kirino.Rbac.Interleaving
import Kirino.Rbac.Invalidation
import Kirino.Rbac.TornGrant
import Kirino.Rbac.Listing
import Kirino.Rbac.Separation
import Kirino.Rbac.IdentitySubject
import Kirino.Rbac.GrantResolution
import Kirino.Rbac.Scope
import Kirino.Rbac.ScopedResolution
import Kirino.Rbac.WorkspaceGuard
import Kirino.Rbac.Constraints
import Kirino.Rbac.ConstraintValidator
import Kirino.Rbac.AssignmentRuns
import Kirino.Rbac.ConstraintStore
import Kirino.Rbac.SessionManager
import Kirino.Rbac.SessionDuty
import Kirino.Rbac.SessionVersions
import Kirino.Rbac.DbSessionStore
import Kirino.Rbac.DbSessionManager
import Kirino.Rbac.DbVersions
import Kirino.Rbac.DbActivation
import Kirino.Rbac.ManagerCalls
import Kirino.Rbac.ManagerAgreement
import Kirino.Rbac.Dynamic.Verdict
import Kirino.Rbac.Dynamic.Domain
import Kirino.Rbac.Dynamic.Confinement
import Kirino.Rbac.Dynamic.Policy
import Kirino.Rbac.Dynamic.Anomaly
import Kirino.Rbac.Dynamic.Baseline
import Kirino.Rbac.Dynamic.Trust
import Kirino.Rbac.Dynamic.Retention
import Kirino.Rbac.Dynamic.Risk
import Kirino.Rbac.Dynamic.Arbiter
import Kirino.Rbac.Dynamic.Bands
import Kirino.Rbac.Dynamic.TrustRuns
import Kirino.Rbac.Dynamic.Isolation
import Kirino.Rbac.Audit.Sink
import Kirino.Rbac.Audit.Engine
import Kirino.Rbac.Audit.Conditions
import Kirino.Rbac.Audit.Cooldown
import Kirino.Rbac.Audit.Totality
import Kirino.Rbac.Audit.Analysis
import Kirino.Rbac.Audit.Logger
import Kirino.Session.Token
import Kirino.Session.Manager
import Kirino.Session.Acceptance
import Kirino.Session.Expiry
import Kirino.Session.KeySet
import Kirino.Session.PlainCrates
import Kirino.Session.KeyPinning
import Kirino.Session.Agreement
import Kirino.Session.Rotation
import Kirino.Session.OneShot
import Kirino.Session.OneShotRuns
import Kirino.Session.Revocation
import Kirino.Session.RefreshChain
import Kirino.Session.Presence
import Kirino.Session.Store
import Kirino.Session.Middleware
import Kirino.Auth.Credential
import Kirino.Auth.RevocationLife
import Kirino.Auth.DbRevocation
import Kirino.Auth.Visitor
import Kirino.Auth.VisitorRuns
import Kirino.Auth.Pow
import Kirino.Auth.PowRuns
import Kirino.Auth.Webauthn.CborWalk
import Kirino.Auth.Webauthn.CborExtent
import Kirino.Auth.Webauthn.AuthData
import Kirino.Auth.Webauthn.AssertionLegacy
import Kirino.Auth.Webauthn.Attestation
import Kirino.Auth.Webauthn.ClientData
import Kirino.Auth.Webauthn.Assertion
import Kirino.Auth.Webauthn.Challenge
import Kirino.Auth.Webauthn.ChallengeRuns
import Kirino.Service.Users
import Kirino.Service.UserDirectory
import Kirino.Service.Validation
import Kirino.Service.Login
import Kirino.Service.FirstUser
import Kirino.Service.Registration
import Kirino.Service.PasswordChange
import Kirino.Service.Accounts
import Kirino.Service.AccountEnds
import Kirino.Service.RateLimit
import Kirino.Service.Lockout
import Kirino.Service.Guessing
import Kirino.Service.NetworkSource
import Kirino.Auth.Captcha
import Kirino.Auth.DynamicPassword
import Kirino.Auth.Whitelist
import Kirino.Auth.OneTimeToken
import Kirino.Auth.StaticPassword
import Kirino.Rbac.PasswordPolicy
import Kirino.Service.CodeStore
import Kirino.Invitations.Store
import Kirino.Invitations.StoreRuns
import Kirino.Invitations.Window
import Kirino.Invitations.Lifetime
import Kirino.Invitations.Code
