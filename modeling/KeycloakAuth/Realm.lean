import KeycloakAuth.Service
import KeycloakAuth.Async.Sequential

namespace KeycloakAuth
open Async

structure Account where
  id : String
  username : String
  email : String
  password : String
  enabled : Bool
  emailVerified : Bool
  named : id ≠ ""
deriving DecidableEq, Repr

namespace Account

def representation (account : Account) : KcUserRepresentation where
  id := some account.id
  username := some account.username
  email := some account.email
  enabled := some account.enabled
  emailVerified := some account.emailVerified
  createdTimestamp := some 0
  attributes := none

def withUsername (accounts : List Account) (name : String) : Option Account :=
  accounts.find? fun account => account.username = name

/-- The first of the accounts with that address, in the order in which the admin API lists them. -/
def withEmail (accounts : List Account) (email : String) : Option Account :=
  accounts.find? fun account => account.email = email

/-- The account that a login name stands for. A name that looks like an e-mail address is one first,
where users can log in by e-mail. -/
def resolve (accounts : List Account) (loginByEmail : Bool) (name : String) : Option Account :=
  if loginByEmail ∧ name.toList.contains '@' then (withEmail accounts name).or (withUsername accounts name)
  else withUsername accounts name

end Account

/-- A realm that is small enough to compute with. -/
structure Realm where
  accounts : List Account
  loginWithEmailAllowed : Bool
  duplicateEmailsAllowed : Bool
deriving DecidableEq, Repr

namespace Realm

/-- Where addresses need not be unique, nobody can log in by e-mail. -/
def loginByEmail (realm : Realm) : Bool := realm.loginWithEmailAllowed && !realm.duplicateEmailsAllowed

def invalidGrant (status : Nat) (description : String) : HttpErrorResponse :=
  ⟨status, some ⟨some "invalid_grant", some description, none⟩⟩

def notFound : HttpErrorResponse := ⟨404, some ⟨some "User not found", none, none⟩⟩

def passwordGrant (realm : Realm) (username password : String) : Except HttpErrorResponse Unit :=
  match Account.resolve realm.accounts realm.loginByEmail username with
  | none => .error (invalidGrant 401 "Invalid user credentials")
  | some account =>
    if account.password ≠ password then .error (invalidGrant 401 "Invalid user credentials")
    else if !account.enabled then .error (invalidGrant 400 "Account disabled")
    else .ok ()

def usersByEmail (realm : Realm) (email : String) : Except HttpErrorResponse (List KcUserRepresentation) :=
  .ok ((realm.accounts.filter fun account => account.email = email).map Account.representation)

def userById (realm : Realm) (id : String) : Except HttpErrorResponse KcUserRepresentation :=
  match realm.accounts.find? fun account => account.id = id with
  | none => .error notFound
  | some account => .ok account.representation

def update (realm : Realm) (id : String) (change : Account → Account) : Except HttpErrorResponse Realm :=
  if realm.accounts.any fun account => account.id = id then
    .ok { realm with accounts :=
      realm.accounts.map fun account => if account.id = id then change account else account }
  else .error notFound

def createUser (realm : Realm) (user : NewUser) : Except HttpErrorResponse Realm :=
  if realm.accounts.any fun account => account.username = user.username then
    .error ⟨409, some ⟨none, none, some "User exists with same username"⟩⟩
  else if !realm.duplicateEmailsAllowed && realm.accounts.any fun account => account.email = user.email then
    .error ⟨409, some ⟨none, none, some "User exists with same email"⟩⟩
  else
    let created : Account := {
      id := "user " ++ user.username
      username := user.username
      email := user.email
      password := user.password
      enabled := user.enabled
      emailVerified := user.emailVerified
      named := fun none => by simpa using congrArg String.toList none }
    .ok { realm with accounts := realm.accounts ++ [created] }

theorem userById_id {realm : Realm} {id : String} {user : KcUserRepresentation}
    (found : realm.userById id = .ok user) : user.id = some id := by
  unfold userById at found
  split at found
  · cases found
  · rename_i account looked
    cases found
    have named := List.find?_some looked
    simpa [Account.representation] using named

theorem usersByEmail_id {realm : Realm} {email : String} {users : List KcUserRepresentation}
    (listed : usersByEmail realm email = .ok users) : ∀ user ∈ users, ∃ id, user.id = some id ∧ id ≠ "" := by
  cases listed
  intro user member
  obtain ⟨account, _, rfl⟩ := List.mem_map.mp member
  exact ⟨account.id, rfl, account.named⟩

/-- The realm as a server. -/
def server : KeycloakServer Realm where
  clientCredentials _ := .ok ⟨"admin", 60⟩
  passwordGrant := passwordGrant
  usersByEmail := usersByEmail
  userById := userById
  createUser := createUser
  resetPassword realm id value := realm.update id fun account => { account with password := value }
  sendVerifyEmail realm id := (realm.userById id).map fun _ => ()
  logout realm _ := .ok realm
  userById_id _ _ _ found := userById_id found
  usersByEmail_id _ _ _ listed := usersByEmail_id listed

end Realm

namespace Sample

def platform : Platform where
  toLowerCase text := String.ofList (text.toList.map Char.toLower)
  totpVerify _ code _ := code = "123456"

def options : Deployment where
  jwt := ⟨⟨"access secret", 900⟩, ⟨"refresh secret", 604800⟩⟩
  maxAttempts := none
  duration := none
  baseUrl := "https://app"
  requireEmailVerification := false

def ann : Account := ⟨"ann", "ann", "ann@mail", "ann password", true, true, by decide⟩

def realm : Realm := ⟨[ann], true, false⟩

abbrev system := authSystem Realm.server platform options

/-- The second at which the sample runs start. -/
def start : AuthConfig Realm := .start 1000 (.fresh realm)

def promptly : Schedule Plan := fun _ => (0, .good)

/-- The refresh token signed for an account at a clock reading. -/
def session (account : Account) (now : Nat) : Str :=
  let user := KeycloakAuthProvider.kcUserToUser account.representation now
  .jwt options.jwt.refreshToken.secret (JwtTokenService.claims (KeycloakAuthProvider.userPayload user) .refresh
    options.jwt.refreshToken.expiresIn now)

/-- Ann has logged in. -/
def loggedIn : AuthConfig Realm := system.serve start promptly (.login "ann@mail" "ann password")

theorem loggedIn_reach : system.Reach anyEvent start loggedIn := System.serve_reach _ _ _

theorem loggedIn_quiet : loggedIn.Quiet := System.serve_quiet _ _ (by simp [start, Config.start, Config.Quiet])

/-- The configuration that a list of events leads to. -/
def after (cfg : AuthConfig Realm) (events : List (AuthEvent Realm)) : AuthConfig Realm :=
  (system.run cfg events).getD cfg

theorem after_reach {permitted : AuthConfig Realm → AuthEvent Realm → Prop} {cfg : AuthConfig Realm}
    {events : List (AuthEvent Realm)} (each : ∀ event ∈ events, ∀ cfg, permitted cfg event)
    (runs : (system.run cfg events).isSome = true) : system.Reach permitted cfg (after cfg events) := by
  obtain ⟨next, ran⟩ := Option.isSome_iff_exists.mp runs
  rw [after, ran, Option.getD_some]
  exact System.Reach.of_run .start each ran

theorem after_reach_allows {permitted : AuthConfig Realm → AuthEvent Realm → Prop}
    [∀ cfg event, Decidable (permitted cfg event)] {cfg : AuthConfig Realm} {events : List (AuthEvent Realm)}
    (allowed : system.allows permitted cfg events = true) : system.Reach permitted cfg (after cfg events) := by
  obtain ⟨next, ran, reach⟩ := System.Reach.of_allows .start allowed
  rwa [after, ran]

end Sample

end KeycloakAuth
