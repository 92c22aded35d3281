import KeycloakAuth.Realm

namespace KeycloakAuth

/-- A Keycloak that behaves as documented. It has accounts with ids of their own; the password grant takes its
`username` for an address or for a username, as the realm is set, and refuses a wrong password and an account
that is disabled or not set up; the admin API lists the accounts with an address and reports the flag `enabled`
as it is. -/
structure Directory {κ : Type} (server : KeycloakServer κ) where
  accounts : κ → List Account
  loginWithEmailAllowed : κ → Bool
  duplicateEmailsAllowed : κ → Bool
  admitted : κ → Account → Bool
  admitted_enabled : ∀ state account, admitted state account = true → account.enabled = true
  representation : κ → Account → KcUserRepresentation
  credentials : ∀ state, ∃ token, server.clientCredentials state = .ok token
  grants : ∀ state name password, server.passwordGrant state name password = .ok () ↔ ∃ account,
    Account.resolve (accounts state) (loginWithEmailAllowed state && !duplicateEmailsAllowed state) name =
      some account ∧ account.password = password ∧ admitted state account = true
  lists : ∀ state email, server.usersByEmail state email =
    .ok (((accounts state).filter fun account => account.email = email).map (representation state))
  reports : ∀ state account, (representation state account).id = some account.id ∧
    (representation state account).enabled = some account.enabled

namespace Directory
variable {κ : Type} {server : KeycloakServer κ} (directory : Directory server) (state : κ)

def loginByEmail : Bool := directory.loginWithEmailAllowed state && !directory.duplicateEmailsAllowed state

/-- The account whose password the grant verifies. -/
def resolve (name : String) : Option Account :=
  Account.resolve (directory.accounts state) (directory.loginByEmail state) name

/-- The account that is listed first under an address. -/
def listed (email : String) : Option Account := Account.withEmail (directory.accounts state) email

theorem listed_eq_some {found : KcUserRepresentation} {others : List KcUserRepresentation} {email : String}
    (users : server.usersByEmail state email = .ok (found :: others)) :
    ∃ first, directory.listed state email = some first ∧ found = directory.representation state first := by
  rw [directory.lists, Except.ok.injEq] at users
  obtain ⟨first, rest, split, same, -⟩ := List.map_eq_cons_iff.mp users
  refine ⟨first, ?_, same.symm⟩
  rw [listed, Account.withEmail, ← List.head?_filter, split]
  rfl

theorem usersByEmail_of_listed {email : String} {first : Account}
    (found : directory.listed state email = some first) :
    ∃ others, server.usersByEmail state email = .ok (directory.representation state first :: others) := by
  rw [listed, Account.withEmail, ← List.head?_filter] at found
  obtain ⟨rest, split⟩ := List.head?_eq_some_iff.mp found
  refine ⟨rest.map (directory.representation state), ?_⟩
  rw [directory.lists, split]
  rfl

end Directory

theorem Realm.passwordGrant_ok {realm : Realm} {name password : String} :
    realm.passwordGrant name password = .ok () ↔ ∃ account,
      Account.resolve realm.accounts realm.loginByEmail name = some account ∧ account.password = password ∧
        account.enabled = true := by
  unfold passwordGrant
  cases Account.resolve realm.accounts realm.loginByEmail name with
  | none => simp
  | some account =>
    by_cases right : account.password = password
    · cases enabled : account.enabled <;> simp [right, enabled]
    · simp [right]

/-- The computable realm behaves as documented. -/
def Realm.directory : Directory Realm.server where
  accounts := Realm.accounts
  loginWithEmailAllowed := Realm.loginWithEmailAllowed
  duplicateEmailsAllowed := Realm.duplicateEmailsAllowed
  admitted _ := Account.enabled
  admitted_enabled _ _ enabled := enabled
  representation _ := Account.representation
  credentials _ := ⟨_, rfl⟩
  grants _ _ _ := Realm.passwordGrant_ok
  lists _ _ := rfl
  reports _ _ := ⟨rfl, rfl⟩

end KeycloakAuth
