import KeycloakAuth.Directory
import KeycloakAuth.Provider

namespace KeycloakAuth
open Async KeycloakAuthProvider

section
variable {κ : Type} {server : KeycloakServer κ} (directory : Directory server) (platform : Platform)
  (options : Deployment)

/-- Whoever is let in is the account whose password was verified: its id is returned and signed into both
tokens. -/
def PrincipalVerified (state : κ) (email : String) : Prop :=
  ∀ plan now request (world : World κ) password response, world.keycloak = state →
    (answerAuth server platform options plan now request (.authenticate email password) world).1 = .ok response →
    ∃ account, directory.resolve state email = some account ∧ account.password = password ∧
      response.user.id = account.id ∧ response.accessToken.subject = some account.id ∧
      response.refreshToken.subject = some account.id

/-- The e-mail stands for the account by its address, or the account with that username is the one listed
first under it. -/
def OneAccount (state : κ) (email : String) : Prop :=
  directory.loginByEmail state = true ∧ email.toList.contains '@' = true ∨
    ∀ account first, Account.withUsername (directory.accounts state) email = some account →
      directory.admitted state account = true → directory.listed state email = some first → account.id = first.id

variable {directory platform options} {state : κ} {email : String}

theorem resolve_listed (byEmail : directory.loginByEmail state = true ∧ email.toList.contains '@' = true)
    {first : Account} (listed : directory.listed state email = some first) :
    directory.resolve state email = some first := by
  unfold Directory.resolve Account.resolve
  rw [if_pos byEmail]
  unfold Directory.listed at listed
  rw [listed]
  rfl

theorem resolve_username (otherwise : ¬ (directory.loginByEmail state = true ∧ email.toList.contains '@' = true)) :
    directory.resolve state email = Account.withUsername (directory.accounts state) email := by
  unfold Directory.resolve Account.resolve
  rw [if_neg otherwise]

variable (directory) in
/-- The principal is the account listed first under the address, whichever account the grant has verified. -/
theorem authenticate_principal {plan : Plan} {now request : Nat} {world : World κ} {password : String}
    {response : AuthenticateResponse} (answered : (answerAuth server platform options plan now request
      (.authenticate email password) world).1 = .ok response) :
    ∃ account first, directory.resolve world.keycloak email = some account ∧ account.password = password ∧
      directory.admitted world.keycloak account = true ∧ directory.listed world.keycloak email = some first ∧
      response.user.id = first.id ∧ response.accessToken.subject = some first.id ∧
      response.refreshToken.subject = some first.id := by
  obtain ⟨-, ok⟩ := answerAuth_authenticate server platform options plan now request world email password
  obtain ⟨granted, found, others, users, rfl⟩ := ok response answered
  obtain ⟨account, resolved, right, admitted⟩ := (directory.grants ..).mp granted
  obtain ⟨first, listed, rfl⟩ := directory.listed_eq_some _ users
  have named : (kcUserToUser (directory.representation world.keycloak first) now).id = first.id := by
    simp [kcUserToUser, (directory.reports world.keycloak first).1]
  exact ⟨account, first, resolved, right, admitted, listed, named, congrArg some named, congrArg some named⟩

theorem principal_verified_iff :
    PrincipalVerified directory platform options state email ↔ OneAccount directory state email := by
  constructor
  · intro verified
    by_cases byEmail : directory.loginByEmail state = true ∧ email.toList.contains '@' = true
    · exact .inl byEmail
    refine .inr fun account first named admitted listed => ?_
    have resolved : directory.resolve state email = some account := (resolve_username byEmail).trans named
    obtain ⟨others, users⟩ := directory.usersByEmail_of_listed state listed
    have granted := (directory.grants state email account.password).mpr ⟨account, resolved, rfl, admitted⟩
    have answered := answerAuth_authenticate_works server platform options .good 0 0 ⟨.empty, state, none⟩
      (fun _ => rfl) (directory.credentials state) granted users
    obtain ⟨same, resolved', _, principal, _⟩ := verified _ _ _ _ _ _ rfl answered
    cases Option.some.inj (resolved.symm.trans resolved')
    rw [← principal]
    simp [authenticated, kcUserToUser, (directory.reports state first).1]
  · rintro one plan now request world password response rfl answered
    obtain ⟨account, first, resolved, right, admitted, listed, principal⟩ :=
      authenticate_principal directory answered
    have same : account.id = first.id := by
      rcases one with byEmail | sameName
      · cases Option.some.inj (resolved.symm.trans (resolve_listed byEmail listed))
        rfl
      · by_cases byEmail : directory.loginByEmail world.keycloak = true ∧ email.toList.contains '@' = true
        · cases Option.some.inj (resolved.symm.trans (resolve_listed byEmail listed))
          rfl
        · exact sameName account first ((resolve_username byEmail).symm.trans resolved) admitted listed
    rw [← same] at principal
    exact ⟨account, resolved, right, principal⟩

end

namespace Sample

/-- Eve has registered under Ann's address as her username. -/
def eve : Account := ⟨"eve", "ann@mail", "eve@mail", "eve password", true, true, by decide⟩

/-- A realm in which users log in by username. -/
def usernames : Realm := ⟨[ann, eve], false, false⟩

theorem principal_not_verified :
    ¬ ∀ state email, PrincipalVerified Realm.directory platform options state email := by
  intro verified
  obtain ⟨account, resolved, _, principal, _⟩ := verified usernames "ann@mail" .good
    1000 0 ⟨.empty, usernames, none⟩ "eve password" _ rfl rfl
  cases (show Realm.directory.resolve usernames "ann@mail" = some eve from rfl).symm.trans resolved
  have same : "ann" = "eve" := principal
  exact absurd same (by decide)

end Sample

end KeycloakAuth
