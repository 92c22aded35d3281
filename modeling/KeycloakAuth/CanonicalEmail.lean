import KeycloakAuth.UseCases

namespace KeycloakAuth
open Async Service

/-- The e-mail address in a call to the provider. -/
def Call.emailGiven : Call → Option String
  | .auth (.register req) => some req.email
  | .auth (.authenticate email _) => some email
  | .auth (.getUserByEmail email) => some email
  | _ => none

def Call.onlyEmail (value : String) (call : Call) : Prop := ∀ email, call.emailGiven = some email → email = value

/-- The program hands the provider an address, and never another one than `value`. -/
structure Hands {α : Type} (program : Service α) (value : String) : Prop where
  only : program.Only (Call.onlyEmail value)
  given : ¬ program.Only fun call => call.emailGiven = none

namespace Hands
variable {α : Type} {program : Service α} {value : String}

/-- There is one such address at most. -/
theorem unique {other : String} (hands : Hands program value) (also : Hands program other) : value = other := by
  by_contra different
  refine hands.given (hands.only.both also.only fun call first second => ?_)
  cases given : call.emailGiven with
  | none => rfl
  | some email => exact (different ((first email given).symm.trans (second email given))).elim

end Hands

section
variable (platform : Platform) (raw : String)

theorem onlyEmail_none {value : String} {call : Call} (none : call.emailGiven = none) : call.onlyEmail value := by
  intro email given
  cases none.symm.trans given

theorem onlyEmail_own {value : String} {call : Call} (own : call.emailGiven = some value) :
    call.onlyEmail value := by
  intro email given
  exact Option.some.inj (given.symm.trans own)

theorem saveRecord_onlyEmail (value userId : String) (type : TokenType) (token : Str) (ttlMs : Nat) :
    (saveRecord userId type token ttlMs).Only (Call.onlyEmail value) := by
  intro id expiry created
  exact .perform (onlyEmail_none rfl)

theorem hands_register {value username password : String} (valid : Email.create platform raw = .ok value)
    (strong : Password.create password = .ok password) (requireEmailVerification : Bool) :
    Hands (RegisterUseCase.execute platform requireEmailVerification raw username password) raw := by
  simp only [RegisterUseCase.execute, valid, strong, authProvider, Program.ofExcept_ok, Program.bind_eq,
    Program.done_bind]
  refine ⟨.bind (.perform (onlyEmail_own rfl)) fun user => ?_, fun none => Option.some_ne_none raw none.1⟩
  split
  · exact .bind (.perform (onlyEmail_none rfl)) fun _ => trivial
  · trivial

/-- `ForgotPasswordUseCase` and `SendMagicLinkUseCase` look the address up as it comes. -/
theorem hands_sendLink (type : TokenType) (ttlMs : Nat) (template : EmailTemplate) (page message : String) :
    Hands (sendLink type ttlMs template page message raw) raw := by
  refine ⟨.bind (.attempt (.bind (.perform (onlyEmail_own rfl)) fun _ => trivial) fun error => ?_) fun lookup => ?_,
    fun none => Option.some_ne_none raw none.1⟩
  · split <;> trivial
  · cases lookup with
    | none => trivial
    | some user =>
      refine .bind (fun nonce => trivial) fun token => .bind
        (saveRecord_onlyEmail raw user.id type token ttlMs) fun _ =>
        .bind (.perform (onlyEmail_none rfl)) fun mail => ?_
      exact .bind (.perform (onlyEmail_none rfl)) fun _ => trivial

theorem recordFailedAttempt_onlyEmail (self : LoginUseCase) (failedKey lockKey value : String) :
    (self.recordFailedAttempt failedKey lockKey).Only (Call.onlyEmail value) := by
  refine .bind (.bind (.perform (onlyEmail_none rfl)) fun _ _ => trivial) fun attempts => .bind (fun now => trivial)
    fun updatedAt => .bind (.perform (onlyEmail_none rfl)) fun _ => ?_
  split
  · refine .bind (fun now => trivial) fun date => ?_
    split
    · trivial
    · exact .perform (onlyEmail_none rfl)
  · trivial

theorem issue_onlyEmail (self : LoginUseCase) (email value : String) (result : AuthenticateResponse) :
    (self.issue email result).Only (Call.onlyEmail value) := by
  refine .bind (.perform (onlyEmail_none rfl)) fun _ => .bind (.perform (onlyEmail_none rfl)) fun _ => ?_
  refine .bind (.perform (onlyEmail_none rfl)) fun secret => ?_
  split
  · refine .bind (fun nonce => trivial) fun token => ?_
    exact .bind (saveRecord_onlyEmail value result.user.id .preAuth2FA token _) fun _ => trivial
  · exact .bind (saveRecord_onlyEmail value result.user.id .refreshToken _ _) fun _ => trivial

theorem checkLock_onlyEmail (failedKey lockKey value : String) :
    (LoginUseCase.checkLock failedKey lockKey).Only (Call.onlyEmail value) := by
  refine .bind (.perform (onlyEmail_none rfl)) fun lockedUntil => ?_
  split
  · trivial
  · refine .bind (fun now => trivial) fun now => ?_
    split
    · trivial
    · exact .bind (.perform (onlyEmail_none rfl)) fun _ => .perform (onlyEmail_none rfl)

/-- `LoginUseCase` normalises the address by its own code. -/
theorem hands_login (self : LoginUseCase) (password : String) :
    Hands (self.execute platform raw password) (normalize platform raw) := by
  constructor
  · refine .bind (checkLock_onlyEmail ..) fun _ => .bind (.attempt (.perform (onlyEmail_own rfl)) fun error => ?_)
      fun result => issue_onlyEmail ..
    split
    · exact .bind (recordFailedAttempt_onlyEmail self _ _ _) fun _ => trivial
    · trivial
  · intro none
    -- without a lock, the password is checked
    have asked := none.2 (.ok .none)
    exact Option.some_ne_none _ asked.1

end

/-- The four use cases that are given `raw` all hand the provider `value`. -/
structure AllHand (platform : Platform) (raw value : String) : Prop where
  register : ∀ requireEmailVerification username password, Password.create password = .ok password →
    Hands (RegisterUseCase.execute platform requireEmailVerification raw username password) value
  login : ∀ (self : LoginUseCase) password, Hands (self.execute platform raw password) value
  forgotPassword : ∀ baseUrl, Hands (ForgotPasswordUseCase.execute baseUrl raw) value
  sendMagicLink : ∀ baseUrl, Hands (SendMagicLinkUseCase.execute baseUrl raw) value

/-- A provider that compares addresses exactly: it knows an account by the address it was registered with. -/
structure ExactProvider (σ : Type) where
  answer : (call : AuthCall) → σ → Except Thrown call.Ans × σ
  knows : σ → String → Prop
  register : ∀ req state user after, answer (.register req) state = (.ok user, after) →
    ∀ email, knows after email ↔ email = req.email ∨ knows state email
  getUserByEmail : ∀ email state, (∃ user, (answer (.getUserByEmail email) state).1 = .ok user) ↔ knows state email
  authenticate : ∀ email password state result, (answer (.authenticate email password) state).1 = .ok result →
    knows state email

namespace Sample

/-- A provider that keeps its accounts, with their passwords, in a list. -/
def listing : ExactProvider (List (User × String)) where
  answer
    | .register req, accounts =>
      let user : User := ⟨req.email, req.email, req.username, req.emailVerified = some true, true, .ofMs 0, none⟩
      (.ok user, (user, req.password) :: accounts)
    | .authenticate email password, accounts =>
      match accounts.find? fun account => account.1.email = email ∧ account.2 = password with
      | some account => (.ok ⟨.lit "access", .lit "refresh", 900, account.1⟩, accounts)
      | none => (.error (.domain .invalidCredentials "Invalid credentials"), accounts)
    | .getUserByEmail email, accounts =>
      match accounts.find? fun account => account.1.email = email with
      | some account => (.ok account.1, accounts)
      | none => (.error (.domain .userNotFound "User not found"), accounts)
    | _, accounts => (.error (.error "Not implemented"), accounts)
  knows accounts email := ∃ account ∈ accounts, account.1.email = email
  register req accounts user after answered email := by
    cases answered
    simp [eq_comm]
  getUserByEmail email accounts := by
    dsimp only
    cases found : accounts.find? fun account => account.1.email = email with
    | none => simpa using found
    | some account =>
      exact iff_of_true ⟨_, rfl⟩ ⟨account, List.mem_of_find?_eq_some found, by simpa using List.find?_some found⟩
  authenticate email password accounts result answered := by
    dsimp only at answered
    cases found : accounts.find? fun account => account.1.email = email ∧ account.2 = password with
    | none =>
      rw [found] at answered
      cases answered
    | some account =>
      have same : account.1.email = email ∧ account.2 = password := by simpa using List.find?_some found
      exact ⟨account, List.mem_of_find?_eq_some found, same.1⟩

end Sample

/-- Every address that the program asks for is one that the provider knows. -/
def Finds {σ α : Type} (provider : ExactProvider σ) (state : σ) (program : Service α) : Prop :=
  program.Only fun call => ∀ email, call.emailGiven = some email → provider.knows state email

/-- `first` and `second` are spellings of one address: the use cases hand on the same string for both, and who has
registered under the first is found under the second. -/
structure OneAddress (platform : Platform) (first second value : String) : Prop where
  handsFirst : AllHand platform first value
  handsSecond : AllHand platform second value
  found : ∀ (σ : Type) (provider : ExactProvider σ) state user after requireEmailVerification username password req,
    Password.create password = .ok password →
    ¬ (RegisterUseCase.execute platform requireEmailVerification first username password).Only
      (· ≠ .auth (.register req)) →
    provider.answer (.register req) state = (.ok user, after) →
    (∀ (self : LoginUseCase) word, Finds provider after (self.execute platform second word)) ∧
    (∀ baseUrl, Finds provider after (ForgotPasswordUseCase.execute baseUrl second)) ∧
    ∀ baseUrl, Finds provider after (SendMagicLinkUseCase.execute baseUrl second)

section
variable {platform : Platform} {raw first second value : String}

theorem create_value (valid : Email.create platform raw = .ok value) : normalize platform raw = value := by
  unfold Email.create at valid
  dsimp only at valid
  split at valid
  · exact Except.ok.inj valid
  · cases valid

theorem allHand_iff (valid : Email.create platform raw = .ok value) :
    AllHand platform raw value ↔ normalize platform raw = raw := by
  have normal := create_value valid
  constructor
  · exact fun hand => normal.trans ((hand.forgotPassword "").unique (hands_sendLink raw ..))
  · intro same
    obtain rfl : raw = value := same.symm.trans normal
    exact ⟨fun required username password strong => hands_register platform raw valid strong required,
      fun self password => by simpa only [same] using hands_login platform raw self password,
      fun baseUrl => hands_sendLink raw .., fun baseUrl => hands_sendLink raw ..⟩

theorem oneAddress_iff (valid : Email.create platform first = .ok value)
    (valid' : Email.create platform second = .ok value) : OneAddress platform first second value ↔
      normalize platform first = first ∧ normalize platform second = second := by
  rw [← allHand_iff valid, ← allHand_iff valid']
  refine ⟨fun one => ⟨one.handsFirst, one.handsSecond⟩, fun ⟨hand, hand'⟩ => ⟨hand, hand', ?_⟩⟩
  intro σ provider state user after required username password req strong made answered
  have own : req.email = value := by
    by_contra other
    refine made ((hand.register required username password strong).only.mono ?_)
    rintro call fine rfl
    exact other (fine req.email rfl)
  have known : provider.knows after value := (provider.register req state user after
    answered value).mpr (.inl own.symm)
  have finds {α : Type} {program : Service α} (hands : Hands program value) : Finds provider after program :=
    hands.only.mono fun call fine email given => fine email given ▸ known
  exact ⟨fun self word => finds (hand'.login self word), fun baseUrl => finds (hand'.forgotPassword baseUrl),
    fun baseUrl => finds (hand'.sendMagicLink baseUrl)⟩

/-- Ann types her address in small letters, and then with a capital or in small letters again; in the latter case
the provider finds the account that she has registered. -/
theorem oneAddress_iff_ann :
    let platform : Platform := ⟨fun text => String.ofList (text.toList.map Char.toLower), fun _ _ _ => false⟩
    (OneAddress platform "ann@mail.com" "Ann@mail.com" "ann@mail.com" ↔
      normalize platform "ann@mail.com" = "ann@mail.com" ∧ normalize platform "Ann@mail.com" = "Ann@mail.com") ∧
    Finds Sample.listing (Sample.listing.answer (.register ⟨"ann@mail.com", "ann", "Str0ng!pass", some true⟩) []).2
      (ForgotPasswordUseCase.execute "https://app" "ann@mail.com") := by
  intro platform
  have valid : Email.create platform "ann@mail.com" = .ok "ann@mail.com" := by decide
  have strong : Password.create "Str0ng!pass" = .ok "Str0ng!pass" := by decide
  have again : OneAddress platform "ann@mail.com" "ann@mail.com" "ann@mail.com" :=
    (oneAddress_iff valid valid).mpr ⟨by decide, by decide⟩
  refine ⟨oneAddress_iff valid (by decide), ?_⟩
  refine (again.found _ Sample.listing [] _ _ false "ann" "Str0ng!pass" ⟨"ann@mail.com",
    "ann", "Str0ng!pass", some true⟩ strong ?_ rfl).2.1 "https://app"
  simp only [RegisterUseCase.execute, valid, strong, authProvider, Program.ofExcept_ok, Program.bind_eq,
    Program.done_bind]
  exact fun never => never.1 rfl

/-- An address with a capital: the account is looked up under what was typed. -/
theorem oneAddress_not_always : ¬ ∀ platform first second value, Email.create platform first = .ok value →
    Email.create platform second = .ok value → OneAddress platform first second value := by
  intro always
  let platform : Platform := ⟨fun text => String.ofList (text.toList.map Char.toLower), fun _ _ _ => false⟩
  have valid : Email.create platform "Ann@mail.com" = .ok "ann@mail.com" := by decide
  have hand := (always _ _ _ _ valid valid).handsFirst.forgotPassword ""
  exact absurd (hand.unique (hands_sendLink ..)) (by decide)

end

end KeycloakAuth
