import KeycloakAuth.Js.Regex
import KeycloakAuth.UseCases

namespace KeycloakAuth
open Js Async

namespace CodeClass

/-- `[a-z]` -/
def lower (u : CodeUnit) : Bool := 0x61 ≤ u.val && u.val ≤ 0x7A

/-- `[A-Z]` -/
def upper (u : CodeUnit) : Bool := 0x41 ≤ u.val && u.val ≤ 0x5A

/-- `\d` and `[0-9]` -/
def digit (u : CodeUnit) : Bool := 0x30 ≤ u.val && u.val ≤ 0x39

/-- `[^A-Za-z\d]` and `[^A-Za-z0-9]` -/
def special (u : CodeUnit) : Bool := !(upper u || lower u || digit u)

end CodeClass

open CodeClass

namespace PasswordDto

/-- `(?=.*[set])` -/
def somewhere (set : CodeUnit → Bool) : Regex := .ahead (.seq (.many dot) (.one set))

/-- `/^(?=.*[a-z])(?=.*[A-Z])(?=.*\d)(?=.*[^A-Za-z\d])/` -/
def PASSWORD_POLICY : Regex :=
  .seq .start (.seq (somewhere lower) (.seq (somewhere upper) (.seq (somewhere digit) (somewhere special))))

/-- The decorators of `RegisterDto.password` and `ResetPasswordDto.newPassword`. -/
def accepts (password : Text) : Bool := 8 ≤ password.length && PASSWORD_POLICY.test password

end PasswordDto

namespace Password

/-- The complaints of `Password.create`, found with its regular expressions. -/
def complaints (raw : Text) : List String :=
  (if raw.length < 8 then ["at least 8 characters"] else []) ++
  (if (Regex.one upper).test raw then [] else ["an uppercase letter"]) ++
  (if (Regex.one lower).test raw then [] else ["a lowercase letter"]) ++
  (if (Regex.one digit).test raw then [] else ["a number"]) ++
  (if (Regex.one special).test raw then [] else ["a special character"])

/-- `Password.create` on any text. -/
def createText (raw : Text) : Except Thrown Text :=
  if (complaints raw).isEmpty then .ok raw
  else .error (.domain .weakPassword ("Password must contain " ++ ", ".intercalate (complaints raw)))

theorem length_ofString (raw : String) : (ofString raw).length = jsLength raw := by
  unfold ofString jsLength
  induction raw.toList with
  | nil => rfl
  | cons c rest ih =>
    rw [List.flatMap_cons, List.length_append, ih, List.countP_cons, List.length_cons]
    unfold charUnits
    split
    · rename_i low
      simp [Nat.not_le.mpr low]
      omega
    · rename_i high
      simp [Nat.not_lt.mp high]
      omega

/-- A class that makes no difference among surrogates and what is beyond the first plane says of a character
what it says of its code units. -/
theorem any_ofString {set : CodeUnit → Bool} (code : Nat → Bool) (units : ∀ u : CodeUnit, set u = code u.val)
    (beyond : ∀ n, 0xD800 ≤ n → code n = code 0x10000) (raw : String) :
    (ofString raw).any set = raw.toList.any fun c => code c.toNat := by
  unfold ofString
  rw [List.any_flatMap]
  congr 1
  funext c
  have valid : c.toNat < 0xD800 ∨ 0xDFFF < c.toNat ∧ c.toNat < 0x110000 := c.valid
  unfold charUnits
  split
  · rename_i low
    simp [units, Fin.ofNat, Nat.mod_eq_of_lt low]
  · rename_i high
    have first : (0xD800 + (c.toNat - 0x10000) / 0x400) % 0x10000 = 0xD800 + (c.toNat - 0x10000) / 0x400 :=
      Nat.mod_eq_of_lt (by omega)
    have second : (0xDC00 + c.toNat % 0x400) % 0x10000 = 0xDC00 + c.toNat % 0x400 := Nat.mod_eq_of_lt (by omega)
    simp only [List.any_cons, List.any_nil, Bool.or_false, units, Fin.ofNat, first, second]
    rw [beyond (0xD800 + _) (by omega), beyond (0xDC00 + _) (by omega), beyond c.toNat (by omega), Bool.or_self]

/-- On strings that are well formed the two have the same complaints. -/
theorem complaints_ofString (raw : String) : complaints (ofString raw) = errors raw := by
  have uppers : (ofString raw).any upper = raw.toList.any isUpper :=
    any_ofString (fun n => 0x41 ≤ n && n ≤ 0x5A) (fun _ => rfl) (by grind) raw
  have lowers : (ofString raw).any lower = raw.toList.any isLower :=
    any_ofString (fun n => 0x61 ≤ n && n ≤ 0x7A) (fun _ => rfl) (by grind) raw
  have digits : (ofString raw).any digit = raw.toList.any isDigit :=
    any_ofString (fun n => 0x30 ≤ n && n ≤ 0x39) (fun _ => rfl) (by grind) raw
  have specials : (ofString raw).any special = raw.toList.any isSpecial :=
    any_ofString (fun n => !(0x41 ≤ n && n ≤ 0x5A || 0x61 ≤ n && n ≤ 0x7A || 0x30 ≤ n && n ≤ 0x39)) (fun _ => rfl)
      (by grind) raw
  simp only [complaints, errors, Regex.test_one, length_ofString, uppers, lowers, digits, specials]

theorem createText_ok {raw : Text} : createText raw = .ok raw ↔ 8 ≤ raw.length ∧ raw.any upper = true ∧
    raw.any lower = true ∧ raw.any digit = true ∧ raw.any special = true := by
  simp only [createText, complaints, Regex.test_one]
  grind

theorem createText_error {raw : Text} (rejected : createText raw ≠ .ok raw) :
    ∃ message, createText raw = .error (.domain .weakPassword message) := by
  unfold createText at rejected ⊢
  split
  · rename_i fine
    simp [fine] at rejected
  · exact ⟨_, rfl⟩

theorem create_ofString (raw : String) : create raw = (createText (ofString raw)).map fun _ => raw := by
  unfold create createText
  rw [complaints_ofString]
  split <;> rfl

end Password

namespace PasswordDto
variable {password : Text}

/-- The part of a password before its first line terminator. -/
def firstLine (password : Text) : Text := password.takeWhile dot

/-- The first line is all there is, or a line terminator ends it. -/
theorem firstLine_cases (password : Text) :
    (password.dropWhile dot = [] ∧ password = firstLine password) ∨
    ∃ u rest, password.dropWhile dot = u :: rest ∧ password = firstLine password ++ u :: rest ∧
      isLineTerminator u = true := by
  have split : password = firstLine password ++ password.dropWhile dot := List.takeWhile_append_dropWhile.symm
  cases behind : password.dropWhile dot with
  | nil => exact .inl ⟨rfl, by simpa [behind] using split⟩
  | cons u rest =>
    have ends := List.head?_dropWhile_not dot password
    rw [behind] at ends
    exact .inr ⟨u, rest, rfl, by rw [← behind]; exact split, by simpa [dot] using ends⟩

/-- A line terminator is a special character, and nothing else that a password needs. -/
theorem terminator_classes {u : CodeUnit} (ends : isLineTerminator u = true) :
    upper u = false ∧ lower u = false ∧ digit u = false ∧ special u = true := by
  simp only [isLineTerminator, Bool.or_eq_true, decide_eq_true_eq] at ends
  rcases ends with ((rfl | rfl) | rfl) | rfl <;> decide

theorem any_of_firstLine {set : CodeUnit → Bool} (early : (firstLine password).any set = true) :
    password.any set = true := by
  obtain ⟨u, member, fits⟩ := List.any_eq_true.mp early
  exact List.any_eq_true.mpr ⟨u, (List.takeWhile_sublist dot).subset member, fits⟩

/-- A look-ahead for a letter or a digit sees the first line only. -/
theorem somewhere_firstLine {set : CodeUnit → Bool} (visible : ∀ u, isLineTerminator u = true → set u = false) :
    (somewhere set).matchesHere true password = (firstLine password).any set := by
  rw [somewhere, Regex.matchesHere_ahead, Regex.matchesHere_dots_one]
  rcases firstLine_cases password with ⟨behind, -⟩ | ⟨u, rest, behind, -, ends⟩
  · simp [behind, firstLine]
  · simp [behind, firstLine, visible u ends]

/-- The look-ahead for a special character need not see more, since the line terminator is one. -/
theorem somewhere_special : (somewhere special).matchesHere true password = password.any special := by
  rw [somewhere, Regex.matchesHere_ahead, Regex.matchesHere_dots_one]
  rcases firstLine_cases password with ⟨behind, whole⟩ | ⟨u, rest, behind, whole, ends⟩
  · rw [behind, ← firstLine, ← whole]
    exact Bool.or_false _
  · have found := (terminator_classes ends).2.2.2
    rw [whole, List.any_append, List.any_cons, found, ← whole, behind]
    simp [found]

/-- What is missing from the first line alone is behind a line terminator. -/
theorem special_of_missing {set : CodeUnit → Bool} (somewhere : password.any set = true)
    (missing : (firstLine password).any set = false) : password.any special = true := by
  rcases firstLine_cases password with ⟨-, whole⟩ | ⟨u, rest, -, whole, ends⟩
  · rw [← whole, somewhere] at missing
    cases missing
  · rw [whole]
    simp [(terminator_classes ends).2.2.2]

theorem somewhere_seq {set : CodeUnit → Bool} {next : Regex} :
    (Regex.seq (somewhere set) next).matchesHere true password =
      ((somewhere set).matchesHere true password && next.matchesHere true password) := by
  rw [somewhere, Regex.matchesHere_ahead_seq, Regex.matchesHere_ahead]

theorem accepts_iff : accepts password = true ↔ 8 ≤ password.length ∧ (firstLine password).any lower = true ∧
    (firstLine password).any upper = true ∧ (firstLine password).any digit = true ∧
      password.any special = true := by
  have classes {u : CodeUnit} := @terminator_classes u
  simp only [accepts, PASSWORD_POLICY, Regex.test_start_seq, somewhere_seq, Bool.and_eq_true, decide_eq_true_eq]
  rw [somewhere_firstLine fun u ends => (classes ends).1, somewhere_firstLine fun u ends => (classes ends).2.1,
    somewhere_firstLine fun u ends => (classes ends).2.2.1, somewhere_special]

/-- Every password that the request bodies let through is strong enough. -/
theorem createText_of_accepts (accepted : accepts password = true) :
    Password.createText password = .ok password := by
  obtain ⟨long, lowers, uppers, digits, specials⟩ := accepts_iff.mp accepted
  exact Password.createText_ok.mpr
    ⟨long, any_of_firstLine uppers, any_of_firstLine lowers, any_of_firstLine digits, specials⟩

end PasswordDto

/-- The program fails at once with a `WeakPasswordError`. -/
def RejectsAsWeak (program : Service α) : Prop :=
  ∃ now request drawn message, (program.settle now request drawn).1 = .threw (.domain .weakPassword message)

/-- Two policies, one set of passwords: for the value object, for the use cases, and for the request bodies. -/
structure SamePolicy (platform : Platform) (password : Text) : Prop where
  agree : PasswordDto.accepts password = true ↔ Password.createText password = .ok password
  register : ∀ raw requireEmailVerification email username, ofString raw = password →
    (∃ value, Email.create platform email = .ok value) →
    (PasswordDto.accepts password = true ↔
      ¬ RejectsAsWeak (RegisterUseCase.execute platform requireEmailVerification email username raw))
  reset : ∀ raw token, ofString raw = password →
    (PasswordDto.accepts password = true ↔ ¬ RejectsAsWeak (ResetPasswordUseCase.execute token raw))

/-- The password is long enough and has a letter of each case and a digit, but some of these only after its first
line terminator. -/
def BehindFirstLine (password : Text) : Prop :=
  8 ≤ password.length ∧ (∀ set ∈ [lower, upper, digit], password.any set = true) ∧
    ∃ set ∈ [lower, upper, digit], (PasswordDto.firstLine password).any set = false

/-- The two ways a password can be checked before anything is awaited. -/
theorem create_cases (raw : String) :
    (Password.create raw = .ok raw ∧ Password.createText (ofString raw) = .ok (ofString raw)) ∨
    ∃ message, Password.create raw = .error (.domain .weakPassword message) ∧
      Password.createText (ofString raw) ≠ .ok (ofString raw) := by
  rw [Password.create_ofString]
  by_cases strong : Password.createText (ofString raw) = .ok (ofString raw)
  · exact .inl ⟨by rw [strong]; rfl, strong⟩
  · obtain ⟨message, rejected⟩ := Password.createText_error strong
    exact .inr ⟨message, by rw [rejected]; rfl, strong⟩

theorem rejectsAsWeak_reset (token : Str) (raw : String) :
    ¬ RejectsAsWeak (ResetPasswordUseCase.execute token raw) ↔
      Password.createText (ofString raw) = .ok (ofString raw) := by
  rcases create_cases raw with ⟨created, strong⟩ | ⟨message, refused, weak⟩
  · refine iff_of_true ?_ strong
    rintro ⟨now, request, drawn, message, threw⟩
    simp [ResetPasswordUseCase.execute, Service.tokenStore, created, Program.settle] at threw
  · refine iff_of_false (fun passes => passes ⟨0, 0, 0, message, ?_⟩) weak
    simp [ResetPasswordUseCase.execute, refused, Program.settle]

theorem rejectsAsWeak_register {platform : Platform} {email value : String}
    (valid : Email.create platform email = .ok value) (requireEmailVerification : Bool) (username raw : String) :
    ¬ RejectsAsWeak (RegisterUseCase.execute platform requireEmailVerification email username raw) ↔
      Password.createText (ofString raw) = .ok (ofString raw) := by
  rcases create_cases raw with ⟨created, strong⟩ | ⟨message, refused, weak⟩
  · refine iff_of_true ?_ strong
    rintro ⟨now, request, drawn, message, threw⟩
    simp [RegisterUseCase.execute, Service.authProvider, valid, created, Program.settle] at threw
  · refine iff_of_false (fun passes => passes ⟨0, 0, 0, message, ?_⟩) weak
    simp [RegisterUseCase.execute, valid, refused, Program.settle]

theorem samePolicy_iff {platform : Platform} {password : Text} : SamePolicy platform password ↔
    ¬ BehindFirstLine password := by
  constructor
  · rintro same ⟨long, everywhere, set, needed, missing⟩
    have specials := PasswordDto.special_of_missing (everywhere set needed) missing
    have strong := Password.createText_ok.mpr ⟨long, everywhere upper (by simp), everywhere lower (by simp),
      everywhere digit (by simp), specials⟩
    obtain ⟨-, lowers, uppers, digits, -⟩ := PasswordDto.accepts_iff.mp (same.agree.mpr strong)
    simp only [List.mem_cons, List.not_mem_nil, or_false] at needed
    rcases needed with rfl | rfl | rfl <;> simp_all
  · intro visible
    have agree : PasswordDto.accepts password = true ↔ Password.createText password = .ok password := by
      refine ⟨PasswordDto.createText_of_accepts, fun strong => ?_⟩
      obtain ⟨long, uppers, lowers, digits, specials⟩ := Password.createText_ok.mp strong
      have everywhere : ∀ set ∈ [lower, upper, digit], password.any set = true := by
        simpa only [List.forall_mem_cons] using ⟨lowers, uppers, digits, List.forall_mem_nil _⟩
      have early {set : CodeUnit → Bool} (needed : set ∈ [lower, upper, digit]) :
          (PasswordDto.firstLine password).any set = true := by
        by_contra missing
        exact visible ⟨long, everywhere, set, needed, by simpa using missing⟩
      exact PasswordDto.accepts_iff.mpr ⟨long, early (by simp), early (by simp), early (by simp), specials⟩
    refine ⟨agree, ?_, ?_⟩
    · rintro raw required email username rfl ⟨value, valid⟩
      exact agree.trans (rejectsAsWeak_register valid required username raw).symm
    · rintro raw token rfl
      exact agree.trans (rejectsAsWeak_reset token raw).symm

/-- A password whose digit stands on its second line. -/
theorem samePolicy_not_always : ¬ ∀ platform password, SamePolicy platform password := by
  intro always
  have same := (always ⟨id, fun _ _ _ => false⟩ (ofString "Password\n1")).agree
  have strong : Password.createText (ofString "Password\n1") = .ok (ofString "Password\n1") := by decide
  cases (same.mpr strong).symm.trans (by decide : PasswordDto.accepts (ofString "Password\n1") = false)

end KeycloakAuth
