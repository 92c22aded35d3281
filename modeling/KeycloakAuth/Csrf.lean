import KeycloakAuth.Js.Text
import KeycloakAuth.Keycloak

namespace Js
variable {α : Type}

/-- What a plain object has under a name: a value of its own, or what it inherits. -/
inductive Member (α : Type)
  | own (value : α)
  | function (length : Nat)
  | object
deriving DecidableEq, Repr

/-- The functions of `Object.prototype`, and how many arguments each of them expects. -/
def prototypeFunctions : List (String × Nat) :=
  [("constructor", 1), ("__defineGetter__", 2), ("__defineSetter__", 2),
    ("hasOwnProperty", 1), ("__lookupGetter__", 1),
    ("__lookupSetter__", 1), ("isPrototypeOf", 1), ("propertyIsEnumerable", 1), ("toString", 0), ("valueOf", 0),
    ("toLocaleString", 0)]

/-- What a plain object answers to a name after `values` have been assigned to it. The name `__proto__` stands
for the prototype, and assigning a text or an array of texts to it has no effect that is seen. -/
def member (values : String → Option α) (name : String) : Option (Member α) :=
  if name = "__proto__" then some .object
  else ((values name).map .own).or ((prototypeFunctions.lookup name).map .function)

theorem member_own {values : String → Option α} {name : String} {value : α} :
    member values name = some (.own value) ↔ values name = some value ∧ name ≠ "__proto__" := by
  unfold member
  split
  · simp_all
  · cases assigned : values name with
    | none => cases prototypeFunctions.lookup name <;> simp
    | some other => simp_all

end Js

namespace KeycloakAuth
open Js

/-- `options.csrf`. -/
structure CsrfOptions where
  enabled : Option Bool
  cookieName : Option String
  headerName : Option String
deriving DecidableEq, Repr

/-- What the guard and the controller read of `AuthModuleOptions`. -/
structure CsrfModuleOptions where
  csrf : Option CsrfOptions
  cookieSecure : Option Bool
deriving DecidableEq, Repr

inductive HeaderValue
  | one (value : Text)
  | list (values : List Text)
deriving DecidableEq, Repr

/-- A request. The cookies are there if a cookie parser is in use, and have names and values if a `Cookie`
header has been sent: otherwise the parser leaves an object without a prototype. -/
structure CsrfRequest where
  method : String
  secure : Bool
  cookies : Option (Option (String → Option Text))
  headers : Option (String → Option HeaderValue)

/-- The cookie of that name that has been sent. -/
def CsrfRequest.cookie (req : CsrfRequest) (name : String) : Option Text := (req.cookies.bind id).bind (· name)

/-- The header of that name that has been sent, the first one if there are several. -/
def CsrfRequest.header (req : CsrfRequest) (name : String) : Option Text :=
  match req.headers.bind (· name) with
  | none => none
  | some (.one value) => some value
  | some (.list values) => values.head?

/-- What the guard may throw: a `ForbiddenException`, or the errors of `Buffer.from` and of `timingSafeEqual`. -/
inductive CsrfException
  | forbidden (message : String)
  | typeError
  | rangeError
deriving DecidableEq, Repr

/-- The cookie that the controller sets. -/
structure CsrfCookie where
  name : String
  value : Text
  httpOnly : Bool
  sameSite : String
  secure : Bool
  path : String
deriving DecidableEq, Repr

def SAFE_METHODS : List String := ["GET", "HEAD", "OPTIONS"]

def DEFAULT_CSRF_COOKIE : String := "csrf-token"

def DEFAULT_CSRF_HEADER : String := "x-csrf-token"

def bufferFrom : Member Text → Except CsrfException (List Nat)
  | .own text => .ok (utf8 text)
  | _ => .error .typeError

/-- `crypto.timingSafeEqual` throws on buffers of two lengths. -/
def timingSafeEqual (first second : List Nat) : Except CsrfException Bool :=
  if first.length ≠ second.length then .error .rangeError else .ok (first = second)

namespace CsrfGuard

def csrf (options : Option CsrfModuleOptions) : Option CsrfOptions := options.bind CsrfModuleOptions.csrf

def cookieName (options : Option CsrfModuleOptions) : String :=
  ((csrf options).bind CsrfOptions.cookieName).getD DEFAULT_CSRF_COOKIE

def headerName (platform : Platform) (options : Option CsrfModuleOptions) : String :=
  platform.toLowerCase (((csrf options).bind CsrfOptions.headerName).getD DEFAULT_CSRF_HEADER)

def cookieToken (options : Option CsrfModuleOptions) (req : CsrfRequest) : Option (Member Text) :=
  (req.cookies.bind id).bind fun cookies => member cookies (cookieName options)

def headerToken (platform : Platform) (options : Option CsrfModuleOptions) (req : CsrfRequest) :
    Option (Member Text) :=
  match req.headers.bind fun headers => member headers (headerName platform options) with
  | none => none
  | some (.own (.one value)) => some (.own value)
  | some (.own (.list values)) => values.head?.map .own
  | some (.function length) => some (.function length)
  | some .object => some .object

def truthy : Member Text → Bool
  | .own text => text ≠ []
  | _ => true

/-- The property `length`. -/
def length : Member Text → Option Nat
  | .own text => some text.length
  | .function length => some length
  | .object => none

/-- The guard without options in scope always enforces. -/
def enforces (options : Option CsrfModuleOptions) : Bool :=
  options.isNone || (csrf options).bind CsrfOptions.enabled = some true

/-- The comparison of two tokens that are present. -/
def compare (cookie header : Member Text) : Except CsrfException Bool := do
  if length cookie ≠ length header then throw (.forbidden "Invalid CSRF token")
  let bufCookie ← bufferFrom cookie
  let bufHeader ← bufferFrom header
  let same ← timingSafeEqual bufCookie bufHeader
  if !same then throw (.forbidden "Invalid CSRF token")
  return true

def canActivate (platform : Platform) (options : Option CsrfModuleOptions) (req : CsrfRequest) :
    Except CsrfException Bool :=
  if !enforces options then .ok true else
  if req.method ∈ SAFE_METHODS then .ok true else
  match (cookieToken options req).filter truthy, (headerToken platform options req).filter truthy with
  | some cookie, some header => compare cookie header
  | _, _ => .error (.forbidden "Missing CSRF token")

end CsrfGuard

/-- A UUID by its hexadecimal digits. -/
structure Uuid where
  digits : List (Fin 16)
  complete : digits.length = 32

namespace Uuid

def hexDigit (digit : Fin 16) : CodeUnit :=
  if digit.val < 10 then ⟨0x30 + digit.val, by omega⟩ else ⟨0x57 + digit.val, by omega⟩

def hyphen : CodeUnit := 0x2D

/-- Five groups of digits with hyphens between them. -/
def text (uuid : Uuid) : Text :=
  let group (first size : Nat) : Text := ((uuid.digits.drop first).take size).map hexDigit
  group 0 8 ++ hyphen :: group 8 4 ++ hyphen :: group 12 4 ++ hyphen :: group 16 4 ++ hyphen :: group 20 12

theorem text_ne_nil (uuid : Uuid) : uuid.text ≠ [] := by
  unfold text
  exact List.append_ne_nil_of_right_ne_nil _ (List.cons_ne_nil _ _)

end Uuid

namespace CsrfController

/-- The token in the body of the response, and the cookie; `token` is the value of `randomUUID()`. -/
def getCsrfToken (options : Option CsrfModuleOptions) (req : CsrfRequest) (token : Uuid) : Text × CsrfCookie :=
  (token.text, ⟨CsrfGuard.cookieName options, token.text, false, "strict",
    (options.bind CsrfModuleOptions.cookieSecure).getD req.secure, "/"⟩)

end CsrfController

namespace CsrfGuard

/-- Both tokens are present, and they are equal and not empty. -/
def Echoed (cookie header : Option Text) : Prop := ∃ token, token ≠ [] ∧ cookie = some token ∧ header = some token

/-- Two tokens that the comparison takes for what they are not: they are equally long, but one of them is no
text; or they are different texts, and their octets are not equally long or there are no two encodings to
compare. -/
def Confusable : Member Text → Member Text → Prop
  | .own cookie, .own header => cookie ≠ header ∧ cookie.length = header.length ∧
      ((utf8 cookie).length ≠ (utf8 header).length ∨ scalars cookie = scalars header)
  | cookie, header => length cookie = length header

/-- The comparison of two texts in one piece. What has one encoding is taken to be equal. -/
theorem compare_own (cookie header : Text) : compare (.own cookie) (.own header) =
    if cookie.length ≠ header.length then .error (.forbidden "Invalid CSRF token")
    else if (utf8 cookie).length ≠ (utf8 header).length then .error .rangeError
    else if scalars cookie = scalars header then .ok true else .error (.forbidden "Invalid CSRF token") := by
  simp only [compare, length, bufferFrom, timingSafeEqual, ne_eq, Option.some.injEq]
  split
  · rfl
  split
  · simp_all [bind, Except.bind]
  split <;> simp_all [utf8_eq_iff, bind, Except.bind, pure, Except.pure, throw, throwThe, MonadExceptOf.throw]

/-- Nothing but texts can be compared. -/
theorem compare_other {cookie header : Member Text} (other : ¬ ∃ text text',
    cookie = .own text ∧ header = .own text') :
    compare cookie header =
      .error (if length cookie ≠ length header then .forbidden "Invalid CSRF token" else .typeError) := by
  simp only [compare]
  split
  · rfl
  cases cookie with
  | own text =>
    cases header with
    | own text' => exact absurd ⟨text, text', rfl, rfl⟩ other
    | _ => rfl
  | _ => rfl

theorem compare_self (token : Text) : compare (.own token) (.own token) = .ok true := by simp [compare_own]

/-- Two different tokens are refused, unless they are confusable. -/
theorem compare_forbidden {cookie header : Member Text}
    (differ : ∀ token, ¬ (cookie = .own token ∧ header = .own token)) :
    (∃ message, compare cookie header = .error (.forbidden message)) ↔ ¬ Confusable cookie header := by
  by_cases texts : ∃ text text', cookie = .own text ∧ header = .own text'
  · obtain ⟨text, text', rfl, rfl⟩ := texts
    have differ : text ≠ text' := fun same => differ text ⟨rfl, same ▸ rfl⟩
    rw [compare_own]
    unfold Confusable
    split
    · simp_all
    split
    · simp_all
    split <;> simp_all
  · have confusable : Confusable cookie header ↔ length cookie = length header := by
      unfold Confusable
      split
      · exact absurd ⟨_, _, rfl, rfl⟩ texts
      · rfl
    rw [compare_other texts, confusable]
    split <;> simp_all

variable (platform : Platform) (options : Option CsrfModuleOptions) (req : CsrfRequest)

/-- Where the guard enforces, exactly the echoed tokens pass and the rest is forbidden; and whoever sends the
cookie of the controller back, and its token in the header, passes anyway. -/
structure DoubleSubmit : Prop where
  passes : enforces options = true → req.method ∉ SAFE_METHODS →
    (canActivate platform options req = .ok true ↔
      Echoed (req.cookie (cookieName options)) (req.header (headerName platform options)))
  forbids : enforces options = true → req.method ∉ SAFE_METHODS →
    ¬ Echoed (req.cookie (cookieName options)) (req.header (headerName platform options)) →
    ∃ message, canActivate platform options req = .error (.forbidden message)
  echo : ∀ asked token, req.cookie (CsrfController.getCsrfToken options asked token).2.name =
      some (CsrfController.getCsrfToken options asked token).2.value →
    req.header (headerName platform options) = some (CsrfController.getCsrfToken options asked token).1 →
    canActivate platform options req = .ok true

/-- The guard finds two tokens that are confusable. -/
def Confused : Prop := ∃ cookie header, cookieToken options req = some cookie ∧
  headerToken platform options req = some header ∧ truthy cookie = true ∧ truthy header = true ∧
    Confusable cookie header

/-- The token is echoed under a name of which no object has a value of its own. -/
def Unseen : Prop := Echoed (req.cookie (cookieName options)) (req.header (headerName platform options)) ∧
  (cookieName options = "__proto__" ∨ headerName platform options = "__proto__")

variable {platform options req}

theorem cookieToken_own {text : Text} : cookieToken options req = some (.own text) ↔
    req.cookie (cookieName options) = some text ∧ cookieName options ≠ "__proto__" := by
  unfold cookieToken CsrfRequest.cookie
  cases req.cookies.bind id with
  | none => simp
  | some cookies => exact member_own

theorem headerToken_own {text : Text} : headerToken platform options req = some (.own text) ↔
    req.header (headerName platform options) = some text ∧ headerName platform options ≠ "__proto__" := by
  unfold headerToken CsrfRequest.header
  cases req.headers with
  | none => simp
  | some headers =>
    simp only [Option.bind_some]
    by_cases unnamed : headerName platform options = "__proto__"
    · simp [member, unnamed]
    cases sent : headers (headerName platform options) with
    | none =>
      cases inherited : prototypeFunctions.lookup (headerName platform options) <;>
        simp [member, unnamed, sent, inherited]
    | some value => cases value <;> simp [member, unnamed, sent]

theorem canActivate_echoed {token : Text} (nonempty : token ≠ [])
    (cookie : cookieToken options req = some (.own token))
    (header : headerToken platform options req = some (.own token)) :
      canActivate platform options req = .ok true := by
  have full : truthy (.own token) = true := decide_eq_true nonempty
  unfold canActivate
  split
  · rfl
  split
  · rfl
  simp only [cookie, header, Option.filter_some, full, if_true]
  exact compare_self token

/-- The guard where it enforces and finds two tokens. -/
theorem canActivate_compare (enforced : enforces options = true) (mutating : req.method ∉ SAFE_METHODS)
    {cookie header : Member Text} (hasCookie : cookieToken options req = some cookie)
    (hasHeader : headerToken platform options req = some header) (full : truthy cookie = true)
    (full' : truthy header = true) : canActivate platform options req = compare cookie header := by
  simp [canActivate, enforced, mutating, hasCookie, hasHeader, Option.filter_some, full, full']

/-- The guard where it enforces and lacks a token. -/
theorem canActivate_missing (enforced : enforces options = true) (mutating : req.method ∉ SAFE_METHODS)
    (missing : ¬ ∃ cookie header, cookieToken options req = some cookie ∧
      headerToken platform options req = some header ∧ truthy cookie = true ∧ truthy header = true) :
    canActivate platform options req = .error (.forbidden "Missing CSRF token") := by
  simp only [canActivate, enforced, Bool.not_true, Bool.false_eq_true, if_false, mutating]
  split
  · rename_i cookie header hasCookie hasHeader
    obtain ⟨hasCookie, full⟩ := Option.filter_eq_some_iff.mp hasCookie
    obtain ⟨hasHeader, full'⟩ := Option.filter_eq_some_iff.mp hasHeader
    exact (missing ⟨cookie, header, hasCookie, hasHeader, full, full'⟩).elim
  · rfl

/-- Whatever passes where the guard enforces is a text. -/
theorem canActivate_passed (enforced : enforces options = true) (mutating : req.method ∉ SAFE_METHODS)
    (passed : canActivate platform options req = .ok true) :
    ∃ cookie header, cookieToken options req = some (.own cookie) ∧
      headerToken platform options req = some (.own header) := by
  by_cases present : ∃ cookie header, cookieToken options req = some cookie ∧
      headerToken platform options req = some header ∧ truthy cookie = true ∧ truthy header = true
  · obtain ⟨cookie, header, hasCookie, hasHeader, full, full'⟩ := present
    by_contra none
    rw [canActivate_compare enforced mutating hasCookie hasHeader full full', compare_other] at passed
    · cases passed
    · rintro ⟨text, text', rfl, rfl⟩
      exact none ⟨text, text', hasCookie, hasHeader⟩
  · cases passed.symm.trans (canActivate_missing enforced mutating present)

/-- The guard forbids what is not echoed, confusable tokens apart. -/
theorem canActivate_forbidden (enforced : enforces options = true) (mutating : req.method ∉ SAFE_METHODS)
    (other : ¬ Echoed (req.cookie (cookieName options)) (req.header (headerName platform options))) :
    (∃ message, canActivate platform options req = .error (.forbidden message)) ↔
      ¬ Confused platform options req := by
  by_cases present : ∃ cookie header, cookieToken options req = some cookie ∧
      headerToken platform options req = some header ∧ truthy cookie = true ∧ truthy header = true
  · obtain ⟨cookie, header, hasCookie, hasHeader, full, full'⟩ := present
    have differ (token : Text) : ¬ (cookie = .own token ∧ header = .own token) := by
      rintro ⟨rfl, rfl⟩
      exact other ⟨token, of_decide_eq_true full, (cookieToken_own.mp hasCookie).1,
        (headerToken_own.mp hasHeader).1⟩
    rw [canActivate_compare enforced mutating hasCookie hasHeader full full', compare_forbidden differ]
    simp [Confused, hasCookie, hasHeader, full, full']
  · refine iff_of_true ⟨_, canActivate_missing enforced mutating present⟩ ?_
    rintro ⟨cookie, header, hasCookie, hasHeader, full, full', -⟩
    exact present ⟨cookie, header, hasCookie, hasHeader, full, full'⟩

theorem doubleSubmit_iff : DoubleSubmit platform options req ↔ ¬ (enforces options = true ∧
    req.method ∉ SAFE_METHODS ∧ (Confused platform options req ∨ Unseen platform options req)) := by
  constructor
  · rintro checked ⟨enforced, mutating, misjudged⟩
    by_cases echoed : Echoed (req.cookie (cookieName options)) (req.header (headerName platform options))
    · obtain ⟨cookie, header, hasCookie, hasHeader⟩ :=
        canActivate_passed enforced mutating ((checked.passes enforced mutating).mpr echoed)
      obtain ⟨ownCookie, named⟩ := cookieToken_own.mp hasCookie
      obtain ⟨ownHeader, named'⟩ := headerToken_own.mp hasHeader
      obtain ⟨token, -, same, same'⟩ := echoed
      rcases misjudged with ⟨_, _, again, again', -, -, confusable⟩ | ⟨-, unnamed | unnamed⟩
      · cases hasCookie.symm.trans again
        cases hasHeader.symm.trans again'
        exact confusable.1 (Option.some.inj ((ownCookie.symm.trans same).trans (same'.symm.trans ownHeader)))
      · exact named unnamed
      · exact named' unnamed
    · rcases misjudged with confused | ⟨again, -⟩
      · exact (canActivate_forbidden enforced mutating echoed).mp
          (checked.forbids enforced mutating echoed) confused
      · exact echoed again
  · intro clear
    have forbids (enforced : enforces options = true) (mutating : req.method ∉ SAFE_METHODS)
        (other : ¬ Echoed (req.cookie (cookieName options)) (req.header (headerName platform options))) :
        ∃ message, canActivate platform options req = .error (.forbidden message) :=
      (canActivate_forbidden enforced mutating other).mpr fun confused => clear ⟨enforced, mutating, .inl confused⟩
    have passes (enforced : enforces options = true) (mutating : req.method ∉ SAFE_METHODS)
        (echoed : Echoed (req.cookie (cookieName options)) (req.header (headerName platform options))) :
        canActivate platform options req = .ok true := by
      have named : ¬ (cookieName options = "__proto__" ∨ headerName platform options = "__proto__") :=
        fun unnamed => clear ⟨enforced, mutating, .inr ⟨echoed, unnamed⟩⟩
      obtain ⟨token, nonempty, cookie, header⟩ := echoed
      exact canActivate_echoed nonempty (cookieToken_own.mpr ⟨cookie, fun unnamed => named (.inl unnamed)⟩)
        (headerToken_own.mpr ⟨header, fun unnamed => named (.inr unnamed)⟩)
    refine ⟨fun enforced mutating => ⟨fun passed => ?_, passes enforced mutating⟩, forbids, ?_⟩
    · by_contra other
      obtain ⟨message, refused⟩ := forbids enforced mutating other
      cases passed.symm.trans refused
    · intro asked token cookie header
      by_cases enforced : enforces options = true
      · by_cases mutating : req.method ∈ SAFE_METHODS
        · simp [canActivate, mutating]
        · exact passes enforced mutating ⟨token.text, token.text_ne_nil, cookie, header⟩
      · simp [canActivate, enforced]

/-- A cookie of one ASCII letter against a header of one letter beyond ASCII: the comparison itself fails. -/
theorem doubleSubmit_not_always : ¬ ∀ platform options req, DoubleSubmit platform options req := by
  intro always
  let req : CsrfRequest := {
    method := "POST"
    secure := true
    cookies := some (some fun _ => some [0x61])
    headers := some fun _ => some (.one [0xE9]) }
  have other : ¬ Echoed (req.cookie (cookieName none)) (req.header (headerName ⟨id, fun _ _ _ => false⟩ none)) := by
    rintro ⟨token, -, cookie, header⟩
    cases cookie
    cases header
  obtain ⟨message, refused⟩ := (always ⟨id, fun _ _ _ => false⟩ none req).forbids rfl (by decide) other
  have fails : canActivate ⟨id, fun _ _ _ => false⟩ none req = .error .rangeError := by rfl
  cases fails.symm.trans refused

end CsrfGuard

end KeycloakAuth
