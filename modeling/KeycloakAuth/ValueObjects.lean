import KeycloakAuth.Login

namespace KeycloakAuth

/-- `text.length`, in UTF-16 code units: a character beyond the first plane counts for two. -/
def jsLength (text : String) : Nat := text.toList.length + text.toList.countP fun c => 0x10000 ≤ c.toNat

namespace Email

def plain (c : Char) : Bool := !isWhitespace c && c ≠ '@'

/-- The part after the `@`: a dot with something plain on both sides. -/
def validDomain (domain : List Char) : Bool :=
  domain.all plain && (domain.drop 1).dropLast.contains '.'

/-- `/^[^\s@]+@[^\s@]+\.[^\s@]+$/`. -/
def valid (text : String) : Bool :=
  let rest := text.toList.dropWhile plain
  plain (text.toList.headD '@') && rest.head? = some '@' && validDomain (rest.drop 1)

/-- The value of `Email.create(raw)`, or the error it throws. -/
def create (platform : Platform) (raw : String) : Except Thrown String :=
  let trimmed := normalize platform raw
  if valid trimmed then .ok trimmed else .error (.error ("Invalid email address: \"" ++ raw ++ "\""))

end Email

namespace Password

def isUpper (c : Char) : Bool := 'A' ≤ c && c ≤ 'Z'

def isLower (c : Char) : Bool := 'a' ≤ c && c ≤ 'z'

def isDigit (c : Char) : Bool := '0' ≤ c && c ≤ '9'

def isSpecial (c : Char) : Bool := !(isUpper c || isLower c || isDigit c)

/-- The complaints `Password.create` collects, in its order. -/
def errors (raw : String) : List String :=
  (if jsLength raw < 8 then ["at least 8 characters"] else []) ++
  (if raw.toList.any isUpper then [] else ["an uppercase letter"]) ++
  (if raw.toList.any isLower then [] else ["a lowercase letter"]) ++
  (if raw.toList.any isDigit then [] else ["a number"]) ++
  (if raw.toList.any isSpecial then [] else ["a special character"])

def create (raw : String) : Except Thrown String :=
  if (errors raw).isEmpty then .ok raw
  else .error (.domain .weakPassword ("Password must contain " ++ ", ".intercalate (errors raw)))

end Password

end KeycloakAuth
