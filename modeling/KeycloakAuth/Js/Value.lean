import KeycloakAuth.Js.Number

namespace Js

inductive Value
  | undefined
  | null
  | boolean (value : Bool)
  | number (value : Number)
  | string (value : Text)
  | array (items : List Value)
  | object (members : List (Text × Value))
deriving Repr

/-- The conversions between numbers and texts. Below 2⁵³ a natural number is written out. -/
structure Conversions where
  numberText : Number → Text
  textNumber : Text → Number
  /-- `toISOString()` of the date at a time value. -/
  isoText : ℤ → Text
  numberText_natCast (n : Nat) (small : n < 2 ^ 53) : numberText (.finite n) = numeral n

namespace Value
variable (conversions : Conversions)

mutual

/-- `String(value)`. An own member of that name hides the method `toString`, and nothing that comes from
JSON can be called. -/
def text : Value → Option Text
  | .undefined => some (ofString "undefined")
  | .null => some (ofString "null")
  | .boolean value => some (ofString (if value then "true" else "false"))
  | .number value => some (conversions.numberText value)
  | .string value => some value
  | .array items => joined items
  | .object members =>
    if (members.map Prod.fst).contains (ofString "toString") then none else some (ofString "[object Object]")

/-- `items.join()`. -/
def joined : List Value → Option Text
  | [] => some []
  | item :: rest => do
    let first ← match item with
      | .undefined => some []
      | .null => some []
      | item => item.text
    let others ← joined rest
    return first ++ if rest.isEmpty then [] else ofString "," ++ others

end

/-- An operand in place of which an operator takes a primitive value. -/
def primitive (value : Value) : Option Value :=
  match value with
  | .array _ => (value.text conversions).map .string
  | .object _ => (value.text conversions).map .string
  | value => some value

def toNumber (value : Value) : Option Number := do
  match ← value.primitive conversions with
  | .null => return .finite 0
  | .boolean value => return .finite (if value then 1 else 0)
  | .number value => return value
  | .string value => return conversions.textNumber value
  | _ => return .nan

/-- What `+` makes of two operands. -/
inductive Sum
  | number (value : Number)
  | string (value : Text)
deriving DecidableEq, Repr

/-- `value + 1`, which appends a digit to a string. -/
def plusOne (value : Value) : Option Sum := do
  match ← value.primitive conversions with
  | .string value => return .string (value ++ numeral 1)
  | value => return .number ((← value.toNumber conversions).add (.finite 1))

def Sum.toNumber : Sum → Number
  | .number value => value
  | .string value => conversions.textNumber value

/-- The member of that name. No prototype has one, and `null` and `undefined` have no members at all. -/
def member (name : Text) : Value → Option Value
  | .undefined => none
  | .null => none
  | .object members => some (((members.reverse.find? fun member => member.1 = name).map Prod.snd).getD .undefined)
  | _ => some .undefined

end Value

end Js
