import KeycloakAuth.Js.Value

namespace Js

def unit (c : Char) : CodeUnit := Fin.ofNat 0x10000 c.toNat

def isBlank (c : CodeUnit) : Bool := c = unit ' ' || c = unit '\t' || c = unit '\n' || c = unit '\r'

def digitValue (c : CodeUnit) : Option Nat :=
  if 0x30 ≤ c.val ∧ c.val ≤ 0x39 then some (c.val - 0x30) else none

def hexValue (c : CodeUnit) : Option Nat :=
  if 0x41 ≤ c.val ∧ c.val ≤ 0x46 then some (c.val - 0x41 + 10)
  else if 0x61 ≤ c.val ∧ c.val ≤ 0x66 then some (c.val - 0x61 + 10)
  else digitValue c

/-- What has been read of a number: its digits, how many of them stand after the point, its exponent. -/
structure Decimal where
  negative : Bool
  digits : Nat
  scale : Nat
  negativeExponent : Bool
  exponent : Nat

namespace Decimal

def start : Decimal := ⟨false, 0, 0, false, 0⟩

def value (read : Decimal) : ℚ :=
  (if read.negative then -1 else 1) * read.digits *
    10 ^ ((if read.negativeExponent then -(read.exponent : ℤ) else read.exponent) - read.scale)

def whole (read : Decimal) (d : Nat) : Decimal := { read with digits := read.digits * 10 + d }

def fraction (read : Decimal) (d : Nat) : Decimal :=
  { read with digits := read.digits * 10 + d, scale := read.scale + 1 }

def power (read : Decimal) (d : Nat) : Decimal := { read with exponent := read.exponent * 10 + d }

end Decimal

/-- The part of a number that was read last. -/
inductive Part
  | minus
  | zero
  | whole
  | point
  | fraction
  | mark
  | sign
  | exponent
deriving DecidableEq, Repr

namespace Part

/-- Whether a number may end with that part. -/
def complete : Part → Bool
  | .zero | .whole | .fraction | .exponent => true
  | _ => false

/-- The first digit decides whether more of them may follow before the point. -/
def leading (read : Decimal) (c : CodeUnit) : Option (Part × Decimal) :=
  (digitValue c).map fun d => (if d = 0 then .zero else .whole, read.whole d)

def afterWhole (read : Decimal) (c : CodeUnit) : Option (Part × Decimal) :=
  if c = unit '.' then some (.point, read)
  else if c = unit 'e' ∨ c = unit 'E' then some (.mark, read)
  else none

def next (read : Decimal) (c : CodeUnit) : Part → Option (Part × Decimal)
  | .minus => leading read c
  | .zero => afterWhole read c
  | .whole => ((digitValue c).map fun d => (.whole, read.whole d)).or (afterWhole read c)
  | .point => (digitValue c).map fun d => (.fraction, read.fraction d)
  | .fraction =>
    ((digitValue c).map fun d => (.fraction, read.fraction d)).or
      (if c = unit 'e' ∨ c = unit 'E' then some (.mark, read) else none)
  | .mark =>
    if c = unit '+' then some (.sign, read)
    else if c = unit '-' then some (.sign, { read with negativeExponent := true })
    else (digitValue c).map fun d => (.exponent, read.power d)
  | .sign => (digitValue c).map fun d => (.exponent, read.power d)
  | .exponent => (digitValue c).map fun d => (.exponent, read.power d)

end Part

inductive Token
  | openBrace
  | closeBrace
  | openBracket
  | closeBracket
  | colon
  | comma
  | literal (value : Value)
deriving Repr

/-- Where the scanner stands between two code units. -/
inductive Scan
  | idle
  | word (rest : Text) (means : Value)
  | number (part : Part) (read : Decimal)
  | string (read : Text)
  | escape (read : Text)
  | unicode (read : Text) (left code : Nat)

namespace Scan

def punctuation : List (CodeUnit × Token) :=
  [(unit '{', .openBrace), (unit '}', .closeBrace), (unit '[', .openBracket), (unit ']', .closeBracket),
    (unit ':', .colon), (unit ',', .comma)]

def escapes : List (CodeUnit × CodeUnit) :=
  [(unit '"', unit '"'), (unit '\\', unit '\\'), (unit '/', unit '/'), (unit 'b', 8), (unit 'f', 12),
    (unit 'n', 10), (unit 'r', 13), (unit 't', 9)]

/-- The tokens that end with a code unit, and where the scanner stands after it. -/
abbrev Step := Option (List Token × Scan)

/-- A code unit between two tokens. -/
def fresh (c : CodeUnit) : Step :=
  if isBlank c then some ([], .idle)
  else if c = unit '"' then some ([], .string [])
  else if c = unit '-' then some ([], .number .minus { Decimal.start with negative := true })
  else if c = unit 't' then some ([], .word (ofString "rue") (.boolean true))
  else if c = unit 'f' then some ([], .word (ofString "alse") (.boolean false))
  else if c = unit 'n' then some ([], .word (ofString "ull") .null)
  else ((punctuation.lookup c).map fun token => ([token], .idle)).or
    ((Part.leading .start c).map fun (part, read) => ([], .number part read))

def step (c : CodeUnit) : Scan → Step
  | .idle => fresh c
  | .word [] _ => none
  | .word [last] means => if c = last then some ([.literal means], .idle) else none
  | .word (next :: rest) means => if c = next then some ([], .word rest means) else none
  | .number part read =>
    match part.next read c with
    | some (part, read) => some ([], .number part read)
    | none =>
      -- a number ends where the next token begins
      if part.complete then
        (fresh c).map fun (tokens, state) => (.literal (.number (.ofExact read.value)) :: tokens, state)
      else none
  | .string read =>
    if c = unit '"' then some ([.literal (.string read)], .idle)
    else if c = unit '\\' then some ([], .escape read)
    else if c.val < 0x20 then none
    else some ([], .string (read ++ [c]))
  | .escape read =>
    if c = unit 'u' then some ([], .unicode read 4 0)
    else (escapes.lookup c).map fun meant => ([], .string (read ++ [meant]))
  | .unicode read left code => (hexValue c).map fun d =>
    if left ≤ 1 then ([], .string (read ++ [Fin.ofNat 0x10000 (code * 16 + d)]))
    else ([], .unicode read (left - 1) (code * 16 + d))

/-- The tokens that the end of the text completes. -/
def finish : Scan → Option (List Token)
  | .idle => some []
  | .number part read => if part.complete then some [.literal (.number (.ofExact read.value))] else none
  | _ => none

/-- Goes on after the tokens scanned so far. -/
def advance (scanned : List Token × Scan) (c : CodeUnit) : Step :=
  (scanned.2.step c).map fun (tokens, state) => (scanned.1 ++ tokens, state)

end Scan

def tokens (text : Text) : Option (List Token) := do
  let (scanned, state) ← text.foldlM Scan.advance ([], .idle)
  return scanned ++ (← state.finish)

/-- An array or an object whose end has not been reached; the key is that of the member being read. -/
inductive Frame
  | array (items : List Value)
  | object (members : List (Text × Value)) (key : Text)

mutual

/-- Parses tokens that begin with a value. -/
def parseValue : List Frame → List Token → Option Value
  | stack, .literal value :: rest => parseRest value stack rest
  | stack, .openBracket :: .closeBracket :: rest => parseRest (.array []) stack rest
  | stack, .openBracket :: rest => parseValue (.array [] :: stack) rest
  | stack, .openBrace :: .closeBrace :: rest => parseRest (.object []) stack rest
  | stack, .openBrace :: .literal (.string key) :: .colon :: rest => parseValue (.object [] key :: stack) rest
  | _, _ => none

/-- Parses the tokens after a value. -/
def parseRest : Value → List Frame → List Token → Option Value
  | value, [], [] => some value
  | value, .array items :: stack, .comma :: rest => parseValue (.array (items ++ [value]) :: stack) rest
  | value, .array items :: stack, .closeBracket :: rest => parseRest (.array (items ++ [value])) stack rest
  | value, .object members key :: stack, .comma :: .literal (.string next) :: .colon :: rest =>
    parseValue (.object (members ++ [(key, value)]) next :: stack) rest
  | value, .object members key :: stack, .closeBrace :: rest =>
    parseRest (.object (members ++ [(key, value)])) stack rest
  | _, _, _ => none

end

/-- `JSON.parse(text)`, or none where it throws a `SyntaxError`. -/
def parseJson (text : Text) : Option Value := (tokens text).bind (parseValue [])

def hexUnit (d : Nat) : CodeUnit := if d < 10 then digitUnit d else Fin.ofNat 0x10000 (0x61 + d - 10)

def unicodeEscape (c : CodeUnit) : Text :=
  ofString "\\u" ++ [hexUnit (c.val / 0x1000), hexUnit (c.val / 0x100 % 0x10), hexUnit (c.val / 0x10 % 0x10),
    hexUnit (c.val % 0x10)]

def shortEscapes : List (CodeUnit × CodeUnit) :=
  [(8, unit 'b'), (9, unit 't'), (10, unit 'n'), (12, unit 'f'), (13, unit 'r'), (unit '"', unit '"'),
    (unit '\\', unit '\\')]

def quoteUnit (c : CodeUnit) : Text :=
  match shortEscapes.lookup c with
  | some short => [unit '\\', short]
  | none => if c.val < 0x20 || c.isHighSurrogate || c.isLowSurrogate then unicodeEscape c else [c]

def quoteUnits : Text → Text
  | [] => []
  | [u] => quoteUnit u
  | u :: v :: rest =>
    if u.isHighSurrogate && v.isLowSurrogate then u :: v :: quoteUnits rest
    else quoteUnit u ++ quoteUnits (v :: rest)

/-- `JSON.stringify(value)`, where the numbers that are not finite become `null`. -/
def Value.Sum.json (conversions : Conversions) : Value.Sum → Text
  | .number (.finite value) => conversions.numberText (.finite value)
  | .number _ => ofString "null"
  | .string value => ofString "\"" ++ quoteUnits value ++ ofString "\""

theorem digitValue_digitUnit {d : Nat} (small : d < 10) : digitValue (digitUnit d) = some d := by
  have value : (digitUnit d).val = 0x30 + d := Nat.mod_eq_of_lt (by omega)
  rw [digitValue, value, if_pos (by omega), Nat.add_sub_cancel_left]

theorem advance_digits {ds : List Nat} (small : ∀ d ∈ ds, d < 10) (scanned : List Token) (read : Decimal) :
    (ds.map digitUnit).foldlM Scan.advance (scanned, .number .whole read) =
      some (scanned, .number .whole { read with digits := ds.foldl (fun n d => n * 10 + d) read.digits }) := by
  induction ds generalizing read with
  | nil => rfl
  | cons d rest ih =>
    obtain ⟨smallD, smallRest⟩ := List.forall_mem_cons.mp small
    have step : Scan.advance (scanned, .number .whole read) (digitUnit d) =
        some (scanned, .number .whole (read.whole d)) := by
      simp [Scan.advance, Scan.step, Part.next, digitValue_digitUnit smallD]
    rw [List.map_cons, List.foldlM_cons, step]
    exact ih smallRest (read.whole d)

theorem fresh_digitUnit {d : Nat} (small : d < 10) :
    Scan.fresh (digitUnit d) = some ([], .number (if d = 0 then .zero else .whole) (Decimal.start.whole d)) := by
  interval_cases d <;> rfl

/-- The digits of a number other than zero, the first of which is not zero. -/
theorem digits_reverse {n : Nat} (positive : n ≠ 0) :
    ∃ d rest, (Nat.digits 10 n).reverse = d :: rest ∧ d ≠ 0 ∧ (∀ e ∈ d :: rest, e < 10) ∧
      rest.foldl (fun n d => n * 10 + d) d = n := by
  have value : (Nat.digits 10 n).reverse.foldl (fun n d => n * 10 + d) 0 = n := by
    rw [List.foldl_reverse]
    refine Eq.trans ?_ (Nat.ofDigits_digits 10 n)
    rw [Nat.ofDigits_eq_foldr]
    simp only [Nat.cast_id, add_comm, mul_comm]
  cases shape : (Nat.digits 10 n).reverse with
  | nil => exact (positive (Nat.digits_eq_nil_iff_eq_zero.mp (List.reverse_eq_nil_iff.mp shape))).elim
  | cons d rest =>
    rw [shape, List.foldl_cons, Nat.zero_mul, Nat.zero_add] at value
    refine ⟨d, rest, rfl, ?_, fun e member => ?_, value⟩
    · have last := Nat.getLast_digit_ne_zero 10 positive
      simpa only [List.getLast_eq_head_reverse, shape, List.head_cons] using last
    · exact Nat.digits_lt_base (by decide) (List.mem_reverse.mp (shape ▸ member))

theorem numeral_eq_cons (n : Nat) : ∃ d rest, numeral n = digitUnit d :: rest ∧ d < 10 := by
  by_cases zero : n = 0
  · exact ⟨0, [], by rw [numeral, if_pos zero], by decide⟩
  · obtain ⟨d, rest, shape, _, small, _⟩ := digits_reverse zero
    exact ⟨d, rest.map digitUnit, by rw [numeral, if_neg zero, shape, List.map_cons],
      small d (List.mem_cons_self ..)⟩

/-- The scanner reads a numeral as the number it is the numeral of. -/
theorem advance_numeral (n : Nat) (scanned : List Token) :
    (numeral n).foldlM Scan.advance (scanned, .idle) =
      some (scanned, .number (if n = 0 then .zero else .whole) { Decimal.start with digits := n }) := by
  by_cases zero : n = 0
  · subst zero
    simp [numeral, Scan.advance, Scan.step, fresh_digitUnit, Decimal.whole, Decimal.start]
  · obtain ⟨d, rest, shape, leading, small, value⟩ := digits_reverse zero
    obtain ⟨smallD, smallRest⟩ := List.forall_mem_cons.mp small
    have step : Scan.advance (scanned, .idle) (digitUnit d) =
      some (scanned, .number .whole (Decimal.start.whole d)) := by
      simp [Scan.advance, Scan.step, fresh_digitUnit smallD, leading]
    rw [numeral, if_neg zero, if_neg zero, shape, List.map_cons, List.foldlM_cons, step]
    refine (advance_digits smallRest scanned _).trans ?_
    simp [Decimal.whole, Decimal.start, value]

theorem value_digits (n : Nat) : Decimal.value { Decimal.start with digits := n } = n := by
  simp [Decimal.value, Decimal.start]

/-- A decimal numeral is JSON, and stands for its number. -/
theorem parseJson_numeral (n : Nat) : parseJson (numeral n) = some (.number (.ofExact n)) := by
  have complete : (if n = 0 then Part.zero else .whole).complete = true := by
    split <;> rfl
  simp [parseJson, tokens, advance_numeral, Scan.finish, complete, value_digits, parseValue, parseRest]

theorem advance_append {text rest : Text} {scanned after : List Token × Scan}
    (first : text.foldlM Scan.advance scanned = some after) :
    (text ++ rest).foldlM Scan.advance scanned = rest.foldlM Scan.advance after := by
  rw [List.foldlM_append, first]
  rfl

/-- What has been scanned before does not matter to the scanner. -/
theorem advance_from (text : Text) (scanned : List Token) (state : Scan) :
    text.foldlM Scan.advance (scanned, state) =
      (text.foldlM Scan.advance ([], state)).map fun after => (scanned ++ after.1, after.2) := by
  induction text generalizing scanned state with
  | nil => simp
  | cons c rest ih =>
    rw [List.foldlM_cons, List.foldlM_cons]
    cases step : state.step c with
    | none => simp [Scan.advance, step]
    | some next =>
      simp only [Scan.advance, step, Option.map_some, Option.bind_eq_bind, Option.bind_some, List.nil_append]
      rw [ih, ih next.1, Option.map_map]
      simp only [Function.comp_def, List.append_assoc]

/-- A punctuation mark ends the number before it. -/
theorem advance_mark {c : CodeUnit} {token : Token} (mark : (c, token) ∈ Scan.punctuation) {part : Part}
    (digits : part = .zero ∨ part = .whole) (read : Decimal) (scanned : List Token) :
    Scan.advance (scanned, .number part read) c =
      some (scanned ++ [.literal (.number (.ofExact read.value)), token], .idle) := by
  simp only [Scan.punctuation, List.mem_cons, Prod.mk.injEq, List.not_mem_nil, or_false] at mark
  rcases digits with rfl | rfl <;>
    rcases mark with ⟨rfl, rfl⟩ | ⟨rfl, rfl⟩ | ⟨rfl, rfl⟩ | ⟨rfl, rfl⟩ | ⟨rfl, rfl⟩ | ⟨rfl, rfl⟩ <;> rfl

theorem advance_numeral_mark {c : CodeUnit} {token : Token} (mark : (c, token) ∈ Scan.punctuation) (n : Nat)
    (scanned : List Token) : (numeral n ++ [c]).foldlM Scan.advance (scanned, .idle) =
      some (scanned ++ [.literal (.number (.ofExact n)), token], .idle) := by
  have digits : (if n = 0 then Part.zero else .whole) = .zero ∨ (if n = 0 then Part.zero else .whole) = .whole := by
    split
    · exact .inl rfl
    · exact .inr rfl
  rw [List.foldlM_append, advance_numeral]
  simp only [Option.bind_eq_bind, Option.bind_some, List.foldlM_cons, List.foldlM_nil, advance_mark mark digits,
    value_digits, Option.pure_def]

end Js
