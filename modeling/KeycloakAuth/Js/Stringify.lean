import KeycloakAuth.Js.Json
import KeycloakAuth.Js.Utf8

namespace Js

def quote (text : Text) : Text := [unit '"'] ++ quoteUnits text ++ [unit '"']

/-- Line breaks and indentation stand only where there is a gap. -/
def brackets (first last : CodeUnit) (gap indent : Text) (inside : List Text) : Text :=
  if inside.isEmpty then [first, last]
  else
    let line := if gap.isEmpty then [] else 10 :: indent
    let inner := if gap.isEmpty then [] else 10 :: (indent ++ gap)
    first :: (inner ++ (unit ',' :: inner).intercalate inside ++ line ++ [last])

namespace Value
variable (conversions : Conversions) (gap : Text)

mutual

/-- A value as it stands in JSON, where `undefined` has no form of its own. -/
def render (indent : Text) : Value → Text
  | .undefined => ofString "null"
  | .null => ofString "null"
  | .boolean value => ofString (if value then "true" else "false")
  | .number (.finite value) => conversions.numberText (.finite value)
  | .number _ => ofString "null"
  | .string value => quote value
  | .array items => brackets (unit '[') (unit ']') gap indent (renderItems (indent ++ gap) items)
  | .object members => brackets (unit '\x7b') (unit '\x7d') gap indent (renderMembers (indent ++ gap) members)

def renderItems (indent : Text) : List Value → List Text
  | [] => []
  | item :: rest => item.render indent :: renderItems indent rest

/-- Members that are undefined are left out. -/
def renderMembers (indent : Text) : List (Text × Value) → List Text
  | [] => []
  | (_, .undefined) :: rest => renderMembers indent rest
  | (key, value) :: rest =>
    (quote key ++ [unit ':'] ++ (if gap.isEmpty then [] else [unit ' ']) ++ value.render
      indent) :: renderMembers indent rest

end

/-- `JSON.stringify(value, null, space)`. -/
def stringify (space : Nat) (value : Value) : Option Text :=
  match value with
  | .undefined => none
  | value => some (value.render conversions (List.replicate (min 10 space) (unit ' ')) [])

mutual

/-- What JSON keeps of a value: `null` for what has no form of its own, and no member that is undefined. -/
def plain : Value → Value
  | .undefined => .null
  | .number (.finite value) => .number (.finite value)
  | .number _ => .null
  | .array items => .array (plainItems items)
  | .object members => .object (plainMembers members)
  | value => value

def plainItems : List Value → List Value
  | [] => []
  | item :: rest => item.plain :: plainItems rest

def plainMembers : List (Text × Value) → List (Text × Value)
  | [] => []
  | (_, .undefined) :: rest => plainMembers rest
  | (key, value) :: rest => (key, value.plain) :: plainMembers rest

end

mutual

/-- The finite numbers in a value. -/
def numbers : Value → List ℚ
  | .number (.finite value) => [value]
  | .array items => numbersOfItems items
  | .object members => numbersOfMembers members
  | _ => []

def numbersOfItems : List Value → List ℚ
  | [] => []
  | item :: rest => item.numbers ++ numbersOfItems rest

def numbersOfMembers : List (Text × Value) → List ℚ
  | [] => []
  | (_, value) :: rest => value.numbers ++ numbersOfMembers rest

end

mutual

/-- The tokens of the JSON of a value. -/
def tokens : Value → List Token
  | .array items => .openBracket :: [Token.comma].intercalate (tokensOfItems items) ++ [.closeBracket]
  | .object members => .openBrace :: [Token.comma].intercalate (tokensOfMembers members) ++ [.closeBrace]
  | value => [.literal value.plain]

def tokensOfItems : List Value → List (List Token)
  | [] => []
  | item :: rest => item.tokens :: tokensOfItems rest

def tokensOfMembers : List (Text × Value) → List (List Token)
  | [] => []
  | (_, .undefined) :: rest => tokensOfMembers rest
  | (key, value) :: rest => (.literal (.string key) :: .colon :: value.tokens) :: tokensOfMembers rest

end

end Value

/-- The tokens of the rest of a text, from a state of the scanner on. -/
def scanFrom (scanned : List Token × Scan) (text : Text) : Option (List Token) :=
  (text.foldlM Scan.advance scanned).bind fun (scanned, state) => state.finish.map (scanned ++ ·)

theorem tokens_eq (text : Text) : tokens text = scanFrom ([], .idle) text := by
  unfold tokens scanFrom
  cases text.foldlM Scan.advance ([], .idle) with
  | none => rfl
  | some after => cases ended : after.2.finish <;> simp [ended]

theorem scanFrom_cons {scanned after : List Token × Scan} {c : CodeUnit} (step : scanned.2.step c = some after)
    (rest : Text) : scanFrom scanned (c :: rest) = scanFrom (scanned.1 ++ after.1, after.2) rest := by
  simp only [scanFrom, List.foldlM_cons, Scan.advance, step, Option.map_some, Option.bind_eq_bind, Option.bind_some]

/-- No number goes on with that text. -/
def Stops (rest : Text) : Prop := ∀ c ∈ rest.head?, isBlank c = true ∨ ∃ token, (c, token) ∈ Scan.punctuation

/-- The scanner reads a text as those tokens when nothing follows that belongs to it. -/
def Reads (text : Text) (tokens : List Token) : Prop :=
  ∀ rest, Stops rest → ∀ scanned, scanFrom (scanned, .idle)
    (text ++ rest) = scanFrom (scanned ++ tokens, .idle) rest

theorem step_mark {c : CodeUnit} {token : Token} (mark : (c, token) ∈ Scan.punctuation) :
    Scan.step c .idle = some ([token], .idle) := by
  simp only [Scan.punctuation, List.mem_cons, Prod.mk.injEq, List.not_mem_nil, or_false] at mark
  rcases mark with ⟨rfl, rfl⟩ | ⟨rfl, rfl⟩ | ⟨rfl, rfl⟩ | ⟨rfl, rfl⟩ | ⟨rfl, rfl⟩ | ⟨rfl, rfl⟩ <;> rfl

theorem scanFrom_mark {c : CodeUnit} {token : Token} (mark : (c, token) ∈ Scan.punctuation) (scanned : List Token)
    (rest : Text) : scanFrom (scanned, .idle) (c :: rest) = scanFrom (scanned ++ [token], .idle) rest := by
  rw [scanFrom_cons (step_mark mark)]

theorem scanFrom_blanks {blanks : Text} (blank : ∀ c ∈ blanks, isBlank c = true)
    (scanned : List Token) (rest : Text) :
    scanFrom (scanned, .idle) (blanks ++ rest) = scanFrom (scanned, .idle) rest := by
  induction blanks with
  | nil => rfl
  | cons c others ih =>
    obtain ⟨first, later⟩ := List.forall_mem_cons.mp blank
    have step : Scan.step c .idle = some ([], .idle) := by rw [Scan.step, Scan.fresh, if_pos first]
    rw [List.cons_append, scanFrom_cons step]
    simpa only [List.append_nil] using ih later

theorem stops_mark {c : CodeUnit} {token : Token} (mark : (c, token) ∈ Scan.punctuation) (rest : Text) :
    Stops (c :: rest) := by
  rintro _ ⟨⟩
  exact .inr ⟨token, mark⟩

theorem stops_blanks {blanks rest : Text} (blank : ∀ c ∈ blanks, isBlank c = true) (stops : Stops rest) :
    Stops (blanks ++ rest) := by
  cases blanks with
  | nil => exact stops
  | cons c others =>
    rintro _ ⟨⟩
    exact .inl (blank c List.mem_cons_self)

theorem hexValue_hexUnit {d : Nat} (small : d < 16) : hexValue (hexUnit d) = some d := by
  interval_cases d <;> rfl

theorem step_unicode (read : Text) {left code d : Nat} (small : d < 16) :
    (Scan.unicode read (left + 2) code).step (hexUnit d) =
    some ([], .unicode read (left + 1) (code * 16 + d)) := by
  rw [Scan.step, hexValue_hexUnit small]
  simp

theorem step_unicode_last (read : Text) {code d : Nat} (small : d < 16) :
    (Scan.unicode read 1 code).step (hexUnit d) =
    some ([], .string (read ++ [Fin.ofNat 0x10000 (code * 16 + d)])) := by
  rw [Scan.step, hexValue_hexUnit small]
  simp

theorem scanFrom_unicodeEscape (c : CodeUnit) (read : Text) (scanned : List Token) (rest : Text) :
    scanFrom (scanned, .string read) (unicodeEscape c ++ rest) =
      scanFrom (scanned, .string (read ++ [c])) rest := by
  have bound := c.isLt
  have back : Scan.step (unit '\\') (.string read) = some ([], .escape read) := rfl
  have letter : Scan.step (unit 'u') (.escape read) = some ([], .unicode read 4 0) := rfl
  have start : ofString "\\u" = [unit '\\', unit 'u'] := rfl
  have whole : Fin.ofNat 0x10000 ((((0 * 16 + c.val / 0x1000) * 16 + c.val / 0x100 % 0x10) * 16 +
      c.val / 0x10 % 0x10) * 16 + c.val % 0x10) = c := by
    refine Fin.ext ((Nat.mod_eq_of_lt ?_).trans ?_) <;> omega
  rw [unicodeEscape, start]
  simp only [List.cons_append, List.nil_append]
  rw [scanFrom_cons back, scanFrom_cons letter, scanFrom_cons (step_unicode read (by omega)),
    scanFrom_cons (step_unicode read (by omega)), scanFrom_cons (step_unicode read (by omega)),
    scanFrom_cons (step_unicode_last read (by omega)), whole]
  simp only [List.append_nil]

theorem step_plain {c : CodeUnit} (quote : c ≠ unit '"') (back : c ≠ unit '\\') (visible : 0x20 ≤ c.val)
    (read : Text) :
    (Scan.string read).step c = some ([], .string (read ++ [c])) := by
  rw [Scan.step, if_neg quote, if_neg back, if_neg (by omega)]

/-- The scanner takes a quoted unit for the unit. -/
theorem scanFrom_quoteUnit (c : CodeUnit) (read : Text) (scanned : List Token) (rest : Text) :
    scanFrom (scanned, .string read) (quoteUnit c ++ rest) = scanFrom (scanned, .string (read ++ [c])) rest := by
  unfold quoteUnit
  cases short : shortEscapes.lookup c with
  | some letter =>
    obtain ⟨before, after, whole, _⟩ := List.lookup_eq_some_iff.mp short
    have member : (c, letter) ∈ shortEscapes := by
      rw [whole]
      exact List.mem_append_right _ List.mem_cons_self
    simp only [shortEscapes, List.mem_cons, Prod.mk.injEq, List.not_mem_nil, or_false] at member
    have back : Scan.step (unit '\\') (.string read) = some ([], .escape read) := rfl
    have escape : Scan.step letter (.escape read) = some ([], .string (read ++ [c])) := by
      rcases member with ⟨rfl, rfl⟩ | ⟨rfl, rfl⟩ | ⟨rfl, rfl⟩ | ⟨rfl, rfl⟩ | ⟨rfl,
        rfl⟩ | ⟨rfl, rfl⟩ | ⟨rfl, rfl⟩ <;> rfl
    rw [List.cons_append, scanFrom_cons back, List.cons_append, scanFrom_cons escape]
    simp only [List.append_nil, List.nil_append]
  | none =>
    simp only
    split
    · exact scanFrom_unicodeEscape c read scanned rest
    · rename_i ordinary
      simp only [Bool.or_eq_true, decide_eq_true_eq, not_or, Nat.not_lt] at ordinary
      have quote : c ≠ unit '"' := by rintro rfl; cases short
      have back : c ≠ unit '\\' := by rintro rfl; cases short
      rw [List.cons_append, scanFrom_cons (step_plain quote back ordinary.1.1 read)]
      simp only [List.append_nil, List.nil_append]

theorem step_surrogate {c : CodeUnit} (surrogate : 0xD800 ≤ c.val) (read : Text) :
    (Scan.string read).step c = some ([], .string (read ++ [c])) := by
  have other {d : CodeUnit} (small : d.val < 0xD800) : c ≠ d := by
    rintro rfl
    omega
  exact step_plain (other (by decide)) (other (by decide)) (by omega) read

theorem scanFrom_quoteUnits (text read : Text) (scanned : List Token) (rest : Text) :
    scanFrom (scanned, .string read) (quoteUnits text ++ rest) =
      scanFrom (scanned, .string (read ++ text)) rest := by
  fun_induction quoteUnits text generalizing read with
  | case1 => simp only [List.nil_append, List.append_nil]
  | case2 u => exact scanFrom_quoteUnit u read scanned rest
  | case3 u v others pair ih =>
    simp only [CodeUnit.isHighSurrogate, CodeUnit.isLowSurrogate, Bool.and_eq_true, decide_eq_true_eq] at pair
    rw [List.cons_append, scanFrom_cons (step_surrogate pair.1.1 read), List.cons_append,
      scanFrom_cons (step_surrogate (by omega) _)]
    simp only [List.append_nil]
    rw [ih]
    simp only [List.append_assoc, List.cons_append, List.nil_append]
  | case4 u v others alone ih =>
    rw [List.append_assoc, scanFrom_quoteUnit, ih]
    simp only [List.append_assoc, List.cons_append, List.nil_append]

theorem scanFrom_quote (text : Text) (scanned : List Token)
    (rest : Text) : scanFrom (scanned, .idle) (quote text ++ rest) =
    scanFrom (scanned ++ [.literal (.string text)], .idle) rest := by
  have opens : Scan.step (unit '"') .idle = some ([], .string []) := rfl
  have closes : Scan.step (unit '"') (.string text) = some ([.literal (.string text)], .idle) := rfl
  simp only [quote, List.append_assoc, List.cons_append, List.nil_append]
  rw [scanFrom_cons opens, scanFrom_quoteUnits, List.nil_append, scanFrom_cons closes]
  simp only [List.append_nil]

theorem Reads.quote (text : Text) : Reads (quote text) [.literal (.string text)] :=
  fun rest _ scanned => scanFrom_quote text scanned rest

theorem wellFormed_low {text : Text} (low : ∀ c ∈ text, c.val < 0xD800) : WellFormed text := by
  induction text with
  | nil => exact .nil
  | cons c rest ih =>
    obtain ⟨first, others⟩ := List.forall_mem_cons.mp low
    refine .unit ?_ ?_ (ih others) <;>
      · simp only [CodeUnit.isHighSurrogate, CodeUnit.isLowSurrogate,
          Bool.and_eq_false_iff, decide_eq_false_iff_not]
        omega

theorem numeral_low (n : Nat) : ∀ c ∈ numeral n, c.val < 0xD800 := by
  have low {d : Nat} (small : d < 10) : (digitUnit d).val < 0xD800 := by interval_cases d <;> decide
  intro c member
  unfold numeral at member
  split at member
  · cases List.mem_singleton.mp member
    exact low (by decide)
  · obtain ⟨d, digit, rfl⟩ := List.mem_map.mp member
    exact low (Nat.digits_lt_base (by decide) (List.mem_reverse.mp digit))

/-- A numeral that the scanner takes for the number it was made of. -/
def Legible (conversions : Conversions) (value : ℚ) : Prop :=
  WellFormed (conversions.numberText (.finite value)) ∧
  ∃ part read, part.complete = true ∧ Number.ofExact read.value = .finite value ∧
    ∀ scanned, (conversions.numberText (.finite value)).foldlM Scan.advance (scanned, .idle) =
      some (scanned, .number part read)

theorem legible_natCast (conversions : Conversions) {n : Nat} (small : n < 2 ^ 53) : Legible conversions n := by
  refine ⟨?_, if n = 0 then .zero else .whole, { Decimal.start with digits := n }, ?_, ?_, ?_⟩
  · rw [conversions.numberText_natCast n small]
    exact wellFormed_low (numeral_low n)
  · split <;> rfl
  · rw [value_digits, Number.ofExact_natCast small.le]
  · intro scanned
    rw [conversions.numberText_natCast n small]
    exact advance_numeral n scanned

theorem next_delimiter {c : CodeUnit} (delimiter : isBlank c = true ∨ ∃ token,
    (c, token) ∈ Scan.punctuation) (part : Part)
    (read : Decimal) : part.next read c = none := by
  have cases : c = unit ' ' ∨ c = unit '\t' ∨ c = unit '\n' ∨ c = unit '\r' ∨ c = unit '\x7b' ∨ c = unit '\x7d' ∨
      c = unit '[' ∨ c = unit ']' ∨ c = unit ':' ∨ c = unit ',' := by
    rcases delimiter with blank | ⟨token, mark⟩
    · simp only [isBlank, Bool.or_eq_true, decide_eq_true_eq] at blank
      tauto
    · simp only [Scan.punctuation, List.mem_cons, Prod.mk.injEq, List.not_mem_nil, or_false] at mark
      tauto
  rcases cases with rfl | rfl | rfl | rfl | rfl | rfl | rfl | rfl | rfl | rfl <;> cases part <;> rfl

theorem Reads.number {conversions : Conversions} {value : ℚ} (legible : Legible conversions value) :
    Reads (conversions.numberText (.finite value)) [.literal (.number (.finite value))] := by
  obtain ⟨-, part, read, complete, exact, scans⟩ := legible
  intro rest stops scanned
  rw [scanFrom, List.foldlM_append, scans]
  cases rest with
  | nil => simp [scanFrom, Scan.finish, complete, exact]
  | cons c others =>
    have delimiter := stops c rfl
    have step : Scan.advance (scanned, .number part read) c =
        Scan.advance (scanned ++ [.literal (.number (.finite value))], .idle) c := by
      simp only [Scan.advance, Scan.step, next_delimiter delimiter, complete, exact, if_true, Option.map_map]
      refine congrArg (Option.map · (Scan.fresh c)) (funext fun after => ?_)
      simp only [Function.comp_apply, List.append_assoc, List.cons_append, List.nil_append]
    simp only [scanFrom, Option.bind_eq_bind, Option.bind_some, List.foldlM_cons, step]

theorem scanFrom_word {text : Text} (some : text ≠ []) (means : Value) (scanned : List Token) (rest : Text) :
    scanFrom (scanned, .word text means) (text ++ rest) = scanFrom (scanned ++ [.literal means], .idle) rest := by
  induction text with
  | nil => exact (some rfl).elim
  | cons c others ih =>
    cases others with
    | nil =>
      have step : Scan.step c (.word [c] means) = .some ([.literal means], .idle) := if_pos rfl
      rw [List.cons_append, scanFrom_cons step]
      rfl
    | cons next later =>
      have step : Scan.step c (.word (c :: next :: later) means) =
        .some ([], .word (next :: later) means) := if_pos rfl
      rw [List.cons_append, scanFrom_cons step]
      simpa only [List.append_nil] using ih (List.cons_ne_nil next later)

theorem Reads.word {c : CodeUnit} {text : Text} {means : Value} (some : text ≠ [])
    (step : Scan.step c .idle = .some ([], .word text means)) : Reads (c :: text) [.literal means] := by
  intro rest _ scanned
  rw [List.cons_append, scanFrom_cons step]
  simpa only [List.append_nil] using scanFrom_word some means scanned rest

theorem Reads.null : Reads (ofString "null") [.literal .null] :=
  Reads.word (List.cons_ne_nil _ _) (show Scan.step (unit 'n') .idle = _ from rfl)

theorem Reads.boolean (value : Bool) :
    Reads (ofString (if value then "true" else "false")) [.literal (.boolean value)] := by
  cases value
  · exact Reads.word (List.cons_ne_nil _ _) (show Scan.step (unit 'f') .idle = _ from rfl)
  · exact Reads.word (List.cons_ne_nil _ _) (show Scan.step (unit 't') .idle = _ from rfl)

section
variable {conversions : Conversions} {gap indent : Text}

theorem Reads.join {inner : Text} (blank : ∀ c ∈ inner, isBlank c = true)
    {texts : List Text} {tokens : List (List Token)}
    (reads : List.Forall₂ Reads texts tokens) :
    Reads ((unit ',' :: inner).intercalate texts) ([Token.comma].intercalate tokens) := by
  have comma : (unit ',', Token.comma) ∈ Scan.punctuation := by simp [Scan.punctuation]
  induction reads with
  | nil =>
    intro rest _ scanned
    simp
  | @cons text first texts tokens own others ih =>
    cases others with
    | nil => simpa using own
    | @cons next second texts tokens nextReads others =>
      intro rest stops scanned
      rw [List.intercalate_cons_cons, List.intercalate_cons_cons]
      simp only [List.append_assoc, List.cons_append, List.nil_append]
      rw [own _ (stops_mark comma _), scanFrom_mark comma, scanFrom_blanks blank, ih rest stops]
      simp only [List.append_assoc, List.cons_append, List.nil_append]

theorem Reads.brackets {first last : CodeUnit} {opens closes : Token}
    {inside : List Text} {tokens : List (List Token)}
    (opening : (first, opens) ∈ Scan.punctuation) (closing : (last, closes) ∈ Scan.punctuation)
    (blankGap : ∀ c ∈ gap, isBlank c = true) (blankIndent : ∀ c ∈ indent, isBlank c = true)
    (reads : List.Forall₂ Reads inside tokens) :
    Reads (brackets first last gap indent inside) (opens :: [Token.comma].intercalate tokens ++ [closes]) := by
  intro rest stops scanned
  unfold Js.brackets
  have newline : isBlank 10 = true := rfl
  split
  · rename_i empty
    cases List.isEmpty_iff.mp empty
    cases reads
    simp only [List.cons_append, List.nil_append]
    rw [scanFrom_mark opening, scanFrom_mark closing]
    simp
  · have blankLine : ∀ c ∈ (if gap.isEmpty then [] else 10 :: indent), isBlank c = true := by
      split
      · simp
      · simpa using ⟨newline, blankIndent⟩
    have blankInner : ∀ c ∈ (if gap.isEmpty then [] else 10 :: (indent ++ gap)), isBlank c = true := by
      split
      · simp
      · simp only [List.mem_cons, List.mem_append]
        rintro c (rfl | old | new)
        · exact newline
        · exact blankIndent c old
        · exact blankGap c new
    simp only [List.append_assoc, List.cons_append, List.nil_append]
    rw [scanFrom_mark opening, scanFrom_blanks blankInner,
      (Reads.join blankInner reads) _ (stops_blanks blankLine (stops_mark closing rest)), scanFrom_blanks blankLine,
      scanFrom_mark closing]
    simp only [List.append_assoc, List.cons_append, List.nil_append]

theorem Reads.member {text : Text} {tokens : List Token} (reads : Reads text tokens) (key : Text) :
    Reads (Js.quote key ++ [unit ':'] ++ (if gap.isEmpty then [] else [unit ' ']) ++ text)
      (.literal (.string key) :: .colon :: tokens) := by
  intro rest stops scanned
  have colon : (unit ':', Token.colon) ∈ Scan.punctuation := by simp [Scan.punctuation]
  have blank : ∀ c ∈ (if gap.isEmpty then [] else [unit ' ']), isBlank c = true := by
    split
    · simp
    · rintro c member
      cases List.mem_singleton.mp member
      rfl
  simp only [List.append_assoc, List.cons_append, List.nil_append]
  rw [scanFrom_quote, scanFrom_mark colon, scanFrom_blanks blank, reads rest stops]
  simp only [List.append_assoc, List.cons_append, List.nil_append]

mutual

/-- Structural in the value, with the indentation that the brackets around it have grown. -/
theorem reads_render (blankGap : ∀ c ∈ gap, isBlank c = true) (indent : Text)
    (blankIndent : ∀ c ∈ indent, isBlank c = true) :
    (value : Value) → (∀ number ∈ value.numbers, Legible conversions number) →
      Reads (value.render conversions gap indent) value.tokens
  | .undefined, _ => Reads.null
  | .null, _ => Reads.null
  | .boolean value, _ => Reads.boolean value
  | .number (.finite value), legible => Reads.number (legible value List.mem_cons_self)
  | .number .nan, _ => Reads.null
  | .number (.infinity _), _ => Reads.null
  | .string value, _ => Reads.quote value
  | .array items, legible => by
    refine Reads.brackets ?_ ?_ blankGap blankIndent (reads_renderItems blankGap (indent ++ gap) ?_ items legible)
    · simp [Scan.punctuation]
    · simp [Scan.punctuation]
    · exact fun c member => (List.mem_append.mp member).elim (blankIndent c) (blankGap c)
  | .object members, legible => by
    refine Reads.brackets ?_ ?_ blankGap blankIndent (reads_renderMembers blankGap
      (indent ++ gap) ?_ members legible)
    · simp [Scan.punctuation]
    · simp [Scan.punctuation]
    · exact fun c member => (List.mem_append.mp member).elim (blankIndent c) (blankGap c)

theorem reads_renderItems (blankGap : ∀ c ∈ gap, isBlank c = true) (indent : Text)
    (blankIndent : ∀ c ∈ indent, isBlank c = true) : (items : List Value) →
      (∀ number ∈ Value.numbersOfItems items, Legible conversions number) →
      List.Forall₂ Reads (Value.renderItems conversions gap indent items) (Value.tokensOfItems items)
  | [], _ => .nil
  | item :: rest, legible =>
    .cons (reads_render blankGap indent blankIndent item fun number member =>
      legible number (List.mem_append_left _ member))
      (reads_renderItems blankGap indent blankIndent rest fun number member =>
        legible number (List.mem_append_right _ member))

theorem reads_renderMembers (blankGap : ∀ c ∈ gap, isBlank c = true) (indent : Text)
    (blankIndent : ∀ c ∈ indent, isBlank c = true) : (members : List (Text × Value)) →
      (∀ number ∈ Value.numbersOfMembers members, Legible conversions number) →
      List.Forall₂ Reads (Value.renderMembers conversions gap indent members) (Value.tokensOfMembers members)
  | [], _ => .nil
  | (key, value) :: rest, legible => by
    have own : Reads _ _ := reads_render blankGap indent blankIndent value fun number member =>
      legible number (List.mem_append_left _ member)
    have others := reads_renderMembers blankGap indent blankIndent rest fun number member =>
      legible number (List.mem_append_right _ member)
    cases value with
    | undefined => exact others
    | _ => exact .cons (Reads.member own key) others

end

end

/-- No value begins with the end of an array. -/
theorem tokens_eq_cons (value : Value) : ∃ first rest, value.tokens = first :: rest ∧ first ≠ .closeBracket := by
  cases value <;> exact ⟨_, _, rfl, fun same => by cases same⟩

theorem parseValue_openBracket (stack : List Frame) (value : Value) (rest : List Token) :
    parseValue stack (.openBracket :: (value.tokens ++ rest)) = parseValue (.array [] :: stack)
      (value.tokens ++ rest) := by
  obtain ⟨first, others, shape, other⟩ := tokens_eq_cons value
  rw [shape, List.cons_append, parseValue]
  rintro later same
  cases same
  exact other rfl

theorem intercalate_cons (first : List Token) (others : List (List Token)) :
    [Token.comma].intercalate (first :: others) = first ++ others.flatMap (Token.comma :: ·) := by
  induction others generalizing first with
  | nil => simp
  | cons next later ih => rw [List.intercalate_cons_cons, ih, List.flatMap_cons, List.append_assoc]; rfl

mutual

/-- Structural in the value. What follows its tokens is parsed as after the value itself. -/
theorem parse_tokens : (value : Value) → (stack : List Frame) → (rest : List Token) →
    parseValue stack (value.tokens ++ rest) = parseRest value.plain stack rest
  | .undefined, _, _ => by simp [Value.tokens, parseValue]
  | .null, _, _ => by simp [Value.tokens, parseValue]
  | .boolean _, _, _ => by simp [Value.tokens, parseValue]
  | .number _, _, _ => by simp [Value.tokens, parseValue]
  | .string _, _, _ => by simp [Value.tokens, parseValue]
  | .array items, stack, rest => by
    simp only [Value.tokens, List.append_assoc, List.cons_append, List.nil_append]
    exact parse_array items stack rest
  | .object members, stack, rest => by
    simp only [Value.tokens, List.append_assoc, List.cons_append, List.nil_append]
    exact parse_object members stack rest

theorem parse_array : (items : List Value) → (stack : List Frame) → (rest : List Token) →
    parseValue stack (.openBracket :: ([Token.comma].intercalate
      (Value.tokensOfItems items) ++ .closeBracket :: rest)) =
      parseRest (.array (Value.plainItems items)) stack rest
  | [], stack, rest => by
    simp [Value.tokensOfItems, parseValue, Value.plainItems]
  | item :: items, stack, rest => by
    simp only [Value.tokensOfItems, intercalate_cons, List.append_assoc]
    rw [parseValue_openBracket, parse_tokens item, parse_laterItems items]
    rfl

theorem parse_laterItems : (items : List Value) → (value : Value) → (done : List Value) → (stack : List Frame) →
    (rest : List Token) → parseRest value (.array done :: stack)
      ((Value.tokensOfItems items).flatMap (Token.comma :: ·) ++ .closeBracket :: rest) =
        parseRest (.array (done ++ value :: Value.plainItems items)) stack rest
  | [], value, done, stack, rest => by
    simp [Value.tokensOfItems, parseRest, Value.plainItems]
  | item :: items, value, done, stack, rest => by
    simp only [Value.tokensOfItems, List.flatMap_cons, List.append_assoc, List.cons_append]
    rw [parseRest, parse_tokens item, parse_laterItems items]
    simp [Value.plainItems]

/-- Until the first member that is not undefined. -/
theorem parse_object : (members : List (Text × Value)) → (stack : List Frame) → (rest : List Token) →
    parseValue stack (.openBrace :: ([Token.comma].intercalate
      (Value.tokensOfMembers members) ++ .closeBrace :: rest)) =
      parseRest (.object (Value.plainMembers members)) stack rest
  | [], stack, rest => by
    simp [Value.tokensOfMembers, parseValue, Value.plainMembers]
  | (key, value) :: members, stack, rest => by
    have own := parse_tokens value
    have others := parse_laterMembers members key value.plain [] stack rest
    cases value with
    | undefined => exact parse_object members stack rest
    | _ =>
      simp only [Value.tokensOfMembers, intercalate_cons, List.append_assoc, List.cons_append]
      rw [parseValue, own, others]
      rfl

theorem parse_laterMembers : (members : List (Text × Value)) → (key : Text) → (value : Value) →
    (done : List (Text × Value)) → (stack : List Frame) → (rest : List Token) →
      parseRest value (.object done key :: stack)
      ((Value.tokensOfMembers members).flatMap (Token.comma :: ·) ++ .closeBrace :: rest) =
        parseRest (.object (done ++ (key, value) :: Value.plainMembers members)) stack rest
  | [], key, value, done, stack, rest => by
    simp [Value.tokensOfMembers, parseRest, Value.plainMembers]
  | (next, item) :: members, key, value, done, stack, rest => by
    have own := parse_tokens item
    have others := parse_laterMembers members next item.plain (done ++ [(key, value)]) stack rest
    have same := parse_laterMembers members key value done stack rest
    cases item with
    | undefined => exact same
    | _ =>
      simp only [Value.tokensOfMembers, List.flatMap_cons, List.append_assoc, List.cons_append]
      rw [parseRest, own, others]
      simp [Value.plainMembers]

end

/-- `JSON.parse(JSON.stringify(value, null, space))`. -/
theorem parseJson_stringify {conversions : Conversions} {space : Nat} {value : Value} {text : Text}
    (legible : ∀ number ∈ value.numbers, Legible conversions number)
    (written : value.stringify conversions space = some text) : parseJson text = some value.plain := by
  have shape : text = value.render conversions (List.replicate (min 10 space) (unit ' ')) [] := by
    cases value <;> cases written <;> rfl
  have blank : ∀ c ∈ List.replicate (min 10 space) (unit ' '), isBlank c = true := by
    intro c member
    rw [List.eq_of_mem_replicate member]
    rfl
  have stops : Stops [] := by
    intro c member
    cases member
  have reads := reads_render blank [] (by simp) value legible [] stops []
  have parsed := parse_tokens value [] []
  rw [List.append_nil] at reads parsed
  rw [parseJson, tokens_eq, shape, reads, List.nil_append]
  simpa [scanFrom, Scan.finish, parseRest] using parsed

theorem hexUnit_low {d : Nat} (small : d < 16) : (hexUnit d).val < 0xD800 := by
  interval_cases d <;> decide

theorem wellFormed_quoteUnit (c : CodeUnit) : WellFormed (quoteUnit c) := by
  have bound := c.isLt
  unfold quoteUnit
  cases short : shortEscapes.lookup c with
  | some letter =>
    obtain ⟨before, after, whole, _⟩ := List.lookup_eq_some_iff.mp short
    have member : (c, letter) ∈ shortEscapes := by
      rw [whole]
      exact List.mem_append_right _ List.mem_cons_self
    simp only [shortEscapes, List.mem_cons, Prod.mk.injEq, List.not_mem_nil, or_false] at member
    refine wellFormed_low (List.forall_mem_cons.mpr ⟨by decide,
      List.forall_mem_cons.mpr ⟨?_, List.forall_mem_nil _⟩⟩)
    rcases member with ⟨-, rfl⟩ | ⟨-, rfl⟩ | ⟨-, rfl⟩ | ⟨-, rfl⟩ | ⟨-, rfl⟩ | ⟨-, rfl⟩ | ⟨-, rfl⟩ <;> decide
  | none =>
    simp only
    split
    · have start : ofString "\\u" = [unit '\\', unit 'u'] := rfl
      refine wellFormed_low fun unit member => ?_
      simp only [unicodeEscape, start, List.mem_append, List.mem_cons, List.not_mem_nil, or_false] at member
      rcases member with (rfl | rfl) | rfl | rfl | rfl | rfl
      · decide
      · decide
      · exact hexUnit_low (by omega)
      · exact hexUnit_low (by omega)
      · exact hexUnit_low (by omega)
      · exact hexUnit_low (by omega)
    · rename_i ordinary
      simp only [Bool.or_eq_true, not_or, Bool.not_eq_true] at ordinary
      exact .unit ordinary.1.2 ordinary.2 .nil

/-- A lone surrogate is written as an escape sequence. -/
theorem wellFormed_quoteUnits (text : Text) : WellFormed (quoteUnits text) := by
  fun_induction quoteUnits text with
  | case1 => exact .nil
  | case2 u => exact wellFormed_quoteUnit u
  | case3 u v rest pair ih =>
    simp only [Bool.and_eq_true] at pair
    exact .pair pair.1 pair.2 ih
  | case4 u v rest alone ih => exact (wellFormed_quoteUnit u).append ih

theorem wellFormed_quote (text : Text) : WellFormed (quote text) :=
  ((WellFormed.unit rfl rfl .nil).append (wellFormed_quoteUnits text)).append (.unit rfl rfl .nil)

theorem wellFormed_intercalate {separator : Text} (formed : WellFormed separator) {texts : List Text}
    (each : ∀ text ∈ texts, WellFormed text) : WellFormed (separator.intercalate texts) := by
  induction texts with
  | nil => exact .nil
  | cons text rest ih =>
    obtain ⟨first, others⟩ := List.forall_mem_cons.mp each
    cases rest with
    | nil => rwa [List.intercalate_singleton]
    | cons next later =>
      rw [List.intercalate_cons_cons]
      exact (first.append formed).append (ih others)

theorem wellFormed_brackets {first last : CodeUnit} {gap indent : Text} {inside : List Text}
    (firstLow : first.val < 0xD800)
    (lastLow : last.val < 0xD800) (formedGap : WellFormed gap) (formedIndent : WellFormed indent)
    (each : ∀ text ∈ inside, WellFormed text) : WellFormed (brackets first last gap indent inside) := by
  have opening : WellFormed [first] := wellFormed_low (List.forall_mem_singleton.mpr firstLow)
  have closing : WellFormed [last] := wellFormed_low (List.forall_mem_singleton.mpr lastLow)
  have line : WellFormed (if gap.isEmpty then [] else 10 :: indent) := by
    split
    · exact .nil
    · exact .unit rfl rfl formedIndent
  have inner : WellFormed (if gap.isEmpty then [] else 10 :: (indent ++ gap)) := by
    split
    · exact .nil
    · exact .unit rfl rfl (formedIndent.append formedGap)
  unfold brackets
  split
  · exact opening.append closing
  · exact opening.append (((inner.append (wellFormed_intercalate (.unit rfl rfl inner) each)).append
      line).append closing)

section
variable {conversions : Conversions} {gap : Text}

mutual

theorem wellFormed_render (formedGap : WellFormed gap) (indent : Text) (formedIndent : WellFormed indent) :
    (value : Value) → (∀ number ∈ value.numbers, Legible conversions number) →
      WellFormed (value.render conversions gap indent)
  | .undefined, _ => wellFormed_ofString _
  | .null, _ => wellFormed_ofString _
  | .boolean _, _ => wellFormed_ofString _
  | .number (.finite value), legible => (legible value List.mem_cons_self).1
  | .number .nan, _ => wellFormed_ofString _
  | .number (.infinity _), _ => wellFormed_ofString _
  | .string value, _ => wellFormed_quote value
  | .array items, legible =>
    wellFormed_brackets (by decide) (by decide) formedGap formedIndent
      (wellFormed_renderItems formedGap (indent ++ gap) (formedIndent.append formedGap) items legible)
  | .object members, legible =>
    wellFormed_brackets (by decide) (by decide) formedGap formedIndent
      (wellFormed_renderMembers formedGap (indent ++ gap) (formedIndent.append formedGap) members legible)

theorem wellFormed_renderItems (formedGap : WellFormed gap) (indent : Text) (formedIndent : WellFormed indent) :
    (items : List Value) → (∀ number ∈ Value.numbersOfItems items, Legible conversions number) →
      ∀ text ∈ Value.renderItems conversions gap indent items, WellFormed text
  | [], _ => List.forall_mem_nil _
  | item :: rest, legible => List.forall_mem_cons.mpr
    ⟨wellFormed_render formedGap indent formedIndent item fun number member =>
      legible number (List.mem_append_left _ member),
      wellFormed_renderItems formedGap indent formedIndent rest fun number member =>
        legible number (List.mem_append_right _ member)⟩

theorem wellFormed_renderMembers (formedGap : WellFormed gap) (indent : Text) (formedIndent : WellFormed indent) :
    (members : List (Text × Value)) → (∀ number ∈ Value.numbersOfMembers members, Legible conversions number) →
      ∀ text ∈ Value.renderMembers conversions gap indent members, WellFormed text
  | [], _ => List.forall_mem_nil _
  | (key, value) :: rest, legible => by
    have own := wellFormed_render formedGap indent formedIndent value fun number member =>
      legible number (List.mem_append_left _ member)
    have others := wellFormed_renderMembers formedGap indent formedIndent rest fun number member =>
      legible number (List.mem_append_right _ member)
    have blank : WellFormed (if gap.isEmpty then [] else [unit ' ']) := by
      split
      · exact .nil
      · exact .unit rfl rfl .nil
    have named {text : Text} (formed : WellFormed text) :
        WellFormed (quote key ++ [unit ':'] ++ (if gap.isEmpty then [] else [unit ' ']) ++ text) :=
      (((wellFormed_quote key).append (.unit rfl rfl .nil)).append blank).append formed
    cases value with
    | undefined => exact others
    | _ => exact List.forall_mem_cons.mpr ⟨named own, others⟩

end

end

/-- `JSON.parse(readFileSync(path, "utf-8"))`, where the file holds these bytes. -/
def parseFile (bytes : List Nat) : Option Value := parseJson (decodeUtf8 bytes)

/-- What has been written with `writeFileSync(path, JSON.stringify(value, null, space), "utf-8")` is read as the
value, whatever surrogates are in its texts. -/
theorem parseFile_stringify {conversions : Conversions} {space : Nat} {value : Value} {text : Text}
    (legible : ∀ number ∈ value.numbers, Legible conversions number)
    (written : value.stringify conversions space = some text) : parseFile (utf8 text) = some value.plain := by
  have shape : text = value.render conversions (List.replicate (min 10 space) (unit ' ')) [] := by
    cases value <;> cases written <;> rfl
  have gap : WellFormed (List.replicate (min 10 space) (unit ' ')) := by
    refine wellFormed_low fun c member => ?_
    rw [List.eq_of_mem_replicate member]
    decide
  have formed : WellFormed text := by
    rw [shape]
    exact wellFormed_render gap [] .nil value legible
  rw [parseFile, formed.decode]
  exact parseJson_stringify legible written

/-- A value that JSON keeps as it is. -/
structure Value.Stored (conversions : Conversions) (value : Value) : Prop where
  kept : value.plain = value
  legible : ∀ number ∈ value.numbers, Legible conversions number

namespace Value.Stored
variable {conversions : Conversions}

theorem string (text : Text) : Stored conversions (.string text) := ⟨rfl, List.forall_mem_nil _⟩

theorem boolean (value : Bool) : Stored conversions (.boolean value) := ⟨rfl, List.forall_mem_nil _⟩

theorem null : Stored conversions .null := ⟨rfl, List.forall_mem_nil _⟩

theorem number {value : ℚ} (legible : Legible conversions value) : Stored conversions (.number (.finite value)) :=
  ⟨rfl, List.forall_mem_singleton.mpr legible⟩

theorem array {items : List Value} (stored : ∀ item ∈ items, Stored conversions item) :
    Stored conversions (.array items) := by
  have both : plainItems items = items ∧ ∀ number ∈ numbersOfItems items, Legible conversions number := by
    induction items with
    | nil => exact ⟨rfl, List.forall_mem_nil _⟩
    | cons item rest ih =>
      obtain ⟨own, others⟩ := List.forall_mem_cons.mp stored
      obtain ⟨kept, legible⟩ := ih others
      exact ⟨by rw [plainItems, own.kept, kept], fun number member =>
        (List.mem_append.mp member).elim (own.legible number) (legible number)⟩
  exact ⟨congrArg Value.array both.1, both.2⟩

theorem object {members : List (Text × Value)} (stored : ∀ member ∈ members, Stored conversions member.2) :
    Stored conversions (.object members) := by
  have both : plainMembers members = members ∧ ∀ number ∈ numbersOfMembers members, Legible conversions number := by
    induction members with
    | nil => exact ⟨rfl, List.forall_mem_nil _⟩
    | cons first rest ih =>
      obtain ⟨key, value⟩ := first
      obtain ⟨own, others⟩ := List.forall_mem_cons.mp stored
      obtain ⟨kept, legible⟩ := ih others
      refine ⟨?_, fun number member => (List.mem_append.mp member).elim (own.legible number) (legible number)⟩
      have same := own.kept
      cases value with
      | undefined => cases same
      | _ => exact congrArg₂ List.cons (congrArg (Prod.mk key) same) kept
  exact ⟨congrArg Value.object both.1, both.2⟩

/-- What has been written to a file is what is read from it. -/
theorem parseFile {space : Nat} {value : Value} (stored : Stored conversions value) :
    parseFile (utf8 ((value.stringify conversions space).getD [])) = some value := by
  cases written : value.stringify conversions space with
  | none =>
    have same := stored.kept
    cases value with
    | undefined => cases same
    | _ => cases written
  | some text => exact (parseFile_stringify stored.legible written).trans (congrArg some stored.kept)

end Value.Stored

end Js
