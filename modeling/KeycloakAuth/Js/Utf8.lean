import KeycloakAuth.Js.Text

namespace Js

/-- The code units of a scalar value. -/
def pointUnits (c : Nat) : Text :=
  if c < 0x10000 then [Fin.ofNat 0x10000 c]
  else [Fin.ofNat 0x10000 (0xD800 + (c - 0x10000) / 0x400), Fin.ofNat 0x10000 (0xDC00 + c % 0x400)]

/-- A character of which octets are missing: how many, what those before give, and the bounds of the next one. -/
structure Partial where
  needed : Nat
  point : Nat
  lower : Nat
  upper : Nat

namespace Utf8Decoder

def first (b : Nat) : List Nat × Option Partial :=
  if b < 0x80 then ([b], none)
  else if 0xC2 ≤ b ∧ b < 0xE0 then ([], some ⟨1, b - 0xC0, 0x80, 0xBF⟩)
  else if 0xE0 ≤ b ∧ b < 0xF0 then
    -- no overlong forms, and no surrogates
    ([], some ⟨2, b - 0xE0, if b = 0xE0 then 0xA0 else 0x80, if b = 0xED then 0x9F else 0xBF⟩)
  else if 0xF0 ≤ b ∧ b < 0xF5 then
    ([], some ⟨3, b - 0xF0, if b = 0xF0 then 0x90 else 0x80, if b = 0xF4 then 0x8F else 0xBF⟩)
  else ([0xFFFD], none)

/-- The scalar values that an octet completes, and what is open after it. -/
def step : Option Partial → Nat → List Nat × Option Partial
  | none, b => first b
  | some read, b =>
    if read.lower ≤ b ∧ b ≤ read.upper then
      let point := read.point * 0x40 + (b - 0x80)
      if read.needed = 1 then ([point], none) else ([], some ⟨read.needed - 1, point, 0x80, 0xBF⟩)
    else (0xFFFD :: (first b).1, (first b).2)

def run : Option Partial → List Nat → List Nat
  | none, [] => []
  | some _, [] => [0xFFFD]
  | read, b :: rest => (step read b).1 ++ run (step read b).2 rest

end Utf8Decoder

/-- `buffer.toString("utf-8")`. -/
def decodeUtf8 (bytes : List Nat) : Text := (Utf8Decoder.run none bytes).flatMap pointUnits

/-- Every surrogate belongs to a pair. -/
inductive WellFormed : Text → Prop
  | nil : WellFormed []
  | unit {u : CodeUnit} {rest : Text} (high : u.isHighSurrogate = false) (low : u.isLowSurrogate = false)
      (others : WellFormed rest) : WellFormed (u :: rest)
  | pair {u v : CodeUnit} {rest : Text} (high : u.isHighSurrogate = true) (low : v.isLowSurrogate = true)
      (others : WellFormed rest) : WellFormed (u :: v :: rest)

/-- A code point that is no surrogate. -/
def IsScalar (c : Nat) : Prop := c < 0xD800 ∨ 0xE000 ≤ c ∧ c < 0x110000

theorem scalar_isScalar (u : CodeUnit) : IsScalar (scalar u) := by
  have := u.isLt
  simp only [IsScalar, scalar, CodeUnit.isHighSurrogate, CodeUnit.isLowSurrogate, Bool.or_eq_true, Bool.and_eq_true,
    decide_eq_true_eq]
  split <;> omega

theorem scalars_isScalar (text : Text) : ∀ c ∈ scalars text, IsScalar c := by
  fun_induction scalars text with
  | case1 => simp
  | case2 u => simpa using scalar_isScalar u
  | case3 u v rest pair ih =>
    refine List.forall_mem_cons.mpr ⟨.inr ⟨?_, pairPoint_lt pair⟩, ih⟩
    unfold pairPoint
    omega
  | case4 u v rest alone ih => exact List.forall_mem_cons.mpr ⟨scalar_isScalar u, ih⟩

theorem run_more (left point : Nat) {lower upper b : Nat} (least : lower ≤ b)
    (greatest : b ≤ upper) (rest : List Nat) :
    Utf8Decoder.run (some ⟨left + 2, point, lower, upper⟩) (b :: rest) =
      Utf8Decoder.run (some ⟨left + 1, point * 0x40 + (b - 0x80), 0x80, 0xBF⟩) rest := by
  have more : left + 2 ≠ 1 := by omega
  simp only [Utf8Decoder.run, Utf8Decoder.step, if_pos (And.intro least greatest), if_neg more, List.nil_append]
  rfl

theorem run_last (point : Nat) {lower upper b : Nat} (least : lower ≤ b) (greatest : b ≤ upper) (rest : List Nat) :
    Utf8Decoder.run (some ⟨1, point, lower, upper⟩) (b :: rest) =
      (point * 0x40 + (b - 0x80)) :: Utf8Decoder.run none rest := by
  simp only [Utf8Decoder.run, Utf8Decoder.step, if_pos (And.intro least greatest), if_true, List.cons_append,
    List.nil_append]

theorem run_lead {b : Nat} {read : Partial} (lead : Utf8Decoder.first b = ([], some read)) (rest : List Nat) :
    Utf8Decoder.run none (b :: rest) = Utf8Decoder.run (some read) rest := by
  simp only [Utf8Decoder.run, Utf8Decoder.step, lead, List.nil_append]

/-- The decoder reads a character to its end, whatever follows. -/
theorem run_octets {c : Nat} (proper : IsScalar c) (rest : List Nat) :
    Utf8Decoder.run none (octets c ++ rest) = c :: Utf8Decoder.run none rest := by
  have small : c < 0x110000 := by unfold IsScalar at proper; omega
  unfold octets
  split_ifs with one two three
  · simp [Utf8Decoder.run, Utf8Decoder.step, Utf8Decoder.first, one]
  · have lead : Utf8Decoder.first (0xC0 + c / 0x40) = ([], some ⟨1, c / 0x40, 0x80, 0xBF⟩) := by
      rw [Utf8Decoder.first, if_neg (by omega), if_pos (by omega), Nat.add_sub_cancel_left]
    rw [List.cons_append, run_lead lead, List.cons_append, run_last _ (by omega) (by omega), List.nil_append]
    simp only [List.cons.injEq, and_true]
    omega
  · have lead : Utf8Decoder.first (0xE0 + c / 0x1000) = ([], some ⟨2, c / 0x1000,
        if 0xE0 + c / 0x1000 = 0xE0 then 0xA0 else 0x80, if 0xE0 + c / 0x1000 = 0xED then 0x9F else 0xBF⟩) := by
      rw [Utf8Decoder.first, if_neg (by omega), if_neg (by omega), if_pos (by omega), Nat.add_sub_cancel_left]
    have least : (if 0xE0 + c / 0x1000 = 0xE0 then 0xA0 else 0x80) ≤ 0x80 + c / 0x40 % 0x40 := by split_ifs <;>
      omega
    have greatest : 0x80 + c / 0x40 % 0x40 ≤ if 0xE0 + c / 0x1000 = 0xED then 0x9F else 0xBF := by
      unfold IsScalar at proper
      split_ifs <;> omega
    rw [List.cons_append, run_lead lead, List.cons_append, run_more 0 _ least greatest, List.cons_append,
      run_last _ (by omega) (by omega), List.nil_append]
    simp only [List.cons.injEq, and_true]
    omega
  · have lead : Utf8Decoder.first (0xF0 + c / 0x40000) = ([], some ⟨3, c / 0x40000,
        if 0xF0 + c / 0x40000 = 0xF0 then 0x90 else 0x80, if 0xF0 + c / 0x40000 = 0xF4 then 0x8F else 0xBF⟩) := by
      rw [Utf8Decoder.first, if_neg (by omega), if_neg (by omega), if_neg (by omega), if_pos (by omega),
        Nat.add_sub_cancel_left]
    have least : (if 0xF0 + c / 0x40000 = 0xF0 then 0x90 else 0x80) ≤ 0x80 + c / 0x1000 % 0x40 := by
      split_ifs <;> omega
    have greatest : 0x80 + c / 0x1000 % 0x40 ≤ if 0xF0 + c / 0x40000 = 0xF4 then 0x8F else 0xBF := by
      split_ifs <;> omega
    rw [List.cons_append, run_lead lead, List.cons_append, run_more 1 _ least greatest, List.cons_append,
      run_more 0 _ (by omega) (by omega), List.cons_append, run_last _ (by omega) (by omega), List.nil_append]
    simp only [List.cons.injEq, and_true]
    omega

theorem run_flatMap_octets {points : List Nat} (proper : ∀ c ∈ points, IsScalar c) :
    Utf8Decoder.run none (points.flatMap octets) = points := by
  induction points with
  | nil => rfl
  | cons c rest ih =>
    obtain ⟨properC, properRest⟩ := List.forall_mem_cons.mp proper
    rw [List.flatMap_cons, run_octets properC, ih properRest]

theorem pointUnits_val (u : CodeUnit) : pointUnits u.val = [u] := by
  rw [pointUnits, if_pos u.isLt]
  exact congrArg (fun unit => [unit]) (Fin.ofNat_val_eq_self u)

theorem pointUnits_pairPoint {high low : CodeUnit} (pair : (high.isHighSurrogate && low.isLowSurrogate) = true) :
    pointUnits (pairPoint high low) = [high, low] := by
  simp only [CodeUnit.isHighSurrogate, CodeUnit.isLowSurrogate, Bool.and_eq_true, decide_eq_true_eq] at pair
  rw [pointUnits, if_neg (by unfold pairPoint; omega)]
  simp only [List.cons.injEq, and_true]
  refine ⟨Fin.ext ?_, Fin.ext ?_⟩
  · refine (Nat.mod_eq_of_lt ?_).trans ?_ <;> unfold pairPoint <;> omega
  · refine (Nat.mod_eq_of_lt ?_).trans ?_ <;> unfold pairPoint <;> omega

theorem scalars_unit {u : CodeUnit} (high : u.isHighSurrogate = false)
    (low : u.isLowSurrogate = false) (rest : Text) :
    scalars (u :: rest) = u.val :: scalars rest := by
  have own : scalar u = u.val := by rw [scalar, high, low]; rfl
  cases rest with
  | nil => exact congrArg (fun point => [point]) own
  | cons v rest => rw [scalars, high, Bool.false_and, if_neg Bool.false_ne_true, own]

theorem WellFormed.scalars_units {text : Text} (formed : WellFormed text) :
    (scalars text).flatMap pointUnits = text := by
  induction formed with
  | nil => rfl
  | @unit u rest high low others ih =>
    rw [scalars_unit high low, List.flatMap_cons, pointUnits_val, ih]
    rfl
  | @pair u v rest high low others ih =>
    have pair : (u.isHighSurrogate && v.isLowSurrogate) = true := by rw [high, low]; rfl
    rw [scalars, if_pos pair, List.flatMap_cons, pointUnits_pairPoint pair, ih]
    rfl

/-- A text without lone surrogates comes back from its bytes. -/
theorem WellFormed.decode {text : Text} (formed : WellFormed text) : decodeUtf8 (utf8 text) = text := by
  rw [decodeUtf8, utf8, run_flatMap_octets (scalars_isScalar text), formed.scalars_units]

theorem WellFormed.append {first second : Text} (formed : WellFormed first) (other : WellFormed second) :
    WellFormed (first ++ second) := by
  induction formed with
  | nil => exact other
  | unit high low _ ih => exact .unit high low ih
  | pair high low _ ih => exact .pair high low ih

theorem WellFormed.flatMap {α : Type} {xs : List α} {f : α → Text} (each : ∀ x ∈ xs, WellFormed (f x)) :
    WellFormed (xs.flatMap f) := by
  induction xs with
  | nil => exact .nil
  | cons x rest ih =>
    obtain ⟨first, others⟩ := List.forall_mem_cons.mp each
    exact first.append (ih others)

theorem pointUnits_basic {c : Nat} (proper : IsScalar c) (basic : c < 0x10000) :
    (Fin.ofNat 0x10000 c).val = c ∧ CodeUnit.isHighSurrogate (Fin.ofNat 0x10000 c) = false ∧
      CodeUnit.isLowSurrogate (Fin.ofNat 0x10000 c) = false := by
  have value : (Fin.ofNat 0x10000 c).val = c := Nat.mod_eq_of_lt basic
  refine ⟨value, ?_, ?_⟩ <;>
    · simp only [CodeUnit.isHighSurrogate, CodeUnit.isLowSurrogate, value,
        Bool.and_eq_false_iff, decide_eq_false_iff_not]
      unfold IsScalar at proper
      omega

theorem pointUnits_pair {c : Nat} (small : c < 0x110000) (above : ¬ c < 0x10000) :
    ((Fin.ofNat 0x10000 (0xD800 + (c - 0x10000) / 0x400)).val = 0xD800 + (c - 0x10000) / 0x400 ∧
      (Fin.ofNat 0x10000 (0xDC00 + c % 0x400)).val = 0xDC00 + c % 0x400) ∧
    CodeUnit.isHighSurrogate (Fin.ofNat 0x10000 (0xD800 + (c - 0x10000) / 0x400)) = true ∧
      CodeUnit.isLowSurrogate (Fin.ofNat 0x10000 (0xDC00 + c % 0x400)) = true := by
  have high : (Fin.ofNat 0x10000 (0xD800 + (c - 0x10000) / 0x400)).val = 0xD800 + (c - 0x10000) / 0x400 :=
    Nat.mod_eq_of_lt (by omega)
  have low : (Fin.ofNat 0x10000 (0xDC00 + c % 0x400)).val = 0xDC00 + c % 0x400 := Nat.mod_eq_of_lt (by omega)
  refine ⟨⟨high, low⟩, ?_, ?_⟩ <;>
    · simp only [CodeUnit.isHighSurrogate, CodeUnit.isLowSurrogate, high, low, Bool.and_eq_true, decide_eq_true_eq]
      omega

theorem wellFormed_pointUnits {c : Nat} (proper : IsScalar c) : WellFormed (pointUnits c) := by
  have small : c < 0x110000 := by unfold IsScalar at proper; omega
  unfold pointUnits
  split_ifs with basic
  · obtain ⟨-, high, low⟩ := pointUnits_basic proper basic
    exact .unit high low .nil
  · obtain ⟨-, high, low⟩ := pointUnits_pair small basic
    exact .pair high low .nil

theorem pairPoint_eq {high low : CodeUnit} {c : Nat} (highVal : high.val = 0xD800 + (c - 0x10000) / 0x400)
    (lowVal : low.val = 0xDC00 + c % 0x400) (above : ¬ c < 0x10000) : pairPoint high low = c := by
  unfold pairPoint
  omega

theorem scalars_pointUnits {c : Nat} (proper : IsScalar c) (rest : Text) :
    scalars (pointUnits c ++ rest) = c :: scalars rest := by
  have small : c < 0x110000 := by unfold IsScalar at proper; omega
  unfold pointUnits
  split_ifs with basic
  · obtain ⟨value, high, low⟩ := pointUnits_basic proper basic
    rw [List.cons_append, scalars_unit high low, value]
    rfl
  · obtain ⟨⟨highVal, lowVal⟩, high, low⟩ := pointUnits_pair small basic
    rw [List.cons_append, List.cons_append, scalars, high, low, Bool.and_self, if_pos rfl,
      pairPoint_eq highVal lowVal basic]
    rfl

theorem charUnits_eq (c : Char) : charUnits c = pointUnits c.toNat := rfl

theorem Char.isScalar (c : Char) : IsScalar c.toNat := by
  rcases c.valid with low | high
  · exact .inl low
  · refine .inr ⟨?_, high.2⟩
    have := high.1
    change 0xDFFF < c.toNat at this
    omega

theorem wellFormed_ofString (text : String) : WellFormed (ofString text) :=
  WellFormed.flatMap fun c _ => wellFormed_pointUnits (Char.isScalar c)

theorem scalars_ofString (text : String) : scalars (ofString text) = text.toList.map Char.toNat := by
  unfold ofString
  induction text.toList with
  | nil => rfl
  | cons c rest ih =>
    rw [List.flatMap_cons, charUnits_eq, scalars_pointUnits (Char.isScalar c), ih, List.map_cons]

/-- The text as a string of characters, unless a surrogate is alone in it. -/
def string? (text : Text) : Option String :=
  let read := String.ofList ((scalars text).map Char.ofNat)
  if ofString read = text then some read else none

theorem string?_ofString (text : String) : string? (ofString text) = some text := by
  have back : (text.toList.map Char.toNat).map Char.ofNat = text.toList := by
    rw [List.map_map]
    exact (List.map_congr_left fun c _ => Char.ofNat_toNat c).trans (List.map_id _)
  rw [string?, scalars_ofString, back, String.ofList_toList]
  exact if_pos rfl

theorem Char.toNat_ofNat_of_isScalar {c : Nat} (proper : IsScalar c) : (Char.ofNat c).toNat = c := by
  have valid : c.isValidChar := by
    unfold IsScalar at proper
    rcases proper with low | ⟨above, small⟩
    · exact .inl low
    · exact .inr ⟨by omega, small⟩
  rw [Char.ofNat, dif_pos valid]
  rfl

theorem WellFormed.string? {text : Text} (formed : WellFormed text) : ∃ read, Js.string? text = some read := by
  have back : ofString (String.ofList ((scalars text).map Char.ofNat)) = text := by
    rw [ofString, String.toList_ofList, List.flatMap_map]
    refine Eq.trans ?_ formed.scalars_units
    refine List.flatMap_congr fun c member => ?_
    rw [charUnits_eq, Char.toNat_ofNat_of_isScalar (scalars_isScalar text c member)]
  exact ⟨_, if_pos back⟩

theorem ofString_injective : Function.Injective ofString := by
  intro first second same
  have read := string?_ofString first
  rw [same, string?_ofString] at read
  exact (Option.some.inj read).symm

end Js
