import Mathlib.Data.List.Basic
import Mathlib.Tactic.SplitIfs

namespace Js

abbrev CodeUnit := Fin 0x10000

abbrev Text := List CodeUnit

instance (priority := 2000) codeUnits_ne_zero : @NeZero Nat Zero.ofOfNat0 0x10000 := ⟨Nat.succ_ne_zero 0xFFFF⟩

namespace CodeUnit

def isHighSurrogate (u : CodeUnit) : Bool := 0xD800 ≤ u.val && u.val < 0xDC00

def isLowSurrogate (u : CodeUnit) : Bool := 0xDC00 ≤ u.val && u.val < 0xE000

end CodeUnit

/-- The code point of a surrogate pair. -/
def pairPoint (high low : CodeUnit) : Nat := 0x10000 + (high.val - 0xD800) * 0x400 + (low.val - 0xDC00)

/-- A surrogate that has no partner cannot be encoded; U+FFFD stands for it. -/
def scalar (u : CodeUnit) : Nat := if u.isHighSurrogate || u.isLowSurrogate then 0xFFFD else u.val

/-- The Unicode scalar values of a text. -/
def scalars : Text → List Nat
  | [] => []
  | [u] => [scalar u]
  | u :: v :: rest =>
    if u.isHighSurrogate && v.isLowSurrogate then pairPoint u v :: scalars rest
    else scalar u :: scalars (v :: rest)

/-- The code units of a character: one, or a surrogate pair. -/
def charUnits (c : Char) : Text :=
  if c.toNat < 0x10000 then [Fin.ofNat 0x10000 c.toNat]
  else [Fin.ofNat 0x10000 (0xD800 + (c.toNat - 0x10000) / 0x400), Fin.ofNat 0x10000 (0xDC00 + c.toNat % 0x400)]

def ofString (text : String) : Text := text.toList.flatMap charUnits

/-- The octets of one scalar value. -/
def octets (c : Nat) : List Nat :=
  if c < 0x80 then [c]
  else if c < 0x800 then [0xC0 + c / 0x40, 0x80 + c % 0x40]
  else if c < 0x10000 then [0xE0 + c / 0x1000, 0x80 + c / 0x40 % 0x40, 0x80 + c % 0x40]
  else [0xF0 + c / 0x40000, 0x80 + c / 0x1000 % 0x40, 0x80 + c / 0x40 % 0x40, 0x80 + c % 0x40]

/-- `Buffer.from(text)`. -/
def utf8 (text : Text) : List Nat := (scalars text).flatMap octets

theorem scalar_lt (u : CodeUnit) : scalar u < 0x110000 := by
  have := u.isLt
  unfold scalar
  split <;> omega

theorem pairPoint_lt {high low : CodeUnit} (pair : (high.isHighSurrogate && low.isLowSurrogate) = true) :
    pairPoint high low < 0x110000 := by
  simp only [CodeUnit.isHighSurrogate, CodeUnit.isLowSurrogate, Bool.and_eq_true, decide_eq_true_eq] at pair
  unfold pairPoint
  omega

theorem scalars_lt (text : Text) : ∀ c ∈ scalars text, c < 0x110000 := by
  fun_induction scalars text with
  | case1 => simp
  | case2 u => simpa using scalar_lt u
  | case3 u v rest pair ih => simpa using ⟨pairPoint_lt pair, ih⟩
  | case4 u v rest alone ih => simpa using ⟨scalar_lt u, ih⟩

theorem octets_ne_nil (c : Nat) : octets c ≠ [] := by
  unfold octets
  split_ifs <;> exact List.cons_ne_nil _ _

/-- The first octet tells how many there are, so no encoding is the beginning of another. -/
theorem octets_append_inj {c d : Nat} (small : c < 0x110000) (small' : d < 0x110000) {rest rest' : List Nat}
    (same : octets c ++ rest = octets d ++ rest') : c = d ∧ rest = rest' := by
  unfold octets at same
  split_ifs at same <;>
    simp only [List.cons_append, List.nil_append, List.cons.injEq] at same <;>
    first
    | omega
    | exact ⟨by omega, by simp_all⟩

theorem flatMap_octets_inj {first second : List Nat} (small : ∀ c ∈ first, c < 0x110000)
    (small' : ∀ c ∈ second, c < 0x110000) (same : first.flatMap octets = second.flatMap octets) :
      first = second := by
  induction first generalizing second with
  | nil =>
    cases second with
    | nil => rfl
    | cons d rest =>
      rw [List.flatMap_nil, List.flatMap_cons] at same
      exact (octets_ne_nil d (List.append_eq_nil_iff.mp same.symm).1).elim
  | cons c rest ih =>
    cases second with
    | nil =>
      rw [List.flatMap_nil, List.flatMap_cons] at same
      exact (octets_ne_nil c (List.append_eq_nil_iff.mp same).1).elim
    | cons d rest' =>
      obtain ⟨smallC, smallRest⟩ := List.forall_mem_cons.mp small
      obtain ⟨smallD, smallRest'⟩ := List.forall_mem_cons.mp small'
      rw [List.flatMap_cons, List.flatMap_cons] at same
      obtain ⟨rfl, rests⟩ := octets_append_inj smallC smallD same
      rw [ih smallRest smallRest' rests]

/-- Two texts have one encoding when they differ at most in surrogates without a partner. -/
theorem utf8_eq_iff {first second : Text} : utf8 first = utf8 second ↔ scalars first = scalars second :=
  ⟨flatMap_octets_inj (scalars_lt first) (scalars_lt second), congrArg (List.flatMap octets)⟩

end Js
