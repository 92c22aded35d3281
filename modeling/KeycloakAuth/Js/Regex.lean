import Mathlib.Data.List.Infix
import Mathlib.Data.List.TakeWhile
import KeycloakAuth.Js.Text

namespace Js

inductive Regex
  /-- `^` -/
  | start
  /-- A class, for one code unit. -/
  | one (set : CodeUnit → Bool)
  /-- A class with `*` behind it. -/
  | many (set : CodeUnit → Bool)
  /-- `(?=ahead)` -/
  | ahead (regex : Regex)
  | seq (first second : Regex)

/-- What a repeated class may leave of a text. -/
def repeats (set : CodeUnit → Bool) : Text → List Text
  | [] => [[]]
  | u :: rest => if set u then (u :: rest) :: repeats set rest else [u :: rest]

namespace Regex

/-- What the matches may leave that begin here; `begins` tells whether here is the beginning of the input. -/
def rests : Regex → Bool → Text → List Text
  | .start, begins, text => if begins then [text] else []
  | .one _, _, [] => []
  | .one set, _, u :: rest => if set u then [rest] else []
  | .many set, _, text => repeats set text
  | .ahead regex, begins, text => if (rests regex begins text).isEmpty then [] else [text]
  | .seq first second, begins, text =>
    (rests first begins text).flatMap fun rest => rests second (begins && rest.length = text.length) rest

def matchesHere (regex : Regex) (begins : Bool) (text : Text) : Bool := !(regex.rests begins text).isEmpty

/-- `regex.test(text)`: a match may begin anywhere. -/
def test (regex : Regex) (text : Text) : Bool :=
  text.tails.any fun here => regex.matchesHere (here.length = text.length) here

end Regex

/-- The class of `.` leaves out the line terminators. -/
def isLineTerminator (u : CodeUnit) : Bool := u = 0x0A || u = 0x0D || u = 0x2028 || u = 0x2029

def dot (u : CodeUnit) : Bool := !isLineTerminator u

theorem mem_repeats {set : CodeUnit → Bool} {text rest : Text} :
    rest ∈ repeats set text ↔ ∃ taken, text = taken ++ rest ∧ ∀ u ∈ taken, set u = true := by
  induction text with
  | nil =>
    simp only [repeats, List.mem_singleton]
    constructor
    · rintro rfl
      exact ⟨[], rfl, by simp⟩
    · rintro ⟨taken, split, -⟩
      exact (List.append_eq_nil_iff.mp split.symm).2
  | cons u tail ih =>
    have whole : rest = u :: tail → ∃ taken, u :: tail = taken ++ rest ∧ ∀ v ∈ taken, set v = true := by
      rintro rfl
      exact ⟨[], rfl, by simp⟩
    unfold repeats
    constructor
    · intro left
      split at left
      · rename_i fits
        rcases List.mem_cons.mp left with same | later
        · exact whole same
        · obtain ⟨taken, rfl, all⟩ := ih.mp later
          exact ⟨u :: taken, rfl, by simpa using ⟨fits, all⟩⟩
      · exact whole (List.mem_singleton.mp left)
    · rintro ⟨taken, split, all⟩
      cases taken with
      | nil =>
        have same : rest = u :: tail := split.symm
        split <;> simp [same]
      | cons v taken =>
        obtain ⟨rfl, rfl⟩ := List.cons.inj split
        rw [if_pos (all u List.mem_cons_self)]
        exact List.mem_cons_of_mem _ (ih.mpr ⟨taken, rfl, fun w member => all w (List.mem_cons_of_mem _ member)⟩)

namespace Regex
variable {regex next : Regex} {begins : Bool} {text : Text} {set : CodeUnit → Bool}

theorem matchesHere_iff : regex.matchesHere begins text = true ↔ ∃ rest, rest ∈ regex.rests begins text := by
  rw [matchesHere, Bool.not_eq_true', List.isEmpty_eq_false_iff_exists_mem]

@[simp] theorem matchesHere_ahead :
    (Regex.ahead regex).matchesHere begins text = regex.matchesHere begins text := by
  simp only [matchesHere, rests]
  split <;> simp_all

@[simp] theorem matchesHere_ahead_seq : (Regex.seq (.ahead regex) next).matchesHere begins text =
    (regex.matchesHere begins text && next.matchesHere begins text) := by
  simp only [matchesHere, rests]
  split <;> simp_all

theorem matchesHere_start_seq : (Regex.seq .start next).matchesHere begins text =
    (begins && next.matchesHere true text) := by
  simp only [matchesHere, rests]
  split <;> simp_all

theorem matchesHere_one : (Regex.one set).matchesHere begins text = text.head?.any set := by
  cases text with
  | nil => rfl
  | cons u rest =>
    simp only [matchesHere, rests, List.head?_cons, Option.any_some]
    split <;> simp_all

/-- Any of the classes that have been repeated may have been the last one. -/
theorem matchesHere_many_seq : (Regex.seq (.many set) next).matchesHere begins text = true ↔
    ∃ taken rest, text = taken ++ rest ∧ (∀ u ∈ taken, set u = true) ∧
      next.matchesHere (begins && taken = []) rest = true := by
  rw [matchesHere_iff]
  simp only [rests, List.mem_flatMap]
  constructor
  · rintro ⟨left, rest, found, later⟩
    obtain ⟨taken, rfl, all⟩ := mem_repeats.mp found
    refine ⟨taken, rest, rfl, all, matchesHere_iff.mpr ⟨left, ?_⟩⟩
    simpa using later
  · rintro ⟨taken, rest, rfl, all, matched⟩
    obtain ⟨left, found⟩ := matchesHere_iff.mp matched
    refine ⟨left, rest, mem_repeats.mpr ⟨taken, rfl, all⟩, ?_⟩
    simpa using found

/-- A look for a class behind `.*` ends with the line, or with its terminator. -/
theorem matchesHere_dots_one : (Regex.seq (.many dot) (.one set)).matchesHere begins text =
    ((text.takeWhile dot).any set || (text.dropWhile dot).head?.any set) := by
  rw [Bool.eq_iff_iff, matchesHere_many_seq]
  simp only [matchesHere_one, Bool.or_eq_true, List.any_eq_true]
  constructor
  · rintro ⟨taken, rest, rfl, all, hit⟩
    cases rest with
    | nil => simp at hit
    | cons u rest =>
      rw [List.takeWhile_append_of_pos all, List.dropWhile_append_of_pos all]
      cases inLine : dot u with
      | true => exact .inl ⟨u, by simp [inLine], by simpa using hit⟩
      | false => exact .inr (by simpa [inLine] using hit)
  · rintro (⟨u, member, fits⟩ | ends)
    · obtain ⟨before, behind, split⟩ := List.append_of_mem member
      have line : ∀ v ∈ text.takeWhile dot, dot v = true := fun v inLine => List.mem_takeWhile_imp inLine
      refine ⟨before, u :: (behind ++ text.dropWhile dot), ?_, fun v early => line v (by simp [split, early]), by
        simpa using fits⟩
      calc text = text.takeWhile dot ++ text.dropWhile dot := List.takeWhile_append_dropWhile.symm
        _ = before ++ u :: (behind ++ text.dropWhile dot) := by simp [split]
    · exact ⟨text.takeWhile dot, text.dropWhile dot, List.takeWhile_append_dropWhile.symm,
        fun v inLine => List.mem_takeWhile_imp inLine, ends⟩

theorem test_one : (Regex.one set).test text = text.any set := by
  rw [Bool.eq_iff_iff]
  simp only [test, List.any_eq_true, List.mem_tails, matchesHere_one]
  constructor
  · rintro ⟨here, ⟨before, rfl⟩, hit⟩
    cases here with
    | nil => simp at hit
    | cons u rest => exact ⟨u, by simp, by simpa using hit⟩
  · rintro ⟨u, member, fits⟩
    obtain ⟨before, behind, rfl⟩ := List.append_of_mem member
    exact ⟨u :: behind, ⟨before, rfl⟩, by simpa using fits⟩

/-- An anchored expression matches at the beginning or not at all. -/
theorem test_start_seq : (Regex.seq .start next).test text = next.matchesHere true text := by
  rw [Bool.eq_iff_iff]
  simp only [test, List.any_eq_true, List.mem_tails, matchesHere_start_seq, Bool.and_eq_true, decide_eq_true_eq]
  constructor
  · rintro ⟨here, suffix, whole, matched⟩
    rwa [suffix.eq_of_length whole] at matched
  · intro matched
    exact ⟨text, List.suffix_rfl, rfl, matched⟩

end Regex

end Js
