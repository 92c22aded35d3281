import Mathlib.Data.Int.Log
import Mathlib.Data.Rat.Floor
import Mathlib.Data.Nat.Digits.Lemmas
import Mathlib.Tactic.Linarith
import Mathlib.Tactic.NormNum.Pow
import KeycloakAuth.Js.Text

namespace Js

/-- The nearest integer. Halfway between two of them it is the even one. -/
def nearest (x : ℚ) : ℤ :=
  if x - ⌊x⌋ < 1 / 2 ∨ (x - ⌊x⌋ = 1 / 2 ∧ Even ⌊x⌋) then ⌊x⌋ else ⌊x⌋ + 1

/-- The place of the last binary digit that a double of this size has. -/
def lastPlace (x : ℚ) : ℤ := max (Int.log 2 |x| - 52) (-1074)

def rounded (x : ℚ) : ℚ := nearest (x / 2 ^ lastPlace x) * 2 ^ lastPlace x

/-- The two zeros are one value here. -/
inductive Number
  | nan
  | infinity (negative : Bool)
  | finite (value : ℚ)
deriving DecidableEq, Repr

namespace Number

/-- The double that stands for an exact result. -/
def ofExact (x : ℚ) : Number := if 2 ^ 1024 ≤ |rounded x| then .infinity (x < 0) else .finite (rounded x)

def isFinite : Number → Bool
  | .finite _ => true
  | _ => false

def neg : Number → Number
  | .nan => .nan
  | .infinity negative => .infinity !negative
  | .finite x => .finite (-x)

def add : Number → Number → Number
  | .finite x, .finite y => ofExact (x + y)
  | .infinity negative, .finite _ => .infinity negative
  | .finite _, .infinity negative => .infinity negative
  | .infinity negative, .infinity negative' => if negative = negative' then .infinity negative else .nan
  | _, _ => .nan

def sub (x y : Number) : Number := x.add y.neg

/-- An infinity times zero is NaN. -/
def mul : Number → Number → Number
  | .finite x, .finite y => ofExact (x * y)
  | .infinity negative, .finite y => if y = 0 then .nan else .infinity (negative ^^ decide (y < 0))
  | .finite x, .infinity negative => if x = 0 then .nan else .infinity (decide (x < 0) ^^ negative)
  | .infinity negative, .infinity negative' => .infinity (negative ^^ negative')
  | _, _ => .nan

def less : Number → Number → Bool
  | .finite x, .finite y => x < y
  | .infinity negative, .finite _ => negative
  | .finite _, .infinity negative => !negative
  | .infinity negative, .infinity negative' => negative && !negative'
  | _, _ => false

/-- `x >= y`, which is not the contrary of `x < y` where one of them is NaN. -/
def atLeast : Number → Number → Bool
  | .finite x, .finite y => y ≤ x
  | .infinity negative, .finite _ => !negative
  | .finite _, .infinity negative => negative
  | .infinity negative, .infinity negative' => !negative || negative'
  | _, _ => false

end Number

def digitUnit (d : Nat) : CodeUnit := Fin.ofNat 0x10000 (0x30 + d)

/-- The decimal numeral of a natural number. -/
def numeral (n : Nat) : Text := if n = 0 then [digitUnit 0] else (Nat.digits 10 n).reverse.map digitUnit

@[simp] theorem nearest_intCast (z : ℤ) : nearest z = z := by
  simp [nearest]

theorem floor_le_nearest (x : ℚ) : ⌊x⌋ ≤ nearest x := by
  unfold nearest
  split_ifs <;> omega

theorem rounded_of_exact {x : ℚ} (z : ℤ) (exact : x = z * 2 ^ lastPlace x) : rounded x = x := by
  have scaled : x / 2 ^ lastPlace x = z := by
    rw [div_eq_iff (zpow_ne_zero _ two_ne_zero)]
    exact exact
  rw [rounded, scaled, nearest_intCast, ← exact]

theorem positive_of_log {x : ℚ} (log : 0 < Int.log 2 x) : 0 < x := by
  by_contra none
  rw [Int.log_of_right_le_zero 2 (not_lt.mp none)] at log
  exact lt_irrefl 0 log

/-- From 2⁵³ on the last place is beyond the point. -/
theorem lastPlace_of_log {x : ℚ} (large : 53 ≤ Int.log 2 |x|) :
    ∃ k : ℕ, Int.log 2 |x| = k + 53 ∧ lastPlace x = (k + 1 : ℕ) := by
  obtain ⟨k, places⟩ : ∃ k : ℕ, Int.log 2 |x| = k + 53 := ⟨(Int.log 2 |x| - 53).toNat, by omega⟩
  refine ⟨k, places, ?_⟩
  rw [lastPlace, places]
  omega

/-- The integers up to 2⁵³ are doubles. -/
theorem rounded_intCast {z : ℤ} (small : |z| ≤ 2 ^ 53) : rounded z = z := by
  have bound : |(z : ℚ)| ≤ 2 ^ 53 := by exact_mod_cast small
  rcases le_or_gt (lastPlace z) 0 with fraction | whole
  · obtain ⟨k, places⟩ := Int.exists_eq_neg_ofNat fraction
    refine rounded_of_exact (z * 2 ^ k) ?_
    rw [places, zpow_neg, zpow_natCast]
    push_cast
    rw [mul_assoc, mul_inv_cancel₀ (by positivity), mul_one]
  · -- the only one of them with more than 53 digits is a power of two
    have wide : (53 : ℤ) ≤ Int.log 2 |(z : ℚ)| := by
      unfold lastPlace at whole
      omega
    have positive : 0 < |(z : ℚ)| := positive_of_log (by omega)
    have size : |(z : ℚ)| = 2 ^ (53 : ℤ) :=
      le_antisymm (by simpa using bound) (by simpa using (Int.zpow_le_iff_le_log one_lt_two positive).mpr wide)
    have last : lastPlace z = 1 := by
      have log := Int.log_zpow (R := ℚ) (b := 2) one_lt_two 53
      rw [lastPlace, size]
      rw [Nat.cast_ofNat] at log
      rw [log]
      rfl
    rcases (abs_eq (by positivity)).mp size with plus | minus
    · refine rounded_of_exact (2 ^ 52) ?_
      rw [last, plus]
      norm_num
    · refine rounded_of_exact (-2 ^ 52) ?_
      rw [last, minus]
      norm_num

/-- From 2⁵³ on a double is an even integer, and rounding does not lead back below. -/
theorem rounded_large {x : ℚ} (large : 2 ^ 53 ≤ x) : ∃ k : ℤ, rounded x = (2 * k : ℤ) ∧ 2 ^ 52 ≤ k := by
  have positive : 0 < x := lt_of_lt_of_le (by positivity) large
  have log : (53 : ℤ) ≤ Int.log 2 x := (Int.zpow_le_iff_le_log one_lt_two positive).mp (by simpa using large)
  rw [← abs_of_pos positive] at log
  obtain ⟨k, places, last⟩ := lastPlace_of_log log
  rw [abs_of_pos positive] at places
  have lower : (2 : ℚ) ^ 52 ≤ x / 2 ^ lastPlace x := by
    have size := Int.zpow_log_le_self one_lt_two positive
    rw [places] at size
    rw [last, zpow_natCast, le_div_iff₀ (by positivity), ← pow_add]
    refine le_trans (le_of_eq ?_) size
    rw [show (k + 53 : ℤ) = ((52 + (k + 1) : ℕ) : ℤ) by omega, zpow_natCast, Nat.cast_ofNat]
  have digits : 2 ^ 52 ≤ nearest (x / 2 ^ lastPlace x) :=
    le_trans (Int.le_floor.mpr (by exact_mod_cast lower)) (floor_le_nearest _)
  refine ⟨nearest (x / 2 ^ lastPlace x) * 2 ^ k, ?_, ?_⟩
  · rw [rounded, last, zpow_natCast]
    push_cast
    ring
  · exact digits.trans (le_mul_of_one_le_right (by omega) (one_le_pow₀ (by norm_num)))

theorem le_rounded_of_large {x : ℚ} (large : 2 ^ 53 ≤ x) : 2 ^ 53 ≤ rounded x := by
  obtain ⟨k, even, wide⟩ := rounded_large large
  have : (2 : ℚ) ^ 52 ≤ k := by exact_mod_cast wide
  rw [even]
  push_cast
  linarith

theorem nearest_le_iff {x : ℚ} {n : ℤ} (even : Even n) : nearest x ≤ n ↔ x ≤ n + 1 / 2 := by
  have below := Int.floor_le x
  have above := Int.lt_floor_add_one x
  unfold nearest
  split_ifs with down
  · constructor
    · intro small
      have : (⌊x⌋ : ℚ) ≤ n := by exact_mod_cast small
      rcases down with near | ⟨half, -⟩ <;> linarith
    · intro small
      have : (⌊x⌋ : ℚ) < n + 1 := by linarith
      exact Int.lt_add_one_iff.mp (by exact_mod_cast this)
  · constructor
    · intro small
      have : (⌊x⌋ : ℚ) + 1 ≤ n := by exact_mod_cast small
      linarith
    · intro small
      by_contra large
      have above : (n : ℚ) ≤ ⌊x⌋ := by exact_mod_cast (by omega : n ≤ ⌊x⌋)
      -- then `x` is halfway between `n` and the odd number after it
      obtain ⟨far, tie⟩ := not_or.mp down
      have half : x - ⌊x⌋ = 1 / 2 := le_antisymm (by linarith) (not_lt.mp far)
      have floor : ⌊x⌋ = n := by
        have : (⌊x⌋ : ℚ) = n := by linarith
        exact_mod_cast this
      exact tie ⟨half, floor ▸ even⟩

theorem le_nearest_iff {x : ℚ} {n : ℤ} (even : Even n) : n ≤ nearest x ↔ n - 1 / 2 ≤ x := by
  have below := Int.floor_le x
  have above := Int.lt_floor_add_one x
  unfold nearest
  split_ifs with down
  · constructor
    · intro small
      have : (n : ℚ) ≤ ⌊x⌋ := by exact_mod_cast small
      linarith
    · intro small
      by_contra large
      have under : (⌊x⌋ : ℚ) + 1 ≤ n := by exact_mod_cast (by omega : ⌊x⌋ + 1 ≤ n)
      rcases down with near | ⟨half, floorEven⟩
      · linarith
      · have next : ⌊x⌋ + 1 = n := by
          have : (⌊x⌋ : ℚ) + 1 = n := by linarith
          exact_mod_cast this
        exact Int.not_even_iff_odd.mpr (floorEven.add_one) (next ▸ even)
  · obtain ⟨far, -⟩ := not_or.mp down
    constructor
    · intro small
      have : (n : ℚ) ≤ ⌊x⌋ + 1 := by exact_mod_cast small
      linarith
    · intro small
      have : (n : ℚ) < ⌊x⌋ + 1 + 1 := by linarith
      exact Int.lt_add_one_iff.mp (by exact_mod_cast this)

theorem abs_nearest_sub_le (x : ℚ) : |nearest x - x| ≤ 1 / 2 := by
  have below := Int.floor_le x
  have above := Int.lt_floor_add_one x
  rw [abs_le]
  unfold nearest
  split_ifs with down
  · rcases down with near | ⟨half, -⟩ <;> constructor <;> linarith
  · obtain ⟨far, -⟩ := not_or.mp down
    push_cast
    constructor <;> linarith

/-- A double is at most half of its last place away from what it is rounded from. -/
theorem abs_rounded_sub_le (x : ℚ) : |rounded x - x| ≤ 2 ^ lastPlace x / 2 := by
  have place : (0 : ℚ) < 2 ^ lastPlace x := zpow_pos two_pos _
  have error : rounded x - x = (nearest (x / 2 ^ lastPlace x) - x / 2 ^ lastPlace x) * 2 ^ lastPlace x := by
    rw [sub_mul, div_mul_cancel₀ x place.ne']
    rfl
  rw [error, abs_mul, abs_of_pos place]
  have := mul_le_mul_of_nonneg_right (abs_nearest_sub_le (x / 2 ^ lastPlace x)) place.le
  linarith

/-- Where the doubles are the integers, half a unit more than an even bound is still rounded to it. -/
theorem abs_rounded_le_iff {n : ℤ} (even : Even n) (lower : 2 ^ 52 < n) (upper : n < 2 ^ 53 - 1) {x : ℚ} :
    |rounded x| ≤ n ↔ |x| ≤ n + 1 / 2 := by
  have lower : (2 : ℚ) ^ 52 + 1 ≤ n := by exact_mod_cast lower
  have upper : (n : ℚ) + 2 ≤ 2 ^ 53 := by exact_mod_cast (by omega : n + 2 ≤ 2 ^ 53)
  have near := abs_rounded_sub_le x
  have triangle := abs_le.mp (abs_abs_sub_abs_le_abs_sub (rounded x) x)
  rcases lt_trichotomy (Int.log 2 |x|) 52 with less | same | more
  · have size : |x| < 2 ^ (52 : ℤ) :=
      (Int.lt_zpow_succ_log_self one_lt_two |x|).trans_le (zpow_le_zpow_right₀ one_le_two (by omega))
    have place : (2 : ℚ) ^ lastPlace x ≤ 2 ^ (-1 : ℤ) :=
      zpow_le_zpow_right₀ one_le_two (by unfold lastPlace; omega)
    norm_num at size place
    exact iff_of_true (by linarith) (by linarith)
  · have last : lastPlace x = 0 := by
      rw [lastPlace, same]
      rfl
    have whole : rounded x = nearest x := by
      rw [rounded, last, zpow_zero, div_one, mul_one]
    rw [whole, abs_le, abs_le, ← Int.cast_neg, Int.cast_le, Int.cast_le,
      nearest_le_iff even, le_nearest_iff even.neg,
      Int.cast_neg, neg_add']
  · have size := Int.zpow_log_le_self one_lt_two (positive_of_log (by omega : 0 < Int.log 2 |x|))
    obtain ⟨k, places, last⟩ := lastPlace_of_log (by omega : 53 ≤ Int.log 2 |x|)
    rw [last, zpow_natCast, pow_succ] at near
    rw [places, show (k + 53 : ℤ) = ((k + 53 : ℕ) : ℤ) by omega, zpow_natCast, Nat.cast_ofNat, pow_add] at size
    have one : (1 : ℚ) ≤ 2 ^ k := one_le_pow₀ one_le_two
    norm_num at upper near size
    exact iff_of_false (by linarith) (by linarith)

namespace Number

theorem ofExact_of_rounded {x y : ℚ} (value : rounded x = y) (small : |y| ≤ 2 ^ 53) : ofExact x = .finite y := by
  have tiny : ¬ 2 ^ 1024 ≤ |y| := not_le.mpr (small.trans_lt (pow_lt_pow_right₀ (by norm_num) (by norm_num)))
  rw [ofExact, value, if_neg tiny]

theorem ofExact_intCast {z : ℤ} (small : |z| ≤ 2 ^ 53) : ofExact z = .finite z :=
  ofExact_of_rounded (rounded_intCast small) (by exact_mod_cast small)

theorem ofExact_natCast {n : ℕ} (small : n ≤ 2 ^ 53) : ofExact n = .finite n := by
  exact_mod_cast ofExact_intCast (z := n) (by rw [Nat.abs_cast]; exact_mod_cast small)

theorem rounded_of_ofExact {x y : ℚ} (value : ofExact x = .finite y) : rounded x = y := by
  unfold ofExact at value
  split_ifs at value
  exact Number.finite.inj value

theorem even_of_large {n : ℕ} (double : ofExact n = .finite n) (large : 2 ^ 53 ≤ n) : Even n := by
  obtain ⟨k, value, _⟩ := rounded_large (x := n) (by exact_mod_cast large)
  have same : (n : ℤ) = 2 * k := by exact_mod_cast (rounded_of_ofExact double).symm.trans value
  exact Nat.even_iff.mpr (by omega)

/-- Two natural numbers in a row are both doubles only below 2⁵³. -/
theorem small_of_successive {n : ℕ} (double : ofExact n = .finite n)
    (next : ofExact (n + 1 : ℕ) = .finite (n + 1 : ℕ)) : n < 2 ^ 53 := by
  by_contra large
  rw [not_lt] at large
  have even := even_of_large double large
  exact Nat.not_even_iff_odd.mpr even.add_one (even_of_large next (large.trans (Nat.le_succ n)))

/-- What is past 2⁵³ stays there. -/
theorem ofExact_atLeast_large {x : ℚ} (large : 2 ^ 53 ≤ x) : (ofExact x).atLeast (.finite (2 ^ 53)) = true := by
  have positive : ¬ x < 0 := not_lt.mpr (le_trans (by positivity) large)
  unfold ofExact
  split_ifs with overflow
  · simp [atLeast, positive]
  · simpa [atLeast] using le_rounded_of_large large

theorem less_of_atLeast {x y : Number} (least : x.atLeast y = true) : x.less y = false := by
  cases x with
  | nan => rfl
  | infinity negative =>
    cases y with
    | nan => rfl
    | infinity negative' => cases negative <;> cases negative' <;> first | rfl | cases least
    | finite y => simpa [atLeast, less] using least
  | finite x =>
    cases y with
    | nan => rfl
    | infinity negative => simpa [atLeast, less] using least
    | finite y => simpa [atLeast, less] using least

theorem atLeast_of_le {x y : ℚ} {z : Number} (order : x ≤ y) (least : (Number.finite x).atLeast z = true) :
    (Number.finite y).atLeast z = true := by
  cases z with
  | nan => cases least
  | infinity negative => exact least
  | finite z =>
    rw [atLeast, decide_eq_true_eq] at least ⊢
    exact least.trans order

/-- Counting by one comes to its end at 2⁵³. -/
theorem ofExact_end : ofExact (2 ^ 53 + 1 : ℕ) = .finite (2 ^ 53 : ℕ) := by
  have log : Int.log 2 |((2 ^ 53 + 1 : ℕ) : ℚ)| = 53 := by
    have size : Nat.log 2 (2 ^ 53 + 1) = 53 := Nat.log_eq_of_pow_le_of_lt_pow (by decide) (by decide)
    rw [Nat.abs_cast, Int.log_natCast, size]
    rfl
  have last : lastPlace (2 ^ 53 + 1 : ℕ) = 1 := by
    rw [lastPlace, log]
    rfl
  have even : nearest ((2 ^ 53 + 1 : ℕ) / 2 : ℚ) = 2 ^ 52 := by
    refine le_antisymm ((nearest_le_iff (by decide)).mpr ?_) ((le_nearest_iff (by decide)).mpr ?_) <;> norm_num
  have value : rounded (2 ^ 53 + 1 : ℕ) = (2 ^ 53 : ℕ) := by
    rw [rounded, last, zpow_one, even]
    norm_num
  exact ofExact_of_rounded value (by norm_num)

/-- A natural number as the result of a computation that may have passed 2⁵³: exact up to there, and at least 2⁵³
from there on. -/
structure Saturates (n : ℕ) (x : Number) : Prop where
  exact : n ≤ 2 ^ 53 → x = .finite n
  large : 2 ^ 53 < n → x.atLeast (.finite (2 ^ 53)) = true

namespace Saturates
variable {n : ℕ} {x : Number}

theorem ofExact (n : ℕ) : Saturates n (.ofExact n) where
  exact := ofExact_natCast
  large passed := ofExact_atLeast_large (by exact_mod_cast passed.le)

theorem natCast (n : ℕ) : Saturates n (.finite n) where
  exact _ := rfl
  large passed := decide_eq_true (by exact_mod_cast passed.le)

/-- Past 2⁵³ there are only doubles and the positive infinity. -/
theorem cases (saturates : Saturates n x) :
    n ≤ 2 ^ 53 ∧ x = .finite n ∨ 2 ^ 53 < n ∧ (x = .infinity false ∨ ∃ y : ℚ, x = .finite y ∧ 2 ^ 53 ≤ y) := by
  rcases le_or_gt n (2 ^ 53) with small | passed
  · exact .inl ⟨small, saturates.exact small⟩
  · refine .inr ⟨passed, ?_⟩
    have wide := saturates.large passed
    cases x with
    | nan => cases wide
    | infinity negative =>
      cases negative with
      | false => exact .inl rfl
      | true => cases wide
    | finite y => exact .inr ⟨y, rfl, by simpa [atLeast] using wide⟩

theorem mul (saturates : Saturates n x) {c : ℕ} (positive : 0 < c) : Saturates (n * c) (x.mul (.finite c)) := by
  have factor : (1 : ℚ) ≤ c := by exact_mod_cast positive
  rcases saturates.cases with ⟨-, rfl⟩ | ⟨passed, wide⟩
  · have product : (Number.finite n).mul (.finite c) = .ofExact (n * c : ℕ) := by
      rw [Number.mul, Nat.cast_mul]
    exact product ▸ ofExact _
  · have more : 2 ^ 53 < n * c := passed.trans_le (Nat.le_mul_of_pos_right n positive)
    refine ⟨fun small => (not_le.mpr more small).elim, fun _ => ?_⟩
    rcases wide with rfl | ⟨y, rfl, wide⟩
    · have regular : ¬ (c : ℚ) = 0 := by linarith
      have sign : ¬ (c : ℚ) < 0 := by linarith
      simp [Number.mul, atLeast, regular, sign]
    · exact ofExact_atLeast_large (wide.trans (le_mul_of_one_le_right (le_trans (by positivity) wide) factor))

theorem add (saturates : Saturates n x) (m : ℕ) : Saturates (m + n) ((Number.finite m).add x) := by
  rcases saturates.cases with ⟨-, rfl⟩ | ⟨passed, wide⟩
  · have sum : (Number.finite m).add (.finite n) = .ofExact (m + n : ℕ) := by
      rw [Number.add, Nat.cast_add]
    exact sum ▸ ofExact _
  · refine ⟨fun small => by omega, fun _ => ?_⟩
    rcases wide with rfl | ⟨y, rfl, wide⟩
    · rfl
    · exact ofExact_atLeast_large (wide.trans (le_add_of_nonneg_left m.cast_nonneg))

end Saturates

end Number

end Js
