import ImapDialogue.Proofs.Number.Exact
import Mathlib.Algebra.Order.Field.Power
import Mathlib.Data.Rat.Cast.Order
import Mathlib.Tactic.FieldSimp
import Mathlib.Tactic.Linarith
import Mathlib.Tactic.Positivity
import Mathlib.Tactic.Ring

/-!
Rounding to double precision. What is kept of a positive value is a whole number of units, and the
unit is the place value of the last of its 53 leading bits, or the least one that there is.
-/

namespace ImapDialogue.Number

/-! ## Whole numbers of units -/

/-- A quotient is rounded to its whole part if no more than half is left, and up if no less is. -/
theorem roundHalfEven_cases (numerator denominator : Nat) :
    (roundHalfEven numerator denominator = numerator / denominator ∧
        2 * (numerator % denominator) ≤ denominator) ∨
      (roundHalfEven numerator denominator = numerator / denominator + 1 ∧
        denominator ≤ 2 * (numerator % denominator)) := by
  unfold roundHalfEven
  dsimp only
  split
  · left
    omega
  · split
    · right
      omega
    · rcases Nat.mod_two_eq_zero_or_one (numerator / denominator) with even | odd
      · left
        omega
      · right
        omega

theorem roundHalfEven_near {denominator : Nat} (positive : 0 < denominator) (numerator : Nat) :
    |(numerator / denominator : Rat) - roundHalfEven numerator denominator| ≤ 1 / 2 := by
  have parts : (denominator : Rat) * (numerator / denominator : Nat) +
      (numerator % denominator : Nat) = numerator := by
    exact_mod_cast Nat.div_add_mod numerator denominator
  have positive' : (0 : Rat) < denominator := by exact_mod_cast positive
  have split : (numerator / denominator : Rat) =
      (numerator / denominator : Nat) + (numerator % denominator : Nat) / denominator := by
    rw [← parts]
    field_simp
  have whole : (0 : Rat) ≤ (numerator % denominator : Nat) / denominator := by positivity
  have small : ((numerator % denominator : Nat) / denominator : Rat) < 1 := by
    rw [div_lt_one positive']
    exact_mod_cast Nat.mod_lt numerator positive
  rw [split]
  rcases roundHalfEven_cases numerator denominator with ⟨same, half⟩ | ⟨same, half⟩
  · have half' : ((numerator % denominator : Nat) / denominator : Rat) ≤ 1 / 2 := by
      rw [div_le_div_iff₀ positive' two_pos]
      exact_mod_cast by omega
    rw [same, abs_le]
    constructor <;> linarith
  · have half' : (1 / 2 : Rat) ≤ (numerator % denominator : Nat) / denominator := by
      rw [div_le_div_iff₀ two_pos positive']
      exact_mod_cast by omega
    rw [same, abs_le]
    push_cast
    constructor <;> linarith

theorem pow_parts (base : Nat) (exponent : Int) :
    ((base ^ exponent.toNat : Nat) : Rat) / (base ^ (-exponent).toNat : Nat) = base ^ exponent := by
  obtain ⟨count, rfl | rfl⟩ := exponent.eq_nat_or_neg
  · simp
  · simp

theorem two_pow_parts (exponent : Int) :
    ((2 ^ exponent.toNat : Nat) : Rat) / (2 ^ (-exponent).toNat : Nat) = 2 ^ exponent :=
  pow_parts 2 exponent

/-- A power of two lies above a quotient if it does so with both brought to whole numbers. -/
theorem lt_pow_iff {numerator denominator : Nat} (positive : 0 < denominator) (exponent : Int) :
    numerator * Nat.pow 2 (-exponent).toNat < denominator * Nat.pow 2 exponent.toNat ↔
      (numerator / denominator : Rat) < 2 ^ exponent := by
  have positive' : (0 : Rat) < denominator := by exact_mod_cast positive
  have below : (0 : Rat) < (2 ^ (-exponent).toNat : Nat) := by positivity
  rw [← two_pow_parts, div_lt_div_iff₀ positive' below, mul_comm (_ : Rat) (denominator : Rat)]
  exact_mod_cast Iff.rfl

/-- A quotient lies near the power of two that the leading bits of its parts give. -/
theorem pow_log2_near {numerator denominator : Nat} (positive : 0 < numerator)
    (positive' : 0 < denominator) :
    (2 : Rat) ^ ((numerator.log2 : Int) - denominator.log2 - 1) ≤ numerator / denominator ∧
      (numerator / denominator : Rat) < 2 ^ ((numerator.log2 : Int) - denominator.log2 + 1) := by
  have above : (0 : Rat) < denominator := by exact_mod_cast positive'
  have low : (2 : Rat) ^ numerator.log2 ≤ numerator := by
    exact_mod_cast Nat.log2_self_le positive.ne'
  have high : (numerator : Rat) < 2 ^ (numerator.log2 + 1) := by exact_mod_cast Nat.lt_log2_self
  have low' : (2 : Rat) ^ denominator.log2 ≤ denominator := by
    exact_mod_cast Nat.log2_self_le positive'.ne'
  have high' : (denominator : Rat) < 2 ^ (denominator.log2 + 1) := by
    exact_mod_cast Nat.lt_log2_self
  have least : (2 : Rat) ^ ((numerator.log2 : Int) - denominator.log2 - 1) =
      2 ^ numerator.log2 / 2 ^ (denominator.log2 + 1) := by
    rw [Int.sub_sub, zpow_sub₀ two_ne_zero]
    rfl
  have most : (2 : Rat) ^ ((numerator.log2 : Int) - denominator.log2 + 1) =
      2 ^ (numerator.log2 + 1) / 2 ^ denominator.log2 := by
    have shifted : (numerator.log2 : Int) - denominator.log2 + 1 =
        (numerator.log2 + 1 : Nat) - denominator.log2 := by omega
    rw [shifted, zpow_sub₀ two_ne_zero]
    rfl
  rw [least, most]
  constructor
  · rw [div_le_div_iff₀ (by positivity) above]
    exact mul_le_mul low high'.le (by positivity) (by positivity)
  · rw [div_lt_div_iff₀ above (by positivity)]
    exact mul_lt_mul high low' (by positivity) (by positivity)

theorem binaryOrder_spec {numerator denominator : Nat} (positive : 0 < numerator)
    (positive' : 0 < denominator) :
    (2 : Rat) ^ binaryOrder numerator denominator ≤ numerator / denominator ∧
      (numerator / denominator : Rat) < 2 ^ (binaryOrder numerator denominator + 1) := by
  -- The leading bits of the parts leave two exponents, and comparing with the greater one decides.
  obtain ⟨low, high⟩ := pow_log2_near positive positive'
  unfold binaryOrder
  dsimp only
  split
  · next less =>
      refine ⟨low, ?_⟩
      rw [Int.sub_add_cancel]
      exact (lt_pow_iff positive' _).mp less
  · next least =>
      refine ⟨not_lt.mp fun less => least ((lt_pow_iff positive' _).mpr less), high⟩

/-! ## Units of double precision -/

def unitExponent (numerator denominator : Nat) : Int :=
  max (binaryOrder numerator denominator - 52) (-1074)

def significand (numerator denominator : Nat) : Nat :=
  let unit := unitExponent numerator denominator
  roundHalfEven (numerator * Nat.pow 2 (-unit).toNat) (denominator * Nat.pow 2 unit.toNat)

def overflow : Rat := (Nat.pow 2 1024 : Nat)

theorem nearestMagnitude_eq {numerator : Nat} (positive : 0 < numerator) (denominator : Nat) :
    nearestMagnitude numerator denominator =
      let value := significand numerator denominator * (2 : Rat) ^ unitExponent numerator denominator
      if value < overflow then some value else none := by
  have shape : ∀ count : Nat, mkRat
      ((count * Nat.pow 2 (unitExponent numerator denominator).toNat : Nat) : Int)
        (Nat.pow 2 (-unitExponent numerator denominator).toNat) =
      count * (2 : Rat) ^ unitExponent numerator denominator := by
    intro count
    simp only [Nat.pow_eq]
    rw [← two_pow_parts, Rat.mkRat_eq_div, mul_div_assoc']
    push_cast
    rfl
  rw [nearestMagnitude, if_neg positive.ne']
  dsimp only
  rw [← shape]
  rfl

theorem significand_near (numerator : Nat) {denominator : Nat} (positive : 0 < denominator) :
    |(numerator / denominator : Rat) / 2 ^ unitExponent numerator denominator -
      significand numerator denominator| ≤ 1 / 2 := by
  have positive' : (0 : Rat) < denominator := by exact_mod_cast positive
  have near := roundHalfEven_near
    (Nat.mul_pos positive (Nat.two_pow_pos (unitExponent numerator denominator).toNat))
    (numerator * Nat.pow 2 (-unitExponent numerator denominator).toNat)
  have same : ((numerator * Nat.pow 2 (-unitExponent numerator denominator).toNat : Nat) : Rat) /
      (denominator * 2 ^ (unitExponent numerator denominator).toNat : Nat) =
      (numerator / denominator : Rat) / 2 ^ unitExponent numerator denominator := by
    rw [← two_pow_parts]
    simp only [Nat.pow_eq]
    push_cast
    field_simp
  rw [same] at near
  exact near

/-! ## Bounds -/

theorem unitExponent_of_le {numerator denominator : Nat}
    (least : -1022 ≤ binaryOrder numerator denominator) :
    unitExponent numerator denominator = binaryOrder numerator denominator - 52 :=
  max_eq_left (by omega)

theorem le_binaryOrder {numerator denominator : Nat} (positive : 0 < numerator)
    (positive' : 0 < denominator) {exponent : Int}
    (reaches : (2 : Rat) ^ exponent ≤ numerator / denominator) :
    exponent ≤ binaryOrder numerator denominator := by
  have below := reaches.trans_lt (binaryOrder_spec positive positive').2
  have order := (zpow_lt_zpow_iff_right₀ one_lt_two).mp below
  omega

/-- With 53 leading bits, the first of them counts two to the 52 units. -/
theorem le_significand {numerator denominator : Nat} (positive : 0 < numerator)
    (positive' : 0 < denominator) (least : -1022 ≤ binaryOrder numerator denominator) :
    2 ^ 52 ≤ significand numerator denominator := by
  have near := (abs_le.mp (significand_near numerator positive')).2
  have most : (2 : Rat) ^ 52 ≤
      (numerator / denominator : Rat) / 2 ^ unitExponent numerator denominator := by
    rw [le_div_iff₀ (by positivity), unitExponent_of_le least]
    have whole : (2 : Rat) ^ 52 * 2 ^ (binaryOrder numerator denominator - 52) =
        2 ^ binaryOrder numerator denominator := by
      rw [← zpow_natCast, ← zpow_add₀ two_ne_zero]
      congr 1
      omega
    rw [whole]
    exact (binaryOrder_spec positive positive').1
  have half : ((2 ^ 52 : Nat) : Rat) < (significand numerator denominator + 1 : Nat) := by
    push_cast
    linarith
  exact Nat.lt_succ_iff.mp (by exact_mod_cast half)

/-- Rounding does not take a value below a power of two that it reaches. -/
theorem pow_le_rounded {numerator denominator : Nat} (positive : 0 < numerator)
    (positive' : 0 < denominator) {exponent : Int} (least : -1022 ≤ exponent)
    (reaches : (2 : Rat) ^ exponent ≤ numerator / denominator) :
    (2 : Rat) ^ exponent ≤
      significand numerator denominator * 2 ^ unitExponent numerator denominator := by
  have order := le_binaryOrder positive positive' reaches
  have bits : ((2 ^ 52 : Nat) : Rat) ≤ significand numerator denominator := by
    exact_mod_cast le_significand positive positive' (least.trans order)
  calc
    (2 : Rat) ^ exponent ≤ 2 ^ binaryOrder numerator denominator :=
      zpow_le_zpow_right₀ one_le_two order
    _ = ((2 ^ 52 : Nat) : Rat) * 2 ^ (binaryOrder numerator denominator - 52) := by
      rw [Nat.cast_pow, Nat.cast_two, ← zpow_natCast, ← zpow_add₀ two_ne_zero]
      congr 1
      omega
    _ ≤ significand numerator denominator * 2 ^ unitExponent numerator denominator := by
      rw [unitExponent_of_le (least.trans order)]
      exact mul_le_mul_of_nonneg_right bits (by positivity)

theorem overflow_eq : overflow = (2 : Rat) ^ (1024 : Int) := by
  have power : ∀ count : Nat, ((Nat.pow 2 count : Nat) : Rat) = 2 ^ (count : Int) := by
    intro count
    rw [Nat.pow_eq, Nat.cast_pow, Nat.cast_two, zpow_natCast]
  have exponent : (1024 : Int) = (1024 : Nat) := rfl
  simp only [overflow, power, exponent]

theorem nearestMagnitude_overflow {numerator denominator : Nat} (positive : 0 < denominator)
    (reaches : overflow ≤ numerator / denominator) :
    nearestMagnitude numerator denominator = none := by
  rw [overflow_eq] at reaches
  have positive' : 0 < numerator := by
    rcases Nat.eq_zero_or_pos numerator with rfl | positive'
    · rw [Nat.cast_zero, zero_div] at reaches
      exact absurd (zpow_pos two_pos _) (not_lt.mpr reaches)
    · exact positive'
  have rounded := pow_le_rounded positive' positive (by decide) reaches
  rw [← overflow_eq] at rounded
  rw [nearestMagnitude_eq positive']
  exact if_neg (not_lt.mpr rounded)

theorem nearestMagnitude_underflow {numerator denominator : Nat} (positive : 0 < denominator)
    (small : (numerator / denominator : Rat) < 2 ^ (-1075 : Int)) :
    nearestMagnitude numerator denominator = some 0 := by
  rcases Nat.eq_zero_or_pos numerator with rfl | positive'
  · exact if_pos rfl
  have order : binaryOrder numerator denominator < -1075 :=
    (zpow_lt_zpow_iff_right₀ one_lt_two).mp
      ((binaryOrder_spec positive' positive).1.trans_lt small)
  have unit : unitExponent numerator denominator = -1074 := max_eq_right (by omega)
  have half : (numerator / denominator : Rat) / 2 ^ (-1074 : Int) < 1 / 2 := by
    rw [div_lt_iff₀ (by positivity)]
    calc
      (numerator / denominator : Rat) < 2 ^ (-1075 : Int) := small
      _ = 1 / 2 * 2 ^ (-1074 : Int) := by
        have next : (-1074 : Int) = -1075 + 1 := rfl
        rw [next, zpow_add_one₀ two_ne_zero]
        ring
  have none : significand numerator denominator = 0 := by
    have near := (abs_le.mp (significand_near numerator positive)).1
    rw [unit] at near
    have less : (significand numerator denominator : Rat) < (1 : Nat) := by
      push_cast
      linarith
    exact Nat.lt_one_iff.mp (by exact_mod_cast less)
  have bounded : (0 : Rat) < overflow := by
    rw [overflow_eq]
    positivity
  rw [nearestMagnitude_eq positive', none, Nat.cast_zero]
  simp only [zero_mul]
  exact if_pos bounded

/-! ## Rounded rationals -/

theorem natAbs_num_div_den (value : Rat) : ((value.num.natAbs : Nat) : Rat) / value.den = |value| := by
  have positive : (0 : Rat) < value.den := by exact_mod_cast value.den_pos
  calc
    ((value.num.natAbs : Nat) : Rat) / value.den = |(value.num : Rat)| / |(value.den : Rat)| := by
      rw [Nat.cast_natAbs, Int.cast_abs, abs_of_pos positive]
    _ = |value| := by rw [← abs_div, Rat.num_div_den]

theorem ofRat_overflow {value : Rat} (reaches : overflow ≤ |value|) :
    ofRat value = .infinite (value < 0) := by
  rw [← natAbs_num_div_den] at reaches
  rw [ofRat, nearestMagnitude_overflow value.den_pos reaches]

theorem ofRat_underflow {value : Rat} (small : |value| < 2 ^ (-1075 : Int)) :
    ofRat value = .finite 0 := by
  rw [← natAbs_num_div_den] at small
  rw [ofRat, nearestMagnitude_underflow value.den_pos small]
  simp only [neg_zero, ite_self]

/-! ## Places in data -/

/-- Whether a number is as large as a natural one. -/
def reaches (number : Number) (place : Nat) : Bool :=
  match number with
  | .finite value => decide ((place : Rat) ≤ value)
  | .infinite negative => !negative

def plus (start : Nat) : Number → Number
  | .finite value => .ofRat (start + value)
  | .infinite negative => .infinite negative

theorem ofRat_natCast (value : Nat) : ofRat value = ofNat value := by
  have positive : ¬(value : Rat) < 0 := not_lt.mpr (Nat.cast_nonneg value)
  simp only [ofRat, ofNat, Rat.num_natCast, Int.natAbs_natCast, Rat.den_natCast, positive,
    if_false, decide_false]

/-- A value that reaches two to the 53 still does once it is rounded. -/
theorem ofRat_far {value : Rat} (far : (exactLimit : Rat) ≤ value) :
    ofRat value = .infinite false ∨ ∃ rounded, ofRat value = .finite rounded ∧ exactLimit ≤ rounded := by
  have positive : 0 < value := lt_of_lt_of_le (by unfold exactLimit; positivity) far
  have unsigned : ¬value < 0 := not_lt.mpr positive.le
  have numerator : 0 < value.num.natAbs := Int.natAbs_pos.mpr (Rat.num_pos.mpr positive).ne'
  have parts := natAbs_num_div_den value
  rw [abs_of_pos positive] at parts
  have limit : (exactLimit : Rat) = 2 ^ (53 : Int) := by norm_num [exactLimit]
  have kept := @pow_le_rounded _ _ numerator value.den_pos 53 (by decide)
    (by rw [parts, ← limit]; exact far)
  rw [← limit] at kept
  rw [ofRat, nearestMagnitude_eq numerator]
  dsimp only
  by_cases bounded : significand value.num.natAbs value.den *
      (2 : Rat) ^ unitExponent value.num.natAbs value.den < overflow
  · rw [if_pos bounded]
    exact .inr ⟨_, rfl, by rw [if_neg unsigned]; exact kept⟩
  · rw [if_neg bounded]
    exact .inl (by simp only [unsigned, decide_false])

theorem plus_exact {start size : Nat} (small : start + size < exactLimit) :
    plus start (ofNat size) = .finite (start + size : Nat) := by
  rw [ofNat_exact (Nat.lt_of_le_of_lt (Nat.le_add_left _ _) small), plus, ← Nat.cast_add,
    ofRat_natCast, ofNat_exact small]

theorem plus_far {start size : Nat} (far : exactLimit ≤ start + size) {place : Nat}
    (near : place ≤ exactLimit) : (plus start (ofNat size)).reaches place = true := by
  have reached : ∀ {value : Rat}, (exactLimit : Rat) ≤ value → (ofRat value).reaches place = true := by
    intro value above
    rcases ofRat_far above with infinite | ⟨rounded, finite, large⟩
    · rw [infinite]
      rfl
    · have within : (place : Rat) ≤ exactLimit := by exact_mod_cast near
      rw [finite]
      exact decide_eq_true (within.trans large)
  by_cases small : size < exactLimit
  · rw [ofNat_exact small, plus]
    exact reached (by exact_mod_cast far)
  · -- The size alone is large, so it is rounded before the sum is.
    rw [← ofRat_natCast]
    have above : (exactLimit : Rat) ≤ size := by exact_mod_cast Nat.le_of_not_lt small
    rcases ofRat_far above with infinite | ⟨rounded, finite, large⟩
    · rw [infinite]
      rfl
    · rw [finite, plus]
      exact reached (large.trans (le_add_of_nonneg_left (Nat.cast_nonneg start)))

/-- Against a place that data can have, a rounded sum compares as the exact one does. -/
theorem plus_reaches (start size : Nat) {place : Nat} (near : place ≤ exactLimit) :
    (plus start (ofNat size)).reaches place = decide (place ≤ start + size) := by
  rcases Nat.lt_or_ge (start + size) exactLimit with small | far
  · rw [plus_exact small, reaches, Bool.eq_iff_iff, decide_eq_true_eq, decide_eq_true_eq]
    exact Nat.cast_le
  · rw [plus_far far near, eq_comm, decide_eq_true_eq]
    exact near.trans far

end ImapDialogue.Number
