import ImapDialogue.Proofs.Number.Rounding

/-!
Rounding gives a number of double precision, and none of these lies nearer. They are the whole
numbers of units with 53 bits, from the least unit on: among those of the value's own unit the
rounded one is nearest, and one of a smaller unit lies below the least of those.
-/

namespace ImapDialogue.Number

/-- The rationals that have at most 53 leading bits and none below the least unit. -/
def Representable (value : Rat) : Prop :=
  ∃ count unit : Int, |count| ≤ 2 ^ 53 ∧ -1074 ≤ unit ∧ value = count * 2 ^ unit

theorem Representable.neg {value : Rat} (representable : Representable value) :
    Representable (-value) := by
  obtain ⟨count, unit, bits, least, rfl⟩ := representable
  exact ⟨-count, unit, by rwa [abs_neg], least, by push_cast; ring⟩

variable {numerator denominator : Nat}

def kept (numerator denominator : Nat) : Rat :=
  significand numerator denominator * 2 ^ unitExponent numerator denominator

theorem least_unit (numerator denominator : Nat) : -1074 ≤ unitExponent numerator denominator :=
  le_max_right _ _

theorem representable_kept (positive : 0 < numerator) (positive' : 0 < denominator) :
    Representable (kept numerator denominator) := by
  refine ⟨significand numerator denominator, unitExponent numerator denominator, ?_,
    least_unit _ _, rfl⟩
  have near := (abs_le.mp (significand_near numerator positive')).1
  have order : binaryOrder numerator denominator + 1 ≤ 53 + unitExponent numerator denominator := by
    have unit := le_max_left (binaryOrder numerator denominator - 52) (-1074)
    change _ ≤ unitExponent numerator denominator at unit
    omega
  have most : (numerator / denominator : Rat) / 2 ^ unitExponent numerator denominator < 2 ^ 53 := by
    rw [div_lt_iff₀ (by positivity)]
    calc
      (numerator / denominator : Rat) < 2 ^ (binaryOrder numerator denominator + 1) :=
        (binaryOrder_spec positive positive').2
      _ ≤ 2 ^ (53 + unitExponent numerator denominator) := zpow_le_zpow_right₀ one_le_two order
      _ = 2 ^ 53 * 2 ^ unitExponent numerator denominator := by
        rw [zpow_add₀ two_ne_zero]
        rfl
  have less : (significand numerator denominator : Rat) < ((2 ^ 53 + 1 : Nat) : Rat) := by
    push_cast
    linarith
  rw [Nat.abs_cast]
  exact_mod_cast Nat.lt_succ_iff.mp (by exact_mod_cast less)

theorem kept_nearest_count (positive : 0 < denominator) (count : Int) :
    |(numerator / denominator : Rat) - kept numerator denominator| ≤
      |(numerator / denominator : Rat) - count * 2 ^ unitExponent numerator denominator| := by
  have unit : (0 : Rat) < 2 ^ unitExponent numerator denominator := by positivity
  have scaled : ∀ amount : Rat,
      |(numerator / denominator : Rat) - amount * 2 ^ unitExponent numerator denominator| =
        |(numerator / denominator : Rat) / 2 ^ unitExponent numerator denominator - amount| *
          2 ^ unitExponent numerator denominator := by
    intro amount
    nth_rewrite 3 [← abs_of_pos unit]
    rw [← abs_mul, sub_mul, div_mul_cancel₀ _ unit.ne']
  have near := significand_near numerator positive
  rw [kept, scaled, scaled]
  apply mul_le_mul_of_nonneg_right _ unit.le
  by_cases same : count = significand numerator denominator
  · rw [same, Int.cast_natCast]
  · have apart : (1 : Rat) ≤ |(significand numerator denominator : Rat) - count| := by
      have distinct : (significand numerator denominator : Int) - count ≠ 0 :=
        sub_ne_zero.mpr (Ne.symm same)
      exact_mod_cast Int.one_le_abs distinct
    have triangle := abs_sub_le (significand numerator denominator : Rat)
      ((numerator / denominator : Rat) / 2 ^ unitExponent numerator denominator) count
    rw [abs_sub_comm (significand numerator denominator : Rat)
      ((numerator / denominator : Rat) / 2 ^ unitExponent numerator denominator)] at triangle
    linarith

theorem kept_nearest (positive : 0 < numerator) (positive' : 0 < denominator) {other : Rat}
    (representable : Representable other) :
    |(numerator / denominator : Rat) - kept numerator denominator| ≤
      |(numerator / denominator : Rat) - other| := by
  obtain ⟨count, unit, bits, least, rfl⟩ := representable
  by_cases coarse : unitExponent numerator denominator ≤ unit
  · have whole : (count : Rat) * 2 ^ unit =
        (count * 2 ^ (unit - unitExponent numerator denominator).toNat : Int) *
          2 ^ unitExponent numerator denominator := by
      have exponent : unit = (unit - unitExponent numerator denominator).toNat +
          unitExponent numerator denominator := by
        omega
      nth_rewrite 1 [exponent]
      rw [zpow_add₀ two_ne_zero, zpow_natCast]
      push_cast
      ring
    rw [whole]
    exact kept_nearest_count positive' _
  · -- A smaller unit: what it can hold lies below the value's own leading bit.
    have normal : unitExponent numerator denominator = binaryOrder numerator denominator - 52 :=
      unitExponent_of_le (by
        have bound : unitExponent numerator denominator =
          max (binaryOrder numerator denominator - 52) (-1074) := rfl
        omega)
    have leading : ((2 ^ 52 : Int) : Rat) * 2 ^ unitExponent numerator denominator =
        2 ^ binaryOrder numerator denominator := by
      rw [normal, Int.cast_pow, Int.cast_ofNat, ← zpow_natCast, ← zpow_add₀ two_ne_zero]
      congr 1
      omega
    have reached := (binaryOrder_spec positive positive').1
    have below : (count : Rat) * 2 ^ unit ≤ 2 ^ binaryOrder numerator denominator := by
      have most : (count : Rat) ≤ ((2 ^ 53 : Int) : Rat) := by
        exact_mod_cast (le_abs_self count).trans bits
      calc
        (count : Rat) * 2 ^ unit ≤ ((2 ^ 53 : Int) : Rat) * 2 ^ unit :=
          mul_le_mul_of_nonneg_right most (by positivity)
        _ = 2 ^ (53 + unit) := by
          rw [Int.cast_pow, Int.cast_ofNat, ← zpow_natCast, ← zpow_add₀ two_ne_zero]
          rfl
        _ ≤ 2 ^ binaryOrder numerator denominator :=
          zpow_le_zpow_right₀ one_le_two (by omega)
    calc
      |(numerator / denominator : Rat) - kept numerator denominator| ≤
          |(numerator / denominator : Rat) - 2 ^ binaryOrder numerator denominator| := by
        rw [← leading]
        exact kept_nearest_count positive' (2 ^ 52)
      _ = (numerator / denominator : Rat) - 2 ^ binaryOrder numerator denominator :=
        abs_of_nonneg (sub_nonneg.mpr reached)
      _ ≤ (numerator / denominator : Rat) - count * 2 ^ unit := sub_le_sub_left below _
      _ ≤ |(numerator / denominator : Rat) - count * 2 ^ unit| := le_abs_self _

/-- A rational is rounded to a number of double precision, and none of these lies nearer to it. -/
theorem ofRat_nearest {value rounded : Rat} (finite : ofRat value = .finite rounded) :
    Representable rounded ∧
      ∀ other, Representable other → |value - rounded| ≤ |value - other| := by
  rcases eq_or_ne value 0 with rfl | nonzero
  · have zero : ofRat 0 = .finite 0 := rfl
    cases zero.symm.trans finite
    refine ⟨⟨0, 0, by norm_num, by norm_num, by norm_num⟩, fun other _ => ?_⟩
    rw [sub_zero, abs_zero]
    exact abs_nonneg _
  have positive : 0 < value.num.natAbs := Int.natAbs_pos.mpr (Rat.num_ne_zero.mpr nonzero)
  have size := natAbs_num_div_den value
  have magnitude : rounded = if value < 0 then -kept value.num.natAbs value.den
      else kept value.num.natAbs value.den := by
    have cut : nearestMagnitude value.num.natAbs value.den =
        if kept value.num.natAbs value.den < overflow
        then some (kept value.num.natAbs value.den) else none := nearestMagnitude_eq positive _
    rw [ofRat, cut] at finite
    by_cases bounded : kept value.num.natAbs value.den < overflow
    · rw [if_pos bounded] at finite
      exact (Number.finite.inj finite).symm
    · rw [if_neg bounded] at finite
      cases finite
  have held := representable_kept positive value.den_pos
  have nearest : ∀ {other : Rat}, Representable other →
      abs (|value| - kept value.num.natAbs value.den) ≤ abs (|value| - other) := by
    intro other representable
    rw [← size]
    exact kept_nearest positive value.den_pos representable
  rcases lt_or_ge value 0 with negative | unsigned
  · rw [if_pos negative] at magnitude
    rw [abs_of_neg negative] at nearest
    rw [magnitude]
    refine ⟨held.neg, fun other representable => ?_⟩
    have mirrored : ∀ amount : Rat, |value - -amount| = |-value - amount| := by
      intro amount
      rw [← abs_neg, neg_sub', neg_neg]
    have reached := nearest representable.neg
    rwa [← mirrored, ← mirrored, neg_neg] at reached
  · rw [if_neg (not_lt.mpr unsigned)] at magnitude
    rw [abs_of_nonneg unsigned] at nearest
    rw [magnitude]
    exact ⟨held, fun other representable => nearest representable⟩

end ImapDialogue.Number
