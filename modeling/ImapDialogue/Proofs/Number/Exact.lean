import ImapDialogue.Number.Basic
import Mathlib.Data.Nat.Log
import Mathlib.Data.Rat.Defs
import Mathlib.Tactic.Common

/-!
Natural numbers that double precision holds exactly. Below two to the 53 the lowest bit that
fits is a fraction of one, so that nothing is left to round.
-/

namespace ImapDialogue.Number

/-- The numbers below two to the 53 have a place of their own. -/
def exactLimit : Nat := 9007199254740992

theorem roundHalfEven_one (numerator : Nat) : roundHalfEven numerator 1 = numerator := by
  simp [roundHalfEven, Nat.mod_one]

theorem binaryOrder_one {value : Nat} (positive : value ≠ 0) :
    binaryOrder value 1 = value.log2 := by
  have low := Nat.log2_self_le positive
  have order : ((value.log2 : Int) - (Nat.log2 1 : Nat)) = value.log2 := by
    have unit : Nat.log2 1 = 0 := by decide
    rw [unit]
    simp
  rw [binaryOrder]
  simp only [order]
  rw [if_neg]
  have none : (-(value.log2 : Int)).toNat = 0 := by omega
  have all : ((value.log2 : Int)).toNat = value.log2 := by omega
  simp only [none, all, Nat.pow_eq, Nat.pow_zero, Nat.mul_one, Nat.one_mul]
  omega

theorem ofNat_exact {value : Nat} (small : value < exactLimit) :
    ofNat value = .finite value := by
  by_cases zero : value = 0
  · subst zero
    rfl
  · have order : value.log2 < 53 := (Nat.log2_lt zero).mpr small
    have unit : max (binaryOrder value 1 - 52) (-1074) = (value.log2 : Int) - 52 := by
      rw [binaryOrder_one zero]
      omega
    have down : ((value.log2 : Int) - 52).toNat = 0 := by omega
    have up : Nat.pow 2 (-((value.log2 : Int) - 52)).toNat ≠ 0 :=
      Nat.pos_iff_ne_zero.mp (Nat.pow_pos (by decide))
    have same : mkRat (value * Nat.pow 2 (-((value.log2 : Int) - 52)).toNat : Nat)
        (Nat.pow 2 (-((value.log2 : Int) - 52)).toNat) = (value : Rat) := by
      have cut := @Rat.mkRat_mul_right value 1 _ up
      rw [Nat.one_mul] at cut
      rw [Int.natCast_mul, cut, Rat.mkRat_one]
      rfl
    have bounded : (value : Rat) < ((2 ^ 1024 : Nat) : Rat) := by
      have wider : 53 ≤ 1024 := by decide
      have far := Nat.lt_of_lt_of_le small (Nat.pow_le_pow_right Nat.two_pos wider)
      rw [Rat.natCast_lt_natCast]
      exact far
    have found : nearestMagnitude value 1 = some (value : Rat) := by
      rw [nearestMagnitude, if_neg zero]
      simp only [unit, down, Nat.pow_eq, Nat.pow_zero, Nat.mul_one, roundHalfEven_one]
      simp only [Nat.pow_eq] at same
      rw [same, if_pos bounded]
    rw [ofNat, found]

end ImapDialogue.Number
