import ImapDialogue.Number.Numeral
import ImapDialogue.Proofs.Wire.Digits
import Mathlib.Data.List.TakeWhile
import Mathlib.Data.Rat.Defs

/-!
A numeral of digits alone stands for the number that its digits make, rounded once, however many
digits it has.
-/

namespace ImapDialogue.Numeral

def Digital (chars : List Char) : Prop := chars ≠ [] ∧ ∀ char ∈ chars, char.isDigit = true

instance (chars : List Char) : Decidable (Digital chars) := inferInstanceAs (Decidable (_ ∧ _))

theorem code_of_digit {char : Char} (digit : char.isDigit = true) :
    0x30 ≤ char.toNat ∧ char.toNat ≤ 0x39 := (Bytes.isDigit_toUInt8 digit).2

theorem ne_of_digit {char other : Char} (digit : char.isDigit = true)
    (unlike : other.isDigit = false) : char ≠ other := by
  rintro rfl
  rw [digit] at unlike
  cases unlike

theorem isBlank_digit {char : Char} (digit : char.isDigit = true) : isBlank char = false := by
  obtain ⟨low, high⟩ := code_of_digit digit
  simp only [isBlank, Bool.or_eq_false_iff, Bool.and_eq_false_iff, decide_eq_false_iff_not,
    beq_eq_false_iff_ne]
  omega

theorem dropWhile_blank {chars : List Char} (digits : ∀ char ∈ chars, char.isDigit = true) :
    chars.dropWhile isBlank = chars := by
  cases chars with
  | nil => rfl
  | cons first others =>
      have visible := isBlank_digit (digits first List.mem_cons_self)
      rw [List.dropWhile_cons_of_neg]
      rw [visible]
      exact Bool.false_ne_true

theorem trim_digits {chars : List Char} (digits : ∀ char ∈ chars, char.isDigit = true) :
    trim chars = chars := by
  have back : ∀ char ∈ chars.reverse, char.isDigit = true :=
    fun char member => digits char (List.mem_reverse.mp member)
  rw [trim, dropWhile_blank digits, dropWhile_blank back, List.reverse_reverse]

theorem digit_eq {char : Char} (digit : char.isDigit = true) :
    Numeral.digit char = some (Byte.digit char.toUInt8) ∧ Byte.digit char.toUInt8 < 10 := by
  obtain ⟨same, low, high⟩ := Bytes.isDigit_toUInt8 digit
  rw [Numeral.digit, Byte.digit, same]
  simp only [low, high, decide_true, Bool.and_self, if_true, true_and]
  omega

theorem digitsValue_digits {chars : List Char} (digits : ∀ char ∈ chars, char.isDigit = true) :
    digitsValue 10 chars = some (Bytes.decimal (chars.map Char.toUInt8)) := by
  -- The value grows from the front, so the induction is on what stands behind any value so far.
  have grows : ∀ value : Nat, (chars.foldlM (fun value char => do
      let next ← digit char
      if next < 10 then some (value * 10 + next) else none) value) =
        some ((chars.map Char.toUInt8).foldl
          (fun value byte => value * 10 + Byte.digit byte) value) := by
    induction chars with
    | nil => exact fun _ => rfl
    | cons first others induction =>
        obtain ⟨read, small⟩ := digit_eq (digits first List.mem_cons_self)
        have later := induction fun char member => digits char (List.mem_cons_of_mem _ member)
        intro value
        rw [List.foldlM_cons, read, List.map_cons, List.foldl_cons, ← later]
        simp only [Option.bind_eq_bind, Option.bind_some, small, if_true]
  exact grows 0

theorem rounded_whole (value count : Nat) : rounded false value count 0 = .ofNat value := by
  by_cases zero : value = 0
  · subst zero
    rfl
  · have high : ¬400 + (count : Int) < 0 := by omega
    have low : ¬0 + (count : Int) < -400 := by omega
    have whole : mkRat (value * Nat.pow 10 (0 : Int).toNat : Nat) (Nat.pow 10 (-(0 : Int)).toNat) =
        (value : Rat) := by
      change mkRat (value * 1 : Nat) 1 = (value : Rat)
      rw [Rat.mkRat_one, Nat.mul_one]
      rfl
    have positive : ¬(value : Rat) < 0 := Rat.not_lt.mpr Rat.natCast_nonneg
    rw [rounded, if_neg zero, if_neg high, if_neg low]
    simp only [whole, Bool.false_eq_true, if_false]
    rw [Number.ofRat, Number.ofNat]
    simp only [Rat.num_natCast, Int.natAbs_natCast, Rat.den_natCast, positive, if_false,
      decide_false]

theorem decimal_digital {chars : List Char} (digital : Digital chars) :
    decimal chars = some (.ofNat (Bytes.decimal (chars.map Char.toUInt8))) := by
  obtain ⟨filled, digits⟩ := digital
  obtain ⟨first, others, rfl⟩ := List.exists_cons_of_ne_nil filled
  have begins := digits first List.mem_cons_self
  have unsigned : sign (first :: others) = (false, first :: others) := by
    unfold sign
    split
    · next same => cases same; exact absurd begins (by decide)
    · next same => cases same; exact absurd begins (by decide)
    · rfl
  have finite : (first :: others == "Infinity".toList) = false := by
    rw [beq_eq_false_iff_ne]
    intro same
    rw [(List.cons.inj same).1] at begins
    exact absurd begins (by decide)
  have whole : (first :: others).takeWhile Char.isDigit = first :: others :=
    List.takeWhile_eq_self_iff.mpr digits
  have none : (first :: others).dropWhile Char.isDigit = [] := by
    have parts := @List.takeWhile_append_dropWhile _ Char.isDigit (first :: others)
    rwa [whole, List.append_right_eq_self] at parts
  simp only [decimal, unsigned, finite, whole, none, List.append_nil, List.isEmpty_cons,
    Bool.false_eq_true, if_false, digitsValue_digits digits, exponent, Option.bind_eq_bind,
    Option.bind_some, List.length_nil, Int.natCast_zero, Int.sub_zero, rounded_whole,
    Option.pure_def]

theorem read_digital {text : String} (digital : Digital text.toList) :
    read text = some (.ofNat (Bytes.decimal (text.toList.map Char.toUInt8))) := by
  rw [← decimal_digital digital, read, trim_digits digital.2]
  split
  · next empty => exact absurd empty digital.1
  · next mark rest full =>
      rw [full] at digital
      have marked := digital.2 mark (by simp)
      have other : ∀ letter : Char, letter.isDigit = false → (mark == letter) = false :=
        fun letter unlike => beq_eq_false_iff_ne.mpr (ne_of_digit marked unlike)
      simp only [other _ (show 'x'.isDigit = false from rfl),
        other _ (show 'X'.isDigit = false from rfl), other _ (show 'o'.isDigit = false from rfl),
        other _ (show 'O'.isDigit = false from rfl), other _ (show 'b'.isDigit = false from rfl),
        other _ (show 'B'.isDigit = false from rfl), Bool.or_self, Bool.false_eq_true, if_false,
        full]
  · rfl

end ImapDialogue.Numeral
