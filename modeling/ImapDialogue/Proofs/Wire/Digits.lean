import ImapDialogue.Proofs.Wire.Bytes

/-!
Numbers as they stand in a line: the bytes of their decimal digits, and back.
-/

namespace ImapDialogue.Bytes

def digits (number : Nat) : Bytes := ofNarrow (toString number)

theorem digits_eq_map (number : Nat) : digits number = (Nat.toDigits 10 number).map Char.toUInt8 := by
  rw [digits, ofNarrow, Nat.toString_eq_repr, Nat.toList_repr]

theorem isDigit_toUInt8 {char : Char} (digit : char.isDigit = true) :
    char.toUInt8.toNat = char.toNat ∧ 0x30 ≤ char.toNat ∧ char.toNat ≤ 0x39 := by
  simp only [Char.isDigit, Bool.and_eq_true, decide_eq_true_eq, UInt32.le_iff_toNat_le] at digit
  have low : 0x30 ≤ char.toNat := digit.1
  have high : char.toNat ≤ 0x39 := digit.2
  refine ⟨?_, low, high⟩
  rw [Char.toUInt8, UInt32.toNat_toUInt8]
  exact Nat.mod_eq_of_lt (Nat.lt_of_le_of_lt high (by decide))

theorem isDigit_of_mem_digits {number : Nat} {byte : UInt8} (member : byte ∈ digits number) :
    Byte.isDigit byte = true := by
  rw [digits_eq_map, List.mem_map] at member
  obtain ⟨char, inside, rfl⟩ := member
  obtain ⟨same, low, high⟩ :=
    isDigit_toUInt8 (Nat.isDigit_of_mem_toDigits (by decide) (by decide) inside)
  simp only [Byte.isDigit, Bool.and_eq_true, decide_eq_true_eq, UInt8.le_iff_toNat_le, same]
  exact ⟨low, high⟩

theorem digits_ne_nil (number : Nat) : digits number ≠ [] := by
  rw [digits_eq_map]
  simp

theorem decimal_digits (number : Nat) : decimal (digits number) = number := by
  have each : ∀ (chars : List Char) (start : Nat), (∀ char ∈ chars, char.isDigit = true) →
      (chars.map Char.toUInt8).foldl (fun value byte => value * 10 + Byte.digit byte) start =
        Nat.ofDigitChars 10 chars start := by
    intro chars
    induction chars with
    | nil => intro start _; rfl
    | cons char chars induction =>
        intro start numeric
        have value := (isDigit_toUInt8 (numeric char List.mem_cons_self)).1
        rw [List.map_cons, List.foldl_cons, Nat.ofDigitChars_cons, Byte.digit, value,
          Nat.mul_comm start 10]
        exact induction _ fun other member => numeric other (List.mem_cons_of_mem _ member)
  rw [digits_eq_map, decimal, each _ 0 fun char inside =>
    Nat.isDigit_of_mem_toDigits (by decide) (by decide) inside]
  exact Nat.ofDigitChars_ten_toDigits

theorem toNarrow_digits (number : Nat) : toNarrow (digits number) = toString number := by
  apply toNarrow_ofNarrow
  intro char member
  rw [Nat.toString_eq_repr, Nat.toList_repr] at member
  have := isDigit_toUInt8 (Nat.isDigit_of_mem_toDigits (by decide) (by decide) member)
  omega

end ImapDialogue.Bytes
