import ImapDialogue.Wire.Bytes
import Mathlib.Data.List.Infix
import Mathlib.Tactic.Common

/-!
Beginnings of byte strings, and byte strings as narrow texts.
-/

namespace ImapDialogue

namespace Byte

theorem forall_of_numbers {holds : UInt8 → Prop}
    (all : ∀ number : Fin 256, holds (UInt8.ofNat number)) (byte : UInt8) : holds byte := by
  have here := all ⟨byte.toNat, byte.toNat_lt⟩
  rw [UInt8.ofNat_toNat] at here
  exact here

/-! ## Bytes of a kind -/

theorem ne_of_test {test : UInt8 → Bool} {byte other : UInt8} (passes : test byte = true)
    (fails : test other = false) : byte ≠ other := by
  rintro rfl
  rw [fails] at passes
  cases passes

theorem inLine_of_test {test : UInt8 → Bool} {byte : UInt8} (passes : test byte = true)
    (carriage : test carriageReturn = false) (feed : test lineFeed = false) :
    isLineEnd byte = false := by
  rw [isLineEnd, beq_eq_false_iff_ne.mpr (ne_of_test passes carriage),
    beq_eq_false_iff_ne.mpr (ne_of_test passes feed), Bool.or_false]

/-! ## Small letters -/

theorem isWord_small {byte : UInt8} (capital : (0x41 ≤ byte && byte ≤ 0x5A) = true) :
    isWord (byte + 0x20) = true := by
  simp only [Bool.and_eq_true, decide_eq_true_eq, UInt8.le_iff_toNat_le,
    UInt8.reduceToNat] at capital
  simp only [isWord, Bool.or_eq_true, Bool.and_eq_true, decide_eq_true_eq, UInt8.le_iff_toNat_le,
    UInt8.toNat_add, UInt8.reduceToNat]
  omega

/-- A byte that is no letter is told apart whatever the case of letters. -/
theorem lower_beq {other : UInt8} (marked : isWord other = false) (byte : UInt8) :
    (lower byte == other) = (byte == other) := by
  unfold lower
  split
  · next capital =>
      have word : isWord byte = true := by
        rw [isWord, capital, Bool.or_true, Bool.true_or, Bool.true_or]
      rw [beq_eq_false_iff_ne.mpr (ne_of_test (isWord_small capital) marked),
        beq_eq_false_iff_ne.mpr (ne_of_test word marked)]
  · rfl

theorem isLineEnd_lower (byte : UInt8) : isLineEnd (lower byte) = isLineEnd byte := by
  rw [isLineEnd, lower_beq rfl, lower_beq rfl]
  rfl

theorem lower_digit {byte : UInt8} (digit : isDigit byte = true) : lower byte = byte := by
  rw [lower, if_neg]
  intro capital
  simp only [isDigit, Bool.and_eq_true, decide_eq_true_eq, UInt8.le_iff_toNat_le,
    UInt8.reduceToNat] at digit capital
  omega

end Byte

namespace Bytes

/-- A fact of all bytes of some data, by a look at each of them. -/
theorem forall_of_all {bytes : Bytes} {holds : UInt8 → Prop} [DecidablePred holds]
    (each : (bytes.all fun byte => decide (holds byte)) = true) : ∀ byte ∈ bytes, holds byte := by
  intro byte member
  exact of_decide_eq_true (List.all_eq_true.mp each byte member)

theorem after?_append (beginning rest : Bytes) : after? beginning (beginning ++ rest) = some rest := by
  induction beginning with
  | nil => cases rest <;> rfl
  | cons byte beginning induction => simpa [after?] using induction

theorem append_of_after? {beginning bytes rest : Bytes} (found : after? beginning bytes = some rest) :
    bytes = beginning ++ rest := by
  induction beginning generalizing bytes with
  | nil =>
      simp only [after?, Option.some.injEq] at found
      simpa using found
  | cons byte beginning induction =>
      cases bytes with
      | nil => simp [after?] at found
      | cons other bytes =>
          simp only [after?] at found
          split at found
          · next same =>
              rw [induction found, beq_iff_eq.mp same, List.cons_append]
          · simp at found

theorem afterAnyCase?_eq_some_iff {beginning bytes rest : Bytes} :
    afterAnyCase? beginning bytes = some rest ↔
      ∃ word, bytes = word ++ rest ∧ word.map Byte.lower = beginning.map Byte.lower := by
  induction beginning generalizing bytes with
  | nil =>
      simp only [afterAnyCase?, Option.some.injEq, List.map_nil, List.map_eq_nil_iff]
      constructor
      · rintro rfl
        exact ⟨[], rfl, rfl⟩
      · rintro ⟨word, rfl, rfl⟩
        rfl
  | cons expected beginning induction =>
      cases bytes with
      | nil =>
          simp only [afterAnyCase?, reduceCtorEq, false_iff, not_exists, not_and]
          intro word parts same
          rw [(List.append_eq_nil_iff.mp parts.symm).1] at same
          cases same
      | cons byte bytes =>
          simp only [afterAnyCase?]
          constructor
          · intro found
            split at found
            · next same =>
                obtain ⟨word, rfl, spelled⟩ := induction.mp found
                refine ⟨byte :: word, rfl, ?_⟩
                rw [List.map_cons, List.map_cons, spelled, beq_iff_eq.mp same]
            · cases found
          · rintro ⟨word, parts, spelled⟩
            cases word with
            | nil => cases spelled
            | cons first word =>
                obtain ⟨rfl, rfl⟩ := List.cons.inj parts
                obtain ⟨same, others⟩ := List.cons.inj spelled
                rw [if_pos (beq_iff_eq.mpr same.symm)]
                exact induction.mpr ⟨word, rfl, others⟩

theorem toNat_narrow (byte : UInt8) : (Char.ofNat byte.toNat).toNat = byte.toNat := by
  have valid : byte.toNat.isValidChar := Or.inl (Nat.lt_trans byte.toNat_lt (by decide))
  rw [Char.ofNat, dif_pos valid]
  rfl

theorem toNarrow_ofNarrow {text : String} (narrow : ∀ char ∈ text.toList, char.toNat < 0x100) :
    toNarrow (ofNarrow text) = text := by
  have each : ∀ char ∈ text.toList, Char.ofNat char.toUInt8.toNat = char := by
    intro char member
    have value : char.toUInt8.toNat = char.toNat := by
      have := narrow char member
      simp only [Char.toUInt8, UInt32.toNat_toUInt8]
      exact Nat.mod_eq_of_lt this
    rw [value, Char.ofNat_toNat]
  simp only [toNarrow, ofNarrow, List.map_map, Function.comp_def]
  rw [List.map_congr_left each, List.map_id', String.ofList_toList]

end Bytes

end ImapDialogue
