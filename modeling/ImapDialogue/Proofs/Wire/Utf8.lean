import ImapDialogue.Proofs.Wire.Line
import ImapDialogue.Wire.Utf8

/-!
Texts as bytes and back. Bytes below 128 stand for themselves and appear nowhere else, so a text
without line ends has none in its bytes, and reading gives back every text that was written.
-/

namespace ImapDialogue.Utf8

/-! ## First bytes -/

theorem lead?_two : ∀ high : Fin 32, 2 ≤ high.val →
    lead? (UInt8.ofNat (high.val + 0xC0)) = some ⟨1, high.val, 0x80, 0xBF⟩ := by
  decide

theorem lead?_three : ∀ high : Fin 16, lead? (UInt8.ofNat (high.val + 0xE0)) =
    some ⟨2, high.val, if high.val = 0 then 0xA0 else 0x80,
      if high.val = 13 then 0x9F else 0xBF⟩ := by
  decide

theorem lead?_four : ∀ high : Fin 5, lead? (UInt8.ofNat (high.val + 0xF0)) =
    some ⟨3, high.val, if high.val = 0 then 0x90 else 0x80,
      if high.val = 4 then 0x8F else 0xBF⟩ := by
  decide

theorem toNat_ofNat {number : Nat} (small : number < 0x100) :
    (UInt8.ofNat number).toNat = number := UInt8.toNat_ofNat_of_lt' small

theorem not_ascii {number : Nat} (large : 0x80 ≤ number) (small : number < 0x100) :
    ¬UInt8.ofNat number < 0x80 := by
  rw [UInt8.lt_iff_toNat_lt, toNat_ofNat small]
  exact Nat.not_lt.mpr large

theorem decodeFrom_lead {number : Nat} {state : Lead} (large : 0x80 ≤ number)
    (small : number < 0x100) (leads : lead? (UInt8.ofNat number) = some state) (rest : Bytes) :
    decodeFrom none (UInt8.ofNat number :: rest) = decodeFrom (some state) rest := by
  rw [decodeFrom, if_neg (not_ascii large small), leads]

/-! ## Following bytes -/

theorem following_inside {value : Nat} {low high : UInt8} (small : value < 0x40)
    (above : low.toNat ≤ value + 0x80) (below : value + 0x80 ≤ high.toNat) :
    (low ≤ UInt8.ofNat (value + 0x80) && UInt8.ofNat (value + 0x80) ≤ high) = true := by
  simp only [Bool.and_eq_true, decide_eq_true_eq, UInt8.le_iff_toNat_le,
    toNat_ofNat (show value + 0x80 < 0x100 by omega)]
  exact ⟨above, below⟩

theorem following_bits {value : Nat} (small : value < 0x40) :
    (UInt8.ofNat (value + 0x80)).toNat % 0x40 = value := by
  rw [toNat_ofNat (by omega)]
  omega

theorem decodeFrom_last {value bits : Nat} {low high : UInt8} (small : value < 0x40)
    (above : low.toNat ≤ value + 0x80) (below : value + 0x80 ≤ high.toNat) (rest : Bytes) :
    decodeFrom (some ⟨1, bits, low, high⟩) (UInt8.ofNat (value + 0x80) :: rest) =
      Char.ofNat (bits * 0x40 + value) :: decodeFrom none rest := by
  rw [decodeFrom, if_pos (following_inside small above below), following_bits small]
  rfl

theorem decodeFrom_more {value bits count : Nat} {low high : UInt8} (small : value < 0x40)
    (above : low.toNat ≤ value + 0x80) (below : value + 0x80 ≤ high.toNat) (rest : Bytes) :
    decodeFrom (some ⟨count + 2, bits, low, high⟩) (UInt8.ofNat (value + 0x80) :: rest) =
      decodeFrom (some ⟨count + 1, bits * 0x40 + value, 0x80, 0xBF⟩) rest := by
  rw [decodeFrom, if_pos (following_inside small above below), following_bits small]
  simp

theorem decodeFrom_encodeChar (char : Char) (rest : Bytes) :
    decodeFrom none (String.utf8EncodeChar char ++ rest) = char :: decodeFrom none rest := by
  have back : Char.ofNat char.toNat = char := Char.ofNat_toNat char
  have valid : char.toNat < 0xD800 ∨ 0xDFFF < char.toNat ∧ char.toNat < 0x110000 := char.valid
  generalize value_eq : char.toNat = value at back valid
  have value_eq' : char.val.toNat = value := value_eq
  simp only [String.utf8EncodeChar, value_eq']
  by_cases one : value ≤ 0x7F
  · rw [if_pos one]
    have small : UInt8.ofNat value < 0x80 := by
      rw [UInt8.lt_iff_toNat_lt, toNat_ofNat (by omega)]
      exact Nat.lt_succ_of_le one
    rw [List.singleton_append, decodeFrom, if_pos small, toNat_ofNat (by omega), back]
  · rw [if_neg one]
    by_cases two : value ≤ 0x7FF
    · rw [if_pos two]
      have leads := lead?_two ⟨value / 64 % 32, Nat.mod_lt _ (by decide)⟩ (by
        simp only
        omega)
      have bits : value / 64 % 32 * 0x40 + value % 64 = value := by omega
      rw [List.cons_append, decodeFrom_lead (by omega) (by omega) leads, List.singleton_append,
        decodeFrom_last (Nat.mod_lt _ (by decide)) (Nat.le_add_left _ _)
          (show value % 64 + 0x80 ≤ 0xBF by omega), bits, back]
    · rw [if_neg two]
      by_cases three : value ≤ 0xFFFF
      · rw [if_pos three]
        have leads := lead?_three ⟨value / 4096 % 16, Nat.mod_lt _ (by decide)⟩
        have low : (if value / 4096 % 16 = 0 then (0xA0 : UInt8) else 0x80).toNat ≤
            value / 64 % 64 + 0x80 := by
          split
          · show 0xA0 ≤ _
            omega
          · show 0x80 ≤ _
            omega
        have high : value / 64 % 64 + 0x80 ≤
            (if value / 4096 % 16 = 13 then (0x9F : UInt8) else 0xBF).toNat := by
          split
          · show _ ≤ 0x9F
            omega
          · show _ ≤ 0xBF
            omega
        have bits : (value / 4096 % 16 * 0x40 + value / 64 % 64) * 0x40 + value % 64 = value := by
          omega
        rw [List.cons_append, decodeFrom_lead (by omega) (by omega) leads, List.cons_append,
          decodeFrom_more (Nat.mod_lt _ (by decide)) low high, List.singleton_append,
          decodeFrom_last (Nat.mod_lt _ (by decide)) (Nat.le_add_left _ _)
            (show value % 64 + 0x80 ≤ 0xBF by omega), bits, back]
      · rw [if_neg three]
        have small : value / 262144 % 8 < 5 := by omega
        have leads := lead?_four ⟨value / 262144 % 8, small⟩
        have low : (if value / 262144 % 8 = 0 then (0x90 : UInt8) else 0x80).toNat ≤
            value / 4096 % 64 + 0x80 := by
          split
          · show 0x90 ≤ _
            omega
          · show 0x80 ≤ _
            omega
        have high : value / 4096 % 64 + 0x80 ≤
            (if value / 262144 % 8 = 4 then (0x8F : UInt8) else 0xBF).toNat := by
          split
          · show _ ≤ 0x8F
            omega
          · show _ ≤ 0xBF
            omega
        have bits : ((value / 262144 % 8 * 0x40 + value / 4096 % 64) * 0x40 +
            value / 64 % 64) * 0x40 + value % 64 = value := by
          omega
        rw [List.cons_append, decodeFrom_lead (by omega) (by omega) leads, List.cons_append,
          decodeFrom_more (Nat.mod_lt _ (by decide)) low high, List.cons_append,
          decodeFrom_more (Nat.mod_lt _ (by decide)) (Nat.le_add_left _ _)
            (show value / 64 % 64 + 0x80 ≤ 0xBF by omega), List.singleton_append,
          decodeFrom_last (Nat.mod_lt _ (by decide)) (Nat.le_add_left _ _)
            (show value % 64 + 0x80 ≤ 0xBF by omega), bits, back]

theorem decode_encode (text : String) : decode (encode text) = text := by
  have chars : ∀ list : List Char,
      decodeFrom none (list.flatMap String.utf8EncodeChar) = list := by
    intro list
    induction list with
    | nil => rfl
    | cons char list induction => rw [List.flatMap_cons, decodeFrom_encodeChar, induction]
  rw [decode, encode, chars, String.ofList_toList]

/-! ## Bytes of ASCII -/

theorem ascii_of_mem_encodeChar {char : Char} {byte : UInt8}
    (member : byte ∈ String.utf8EncodeChar char) :
    (byte.toNat = char.toNat ∧ char.toNat < 0x80) ∨ 0x80 ≤ byte.toNat := by
  have value : char.val.toNat = char.toNat := rfl
  simp only [String.utf8EncodeChar, value] at member
  split at member
  · next one =>
      left
      rw [List.mem_singleton.mp member, toNat_ofNat (by omega)]
      exact ⟨rfl, Nat.lt_succ_of_le one⟩
  · right
    have large : ∀ {number : Nat}, 0x80 ≤ number → number < 0x100 →
        0x80 ≤ (UInt8.ofNat number).toNat := by
      intro number low high
      rw [toNat_ofNat high]
      exact low
    split at member
    · simp only [List.mem_cons, List.not_mem_nil, or_false] at member
      rcases member with rfl | rfl <;> exact large (by omega) (by omega)
    · split at member
      · simp only [List.mem_cons, List.not_mem_nil, or_false] at member
        rcases member with rfl | rfl | rfl <;> exact large (by omega) (by omega)
      · simp only [List.mem_cons, List.not_mem_nil, or_false] at member
        rcases member with rfl | rfl | rfl | rfl <;> exact large (by omega) (by omega)

theorem ascii_of_mem_encode {text : String} {byte : UInt8} (member : byte ∈ encode text) :
    (∃ char ∈ text.toList, byte.toNat = char.toNat ∧ char.toNat < 0x80) ∨ 0x80 ≤ byte.toNat := by
  rw [encode, List.mem_flatMap] at member
  obtain ⟨char, inText, inChar⟩ := member
  rcases ascii_of_mem_encodeChar inChar with same | large
  · exact Or.inl ⟨char, inText, same⟩
  · exact Or.inr large

/-- A text without a carriage return and a line feed. -/
def Unbroken (text : String) : Prop := '\r' ∉ text.toList ∧ '\n' ∉ text.toList

instance (text : String) : Decidable (Unbroken text) := inferInstanceAs (Decidable (_ ∧ _))

/-- A text that is not broken into lines has no line end among its bytes. -/
theorem plain_encode {text : String} (unbroken : Unbroken text) : Line.Plain (encode text) := by
  intro byte member
  rcases ascii_of_mem_encode member with ⟨char, inText, same, _⟩ | large
  · rw [Byte.isLineEnd, Bool.or_eq_false_iff, beq_eq_false_iff_ne, beq_eq_false_iff_ne]
    constructor
    · rintro rfl
      have : char = '\r' := Char.toNat_inj.mp same.symm
      exact unbroken.1 (this ▸ inText)
    · rintro rfl
      have : char = '\n' := Char.toNat_inj.mp same.symm
      exact unbroken.2 (this ▸ inText)
  · rw [Byte.isLineEnd, Bool.or_eq_false_iff, beq_eq_false_iff_ne, beq_eq_false_iff_ne]
    constructor <;> rintro rfl <;> exact absurd large (by decide)

end ImapDialogue.Utf8
