import ImapDialogue.Proofs.Wire.Bytes
import ImapDialogue.Proofs.Wire.Cursor
import ImapDialogue.Proofs.Wire.Line
import ImapDialogue.Response.Scan

/-!
Where a response begins: at the start of a line that begins with a star, a number and the word
for fetched data. An opening holds no line end, so no other one begins inside it.
-/

namespace ImapDialogue.Response

/-- The opening of a response: a star, the digits of its number, and the word behind them in
letters of any case, the parenthesis included. -/
structure Opening where
  digits : Bytes
  word : Bytes
  filled : digits ≠ []
  numeric : ∀ byte ∈ digits, Byte.isDigit byte = true
  spelled : word.map Byte.lower = keyword.map Byte.lower

namespace Opening

def bytes (opening : Opening) : Bytes :=
  Byte.star :: Byte.space :: (opening.digits ++ opening.word)

def sequence (opening : Opening) : Number := .ofNat (Bytes.decimal opening.digits)

theorem length_word (opening : Opening) : opening.word.length = keyword.length := by
  have same := congrArg List.length opening.spelled
  rwa [List.length_map, List.length_map] at same

theorem spaced (opening : Opening) : ∃ others, opening.word = Byte.space :: others := by
  have spelled := opening.spelled
  cases word : opening.word with
  | nil => rw [word] at spelled; cases spelled
  | cons byte others =>
      rw [word] at spelled
      have first : (Byte.lower byte == Byte.space) = true :=
        beq_iff_eq.mpr (List.cons.inj spelled).1
      rw [Byte.lower_beq rfl, beq_iff_eq] at first
      exact ⟨others, by rw [first]⟩

theorem plain (opening : Opening) : Line.Plain opening.bytes := by
  have word : ∀ byte ∈ keyword.map Byte.lower, Byte.isLineEnd byte = false :=
    Bytes.forall_of_all (by decide)
  intro byte member
  simp only [bytes, List.mem_cons, List.mem_append] at member
  rcases member with rfl | rfl | inDigits | inWord
  · rfl
  · rfl
  · exact Byte.inLine_of_test (opening.numeric byte inDigits) rfl rfl
  · rw [← Byte.isLineEnd_lower]
    apply word
    rw [← opening.spelled]
    exact List.mem_map_of_mem inWord

theorem inside_lines (opening : Opening) {bytes more : Bytes} (filled : bytes ≠ [])
    (whole : bytes.getLast?.all Byte.isLineEnd = true) (begins : opening.bytes <+: bytes ++ more) :
    opening.bytes <+: bytes := by
  rcases Nat.le_total opening.bytes.length bytes.length with short | long
  · exact List.prefix_of_prefix_length_le begins (List.prefix_append _ _) short
  · have inside := List.prefix_of_prefix_length_le (List.prefix_append _ _) begins long
    have last := opening.plain _ (inside.subset (List.getLast_mem filled))
    rw [List.getLast?_eq_some_getLast filled, Option.all_some, last] at whole
    cases whole

end Opening

theorem opening?_eq_some_iff {cursor : Cursor} {sequence : Number} {length : Nat} :
    opening? cursor = some (sequence, length) ↔
      cursor.startsLine = true ∧ ∃ opening : Opening, opening.bytes <+: cursor.rest ∧
        opening.sequence = sequence ∧ opening.bytes.length = length := by
  constructor
  · intro found
    unfold opening? at found
    split at found
    · next starts =>
        refine ⟨starts, ?_⟩
        split at found
        · next rest full =>
            dsimp only at found
            split at found
            · cases found
            · next filled =>
                obtain ⟨behind, after, same⟩ := Option.map_eq_some_iff.mp found
                obtain ⟨rfl, rfl⟩ := Prod.mk.inj same
                obtain ⟨word, parts, spelled⟩ := Bytes.afterAnyCase?_eq_some_iff.mp after
                let opening : Opening := ⟨rest.takeWhile Byte.isDigit, word, by simpa using filled,
                  fun byte member => List.mem_takeWhile_imp member, spelled⟩
                refine ⟨opening, ⟨behind, ?_⟩, rfl, ?_⟩
                · have whole := List.takeWhile_append_dropWhile (p := Byte.isDigit) (l := rest)
                  rw [full, ← whole, parts]
                  simp only [Opening.bytes, List.cons_append, List.append_assoc]
                  rfl
                · have digits : opening.digits = rest.takeWhile Byte.isDigit := rfl
                  rw [Opening.bytes, List.length_cons, List.length_cons, List.length_append,
                    opening.length_word, digits]
                  omega
        · cases found
    · cases found
  · rintro ⟨starts, opening, ⟨behind, parts⟩, rfl, rfl⟩
    obtain ⟨others, spaced⟩ := opening.spaced
    have full : cursor.rest = 0x2A :: 0x20 :: (opening.digits ++ (opening.word ++ behind)) := by
      rw [← parts]
      simp only [Opening.bytes, List.cons_append, List.append_assoc]
      rfl
    have ended : (opening.word ++ behind).takeWhile Byte.isDigit = [] := by
      rw [spaced]
      rfl
    have kept : (opening.word ++ behind).dropWhile Byte.isDigit = opening.word ++ behind := by
      rw [spaced]
      rfl
    have taken : (opening.digits ++ (opening.word ++ behind)).takeWhile Byte.isDigit =
        opening.digits := by
      rw [List.takeWhile_append_of_pos opening.numeric, ended, List.append_nil]
    have dropped : (opening.digits ++ (opening.word ++ behind)).dropWhile Byte.isDigit =
        opening.word ++ behind := by
      rw [List.dropWhile_append_of_pos opening.numeric, kept]
    have filled : opening.digits.isEmpty = false := by simpa using opening.filled
    have after : Bytes.afterAnyCase? keyword (opening.word ++ behind) = some behind :=
      Bytes.afterAnyCase?_eq_some_iff.mpr ⟨opening.word, rfl, opening.spelled⟩
    have length : opening.bytes.length = 2 + opening.digits.length + keyword.length := by
      rw [Opening.bytes, List.length_cons, List.length_cons, List.length_append,
        opening.length_word]
      omega
    rw [opening?, if_pos starts, full]
    simp only [taken, dropped, filled, after, Bool.false_eq_true, if_false, Option.map_some, length]
    rfl

/-! ## Openings in a text -/

structure Opening.StandsAt (opening : Opening) (text : Bytes) (offset : Nat) : Prop where
  line : (text.take offset).getLast?.all Byte.isLineEnd = true
  begins : opening.bytes <+: text.drop offset

namespace Opening.StandsAt

variable {opening other : Opening} {text : Bytes} {offset offset' : Nat}

theorem within (stands : opening.StandsAt text offset) :
    offset + opening.bytes.length ≤ text.length := by
  have long := stands.begins.length_le
  have filled : 0 < opening.bytes.length := Nat.succ_pos _
  rw [List.length_drop] at long
  omega

theorem found (stands : opening.StandsAt text offset) :
    opening? ((Cursor.start text).advance offset) =
      some (opening.sequence, opening.bytes.length) := by
  have within := stands.within
  rw [opening?_eq_some_iff, Cursor.startsLine_eq, Cursor.start_advance (by omega)]
  exact ⟨stands.line, opening, stands.begins, rfl, rfl⟩

theorem of_found {sequence : Number} {length : Nat} (inside : offset ≤ text.length)
    (found : opening? ((Cursor.start text).advance offset) = some (sequence, length)) :
    ∃ opening : Opening, opening.StandsAt text offset ∧ opening.sequence = sequence ∧
      opening.bytes.length = length := by
  rw [opening?_eq_some_iff, Cursor.startsLine_eq, Cursor.start_advance inside] at found
  obtain ⟨line, opening, begins, same⟩ := found
  exact ⟨opening, ⟨line, begins⟩, same⟩

/-- No other opening stands inside one, for it would stand behind a line end. -/
theorem alone (stands : opening.StandsAt text offset) (stands' : other.StandsAt text offset')
    (behind : offset < offset') : offset + opening.bytes.length ≤ offset' := by
  by_contra inside
  obtain ⟨count, rfl⟩ := Nat.exists_eq_add_of_lt behind
  obtain ⟨more, parts⟩ := stands.begins
  have data : text.take (offset + count + 1) =
      text.take offset ++ opening.bytes.take (count + 1) := by
    rw [Nat.add_assoc, List.take_add, ← parts, List.take_append_of_le_length (by omega)]
  have filled : opening.bytes.take (count + 1) ≠ [] := List.cons_ne_nil _ _
  have line := stands'.line
  rw [data, List.getLast?_append_of_ne_nil _ filled, List.getLast?_eq_some_getLast filled,
    Option.all_some, opening.plain _ (List.take_subset _ _ (List.getLast_mem filled))] at line
  cases line

end Opening.StandsAt

end ImapDialogue.Response
