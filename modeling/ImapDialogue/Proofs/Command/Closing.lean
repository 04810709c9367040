import ImapDialogue.Proofs.Command.Lines
import ImapDialogue.Proofs.Pattern.Fitting

/-!
What the answers to a command end with. A marker may hold line ends, and then a completion is no
single line, but what matches ends with a line feed all the same.
-/

namespace ImapDialogue

open Pattern

def Bytes.Fed (bytes : Bytes) : Prop := ∃ front, bytes = front ++ [Byte.lineFeed]

theorem Line.fed_of_first? {bytes line : Bytes} {length : Nat}
    (complete : first? bytes = some (line, length)) : Bytes.Fed (bytes.take length) := by
  obtain ⟨ending, rest, _, ends, rfl, rfl⟩ := line_of_first? complete
  rw [← List.append_assoc, ← List.length_append, List.take_left]
  cases ends with
  | lineFeed => exact ⟨line, rfl⟩
  | both => exact ⟨line ++ [Byte.carriageReturn], by rw [List.append_assoc]; rfl⟩

def Pattern.Closes (pattern : Pattern) : Prop :=
  ∀ cursor length, pattern.probe.lengthAt cursor = some length →
    Bytes.Fed (cursor.rest.take length)

/-- An expression that ends with the rest of a line matches up to a line feed. -/
theorem Pattern.closes_of_read {source : String} {flags : Flags} {items : List Regex}
    (cased : flags.ignoreCase = false)
    (reads : Regex.read source = some (Regex.concat (items ++ restOfLine))) :
    Closes (.expression source flags) := by
  intro cursor length matched
  rw [probe, Probe.lengthAt, reads, Option.getD_some, Regex.lengthAt, matcher_concat_append]
    at matched
  obtain ⟨behind, ⟨count, rfl⟩, later⟩ := (Regex.concat items).onward_matcher cursor _ length matched
  rw [matcher_restOfLine cased] at later
  obtain ⟨⟨line, size⟩, complete, same⟩ := Option.bind_eq_some_iff.mp later
  obtain ⟨front, fed⟩ := Line.fed_of_first? complete
  rw [Cursor.rest_advance] at fed
  have reach : length = min (count + size) cursor.rest.length := by
    rw [Cursor.advance_advance, Cursor.offset_advance, Nat.add_sub_cancel_left] at same
    exact (Option.some.inj same).symm
  refine ⟨cursor.rest.take count ++ front, ?_⟩
  rw [reach, ← List.take_eq_take_min, List.take_add, fed, List.append_assoc]

namespace Command

theorem Recognizes.closes {pattern : Pattern} {test : Bytes → Bool}
    (known : Recognizes pattern test) : Closes pattern := by
  intro cursor length matched
  rw [known.lengthAt] at matched
  obtain ⟨_, line, complete, _⟩ := Line.passed_eq_some matched
  exact Line.fed_of_first? complete

theorem closes_success (tag : Bytes) (marker : String) :
    Closes (success (Bytes.toNarrow tag) marker) := by
  let items : List Regex := .anchor .start :: (literalBytes (tag ++ Bytes.ofNarrow " OK") ++
    .anchor .boundary :: lineBytes :: literalBytes (Utf8.encode marker))
  have whole : wordLine (tag ++ Bytes.ofNarrow " OK") (restHolding (Utf8.encode marker)) =
      items ++ restOfLine := by
    simp only [items, wordLine, restHolding, List.cons_append, List.append_assoc]
  exact closes_of_read rfl (whole ▸ read_success tag marker)

theorem closes_greetings : ∀ pattern ∈ greetings, Closes pattern := by
  intro pattern member
  simp only [greetings, List.mem_cons, List.not_mem_nil, or_false] at member
  rcases member with rfl | rfl
  · exact recognizes_greeting.closes
  · exact recognizes_farewell.closes

theorem closes_answers (number : Nat) (marker : String) :
    ∀ pattern ∈ answers (toString number) marker, Closes pattern := by
  intro pattern member
  rw [← Bytes.toNarrow_digits] at member
  simp only [answers, List.mem_cons, List.not_mem_nil, or_false] at member
  rcases member with rfl | rfl | rfl
  · exact closes_success _ marker
  · exact (recognizes_refusal (plain_digits number)).closes
  · exact recognizes_farewell.closes

end Command

def Line.BeginsBehind (front : Bytes) : Prop := front.getLast?.all Byte.isLineEnd = true

theorem Command.Recognizes.line {pattern : Pattern} {test : Bytes → Bool}
    (known : Recognizes pattern test) {before text rest : Bytes}
    (matched : pattern.probe.lengthAt ⟨before.length, before.getLast?, text ++ rest⟩ =
      some text.length) :
    Line.BeginsBehind before ∧ ∃ line ending, Line.Plain line ∧ Line.Ending ending ∧
      text = line ++ ending ∧ test line = true := by
  rw [known.lengthAt] at matched
  obtain ⟨starts, line, complete, passes⟩ := Line.passed_eq_some matched
  rw [Cursor.startsLine_eq] at starts
  obtain ⟨ending, behind, plain, ends, parts, long⟩ := Line.line_of_first? complete
  refine ⟨starts, line, ending, plain, ends, ?_, passes⟩
  rw [← List.append_assoc] at parts
  exact (List.append_inj parts (long.trans List.length_append.symm)).1

end ImapDialogue
