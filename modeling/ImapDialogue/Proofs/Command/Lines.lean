import ImapDialogue.Command.Argument
import ImapDialogue.Proofs.Pattern.Matching
import ImapDialogue.Proofs.Pattern.Reading
import ImapDialogue.Proofs.Search
import ImapDialogue.Proofs.Wire.Digits

/-!
The lines a client waits for, as tests of what stands in a line. Each pattern of a command or of
a greeting matches the complete lines that pass its test, and nothing else.
-/

namespace ImapDialogue.Command

open Pattern Pattern.Grammar

def completes (tag marker line : Bytes) : Bool :=
  (Line.behind? (tag ++ Bytes.ofNarrow " OK") line).any fun tail => marker <:+: tail

def refuses (tag line : Bytes) : Bool :=
  (Line.behind? (tag ++ Bytes.ofNarrow " NO") line).isSome ||
    (Line.behind? (tag ++ Bytes.ofNarrow " BAD") line).isSome

def parts (line : Bytes) : Bool := (Line.behind? (Bytes.ofNarrow "* BYE") line).isSome

def greets (line : Bytes) : Bool :=
  (Line.behind? (Bytes.ofNarrow "* OK") line).isSome ||
    (Line.behind? (Bytes.ofNarrow "* PREAUTH") line).isSome

/-- The number of the answer that a line gives to the command with a tag. -/
def answer? (tag marker line : Bytes) : Option Nat :=
  if completes tag marker line then some 0
  else if refuses tag line then some 1
  else if parts line then some 2
  else none

theorem completes_of_answer {tag marker line : Bytes} (answers : answer? tag marker line = some 0) :
    completes tag marker line = true := by
  unfold answer? at answers
  split at answers
  · assumption
  · split at answers
    · cases answers
    · split at answers <;> cases answers

theorem refuses_of_answer {tag marker line : Bytes} {index : Nat}
    (answers : answer? tag marker line = some index) (other : index ≠ 0) :
    (refuses tag line || parts line) = true := by
  unfold answer? at answers
  split at answers
  · cases answers
    exact absurd rfl other
  · split at answers
    · next refused => rw [refused, Bool.true_or]
    · split at answers
      · next parted => rw [parted, Bool.or_true]
      · cases answers

def greeting? (line : Bytes) : Option Nat :=
  if greets line then some 0 else if parts line then some 1 else none

/-! ## The expressions -/

def endTokens : List Token :=
  [.atom (.literal 0x0D), .repetition 0 (some 1) true, .atom (.literal 0x0A)]

def restTokens : List Token :=
  .atom (.unit lineByte) :: .repetition 0 none true :: endTokens

def byteTokens (bytes : Bytes) : List Token := literals (bytes.map UInt8.toNat)

theorem units_narrow (bytes : Bytes) :
    (Bytes.toNarrow bytes).toList.flatMap units = bytes.map UInt8.toNat := by
  have each : ∀ byte : UInt8, units (Char.ofNat byte.toNat) = [byte.toNat] := by
    intro byte
    have := byte.toNat_lt
    rw [units, Bytes.toNat_narrow, if_pos (by omega)]
  rw [Bytes.toNarrow, String.toList_ofList, List.flatMap_map, List.map_eq_flatMap]
  simp only [each]

theorem spells_spelled (bytes : Bytes) {groups : Nat} {rest : List Char} {others : List Token}
    (later : Spells groups rest others) :
    Spells groups ((spelled (Bytes.toNarrow bytes)).toList ++ rest)
      (byteTokens bytes ++ others) := by
  have whole := spells_spell (Bytes.toNarrow bytes).toList later
  rw [units_narrow] at whole
  rw [spelled, String.toList_ofList]
  exact whole

def byteSource : List Char := ['[', '^', '\\', 'r', '\\', 'n', ']']

def endSource : List Char := ['\\', 'r', '?', '\\', 'n']

def restSource : List Char := byteSource ++ '*' :: endSource

theorem spells_end (groups : Nat) : Spells groups endSource endTokens := by
  apply spells_token rfl (by decide)
  apply spells_token rfl (by decide)
  apply spells_token rfl (by decide)
  exact spells_nil

theorem spells_rest (groups : Nat) : Spells groups restSource restTokens := by
  apply spells_token rfl (by decide)
  apply spells_token rfl (by decide)
  exact spells_end groups

/-- A spelled text never turns a repetition in front of it into a sparing one. -/
theorem greediness_spelled (bytes : Bytes) (rest : List Char) :
    greediness ((spelled (Bytes.toNarrow bytes)).toList ++ '[' :: rest) =
      (true, (spelled (Bytes.toNarrow bytes)).toList ++ '[' :: rest) := by
  rw [spelled, String.toList_ofList]
  cases (Bytes.toNarrow bytes).toList with
  | nil => rfl
  | cons char chars =>
      cases special : isSpecial char with
      | true => simp [spell, special, greediness]
      | false =>
          have other : char ≠ '?' := by
            rintro rfl
            exact absurd special (by decide)
          simp [spell, special, greediness, other]

theorem spells_run {groups : Nat} {rest : List Char} {others : List Token}
    (greedy : greediness rest = (true, rest)) (later : Spells groups rest others) :
    Spells groups ('\\' :: 'b' :: (byteSource ++ '*' :: rest))
      (.atom (.anchor .boundary) :: .atom (.unit lineByte) :: .repetition 0 none true ::
        others) := by
  apply spells_token rfl (Nat.le_succ _)
  apply spells_token rfl (by simp)
  exact spells_repetition greedy later

theorem build_bytes (bytes : Bytes) (rest : List Token) (frame : Frame) (outer : List Frame) :
    build (byteTokens bytes ++ rest) frame outer =
      build rest { frame with items := (literalBytes bytes).reverse ++ frame.items } outer := by
  have atoms : byteTokens bytes = (literalBytes bytes).map .atom := by
    rw [byteTokens, literals_eq_map, literalBytes, List.map_map, List.map_map, List.map_map]
    rfl
  rw [atoms, build_atoms]

theorem build_run (rest : List Token) (frame : Frame) (outer : List Frame) :
    build (.atom (.anchor .boundary) :: .atom (.unit lineByte) :: .repetition 0 none true :: rest)
        frame outer =
      build rest { frame with items := lineBytes :: .anchor .boundary :: frame.items } outer :=
  rfl

theorem build_end (items : List Regex) :
    build endTokens ⟨[], items⟩ [] = some (Regex.concat (items.reverse ++ lineEnd)) := by
  have built : build endTokens ⟨[], items⟩ [] =
      some (Frame.regex ⟨[], lineEnd.reverse ++ items⟩) := rfl
  rw [built, Frame.regex, List.reverse_append, List.reverse_reverse]
  rfl

theorem build_rest (items : List Regex) :
    build restTokens ⟨[], items⟩ [] = some (Regex.concat (items.reverse ++ restOfLine)) := by
  have built : build restTokens ⟨[], items⟩ [] = build endTokens ⟨[], lineBytes :: items⟩ [] := rfl
  rw [built, build_end, List.reverse_cons, List.append_assoc]
  rfl

theorem read_success (tag : Bytes) (marker : String) :
    Regex.read ("^" ++ spelled (Bytes.toNarrow tag) ++ " OK\\b[^\\r\\n]*" ++
        spelled (wireText marker) ++ "[^\\r\\n]*\\r?\\n") =
      some (Regex.concat (wordLine (tag ++ Bytes.ofNarrow " OK")
        (restHolding (Utf8.encode marker)))) := by
  have source : ("^" ++ spelled (Bytes.toNarrow tag) ++ " OK\\b[^\\r\\n]*" ++
        spelled (wireText marker) ++ "[^\\r\\n]*\\r?\\n").toList =
      '^' :: ((spelled (Bytes.toNarrow tag)).toList ++ (spell [' ', 'O', 'K'] ++
        ('\\' :: 'b' :: (byteSource ++
          '*' :: ((spelled (wireText marker)).toList ++ restSource))))) := by
    simp [restSource, byteSource, endSource, spell, isSpecial]
  apply read_of_spells
  · intro groups
    rw [source]
    have tail := spells_spelled (Utf8.encode marker) (spells_rest groups)
    have run := spells_run (greediness_spelled (Utf8.encode marker) restSource.tail) tail
    have word := spells_spelled tag (spells_spell [' ', 'O', 'K'] run)
    exact spells_token rfl (Nat.le_refl _) word
  · have spelled : literals ([' ', 'O', 'K'].flatMap units) = byteTokens (Bytes.ofNarrow " OK") :=
      rfl
    rw [spelled, build, build_bytes, build_bytes, build_run, build_bytes]
    simp only [Frame.push, Frame.start]
    rw [build_rest]
    simp [wordLine, restHolding, literalBytes]

theorem read_refusal (tag : Bytes) :
    Regex.read ("^" ++ spelled (Bytes.toNarrow tag) ++ " (NO|BAD)\\b[^\\r\\n]*\\r?\\n") =
      some (Regex.concat (eitherLine (tag ++ Bytes.ofNarrow " ") (Bytes.ofNarrow "NO")
        (Bytes.ofNarrow "BAD") restOfLine)) := by
  have source : ("^" ++ spelled (Bytes.toNarrow tag) ++
        " (NO|BAD)\\b[^\\r\\n]*\\r?\\n").toList =
      '^' :: ((spelled (Bytes.toNarrow tag)).toList ++ (' ' :: '(' :: 'N' :: 'O' :: '|' :: 'B' ::
        'A' :: 'D' :: ')' :: '\\' :: 'b' :: (byteSource ++
          '*' :: endSource))) := by
    simp [byteSource, endSource]
  apply read_of_spells
  · intro groups
    rw [source]
    apply spells_token rfl (Nat.le_refl _)
    apply spells_spelled
    apply spells_token rfl (Nat.le_refl _)
    apply spells_token rfl (Nat.le_refl _)
    apply spells_token rfl (Nat.le_refl _)
    apply spells_token rfl (Nat.le_refl _)
    apply spells_token rfl (Nat.le_refl _)
    apply spells_token rfl (Nat.le_refl _)
    apply spells_token rfl (Nat.le_refl _)
    apply spells_token rfl (Nat.le_refl _)
    apply spells_token rfl (Nat.le_refl _)
    exact spells_run rfl (spells_end groups)
  · rw [build, build_bytes]
    simp only [build, Frame.push, Frame.start, Frame.bar, Frame.regex]
    rw [build_end]
    simp only [eitherLine, literalBytes, List.map_append, List.reverse_cons, List.reverse_append,
      List.reverse_reverse, List.append_assoc]
    rfl

theorem read_farewell :
    Regex.read "^\\* BYE\\b[^\\r\\n]*\\r?\\n" =
      some (Regex.concat (wordLine (Bytes.ofNarrow "* BYE") restOfLine)) := by
  decide +kernel

theorem read_greeting :
    Regex.read "^\\* (OK|PREAUTH)\\b[^\\r\\n]*\\r?\\n" =
      some (Regex.concat (eitherLine (Bytes.ofNarrow "* ") (Bytes.ofNarrow "OK")
        (Bytes.ofNarrow "PREAUTH") restOfLine)) := by
  decide +kernel

/-! ## What the patterns match -/

/-- A pattern that matches the complete lines that pass a test, and nothing else. An empty line
does not pass. -/
structure Recognizes (pattern : Pattern) (test : Bytes → Bool) : Prop where
  lengthAt : ∀ cursor, pattern.probe.lengthAt cursor = Line.passed test cursor
  silent : test [] = false

theorem matcher_word {α : Type} {word : Bytes} (plain : Line.Plain word)
    (closes : word.getLast?.any Byte.isWord = true) (cursor : Cursor)
    (next : Cursor → Option α) :
    (Regex.concat (wordLine word restOfLine)).matcher flags cursor next =
      (Line.passed (fun line => (Line.behind? word line).isSome) cursor).bind fun length =>
        next (cursor.advance length) := by
  have judges : ∀ (cursor : Cursor) (next : Cursor → Option α),
      (Regex.concat restOfLine).matcher flags cursor next =
        (Line.first? cursor.rest).bind fun found =>
          if true then next (cursor.advance found.2) else none := by
    intro cursor next
    simpa using matcher_restOfLine rfl cursor next
  have any : ∀ tail : Option Bytes, tail.any (fun _ => true) = tail.isSome := by
    intro tail
    cases tail <;> rfl
  have whole := matcher_wordLine rfl rfl plain closes restOfLine (fun _ => true) judges cursor next
  simpa only [any] using whole

def numbered : Nat → List (Bytes → Bool) → Bytes → Option Nat
  | _, [], _ => none
  | index, test :: tests, line =>
      if test line then some index else numbered (index + 1) tests line

theorem Recognizes.compact {pattern : Pattern} {test : Bytes → Bool}
    (known : Recognizes pattern test) : Search.Compact pattern.probe where
  fits := by
    intro cursor length found
    rw [known.lengthAt] at found
    obtain ⟨_, line, complete, _⟩ := Line.passed_eq_some found
    exact (Line.length_first? complete).2.2
  alone := by
    intro cursor length found step positive inner
    rw [known.lengthAt] at found ⊢
    obtain ⟨_, line, complete, _⟩ := Line.passed_eq_some found
    have bounds := Line.length_first? complete
    apply Line.passed_inside known.silent found positive
    cases probe : pattern.probe <;> simp only [probe, Probe.stride] at inner <;> omega

theorem walks_of_recognizes {patterns : List Pattern} {tests : List (Bytes → Bool)}
    (known : List.Forall₂ Recognizes patterns tests) (barred : Nat → Bool) :
    ∀ pattern ∈ patterns, Search.Walks pattern.probe barred := by
  induction known with
  | nil => simp
  | cons one others induction =>
      intro pattern member
      rcases List.mem_cons.mp member with rfl | later
      · exact Search.locate_eq_leftmost one.compact barred
      · exact induction pattern later

theorem choice_of_recognizes {patterns : List Pattern} {tests : List (Bytes → Bool)}
    (known : List.Forall₂ Recognizes patterns tests) (index : Nat) (cursor : Cursor) :
    Search.choice index patterns cursor = Line.judged (numbered index tests) cursor := by
  induction known generalizing index with
  | nil =>
      unfold Line.judged Search.choice numbered
      cases Line.first? cursor.rest <;> simp
  | cons one others induction =>
      rw [Search.choice, induction, one.lengthAt, Line.judged_cons]
      rfl

theorem recognizes_success {tag : Bytes} {marker : String} (plain : Line.Plain tag)
    (plain' : Line.Plain (Utf8.encode marker)) :
    Recognizes (success (Bytes.toNarrow tag) marker) (completes tag (Utf8.encode marker)) where
  silent := by cases tag <;> rfl
  lengthAt := by
    intro cursor
    rw [success, probe, Probe.lengthAt, read_success, Option.getD_some]
    apply lengthAt_of_matcher
    intro next
    have judges : ∀ (cursor : Cursor) (next : Cursor → Option Nat),
        (Regex.concat (restHolding (Utf8.encode marker))).matcher flags cursor next =
          (Line.first? cursor.rest).bind fun found =>
            if decide (Utf8.encode marker <:+: found.1) then next (cursor.advance found.2)
            else none := by
      intro cursor next
      simpa using matcher_restHolding rfl plain' cursor next
    have closes : (tag ++ Bytes.ofNarrow " OK").getLast?.any Byte.isWord = true := by
      rw [show Bytes.ofNarrow " OK" = [0x20, 0x4F] ++ [0x4B] from rfl, ← List.append_assoc,
        List.getLast?_concat]
      rfl
    exact matcher_wordLine rfl rfl (Line.plain_append plain (by decide)) closes _ _ judges cursor next

theorem lengthAt_eitherLine {word first second : Bytes} (plain : Line.Plain (word ++ first))
    (plain' : Line.Plain (word ++ second))
    (closes : (word ++ first).getLast?.any Byte.isWord = true)
    (closes' : (word ++ second).getLast?.any Byte.isWord = true) (cursor : Cursor) :
    (Regex.concat (eitherLine word first second restOfLine)).lengthAt flags cursor =
      Line.passed (fun line => (Line.behind? (word ++ first) line).isSome ||
        (Line.behind? (word ++ second) line).isSome) cursor := by
  apply lengthAt_of_matcher
  intro next
  rw [matcher_eitherLine rfl, matcher_word plain closes, matcher_word plain' closes',
    Line.passed_or_bind]

theorem recognizes_refusal {tag : Bytes} (plain : Line.Plain tag) :
    Recognizes (refusal (Bytes.toNarrow tag)) (refuses tag) where
  silent := by cases tag <;> rfl
  lengthAt := by
    intro cursor
    rw [refusal, probe, Probe.lengthAt, read_refusal, Option.getD_some]
    have word : ∀ {end' : Bytes}, Line.Plain end' → Line.Plain (tag ++ Bytes.ofNarrow " " ++ end') :=
      fun plain' => Line.plain_append (Line.plain_append plain (by decide)) plain'
    rw [lengthAt_eitherLine (word (by decide)) (word (by decide))]
    · simp only [List.append_assoc]
      rfl
    · rw [show Bytes.ofNarrow "NO" = [0x4E] ++ [0x4F] from rfl, ← List.append_assoc,
        List.getLast?_concat]
      rfl
    · rw [show Bytes.ofNarrow "BAD" = [0x42, 0x41] ++ [0x44] from rfl, ← List.append_assoc,
        List.getLast?_concat]
      rfl

theorem recognizes_farewell : Recognizes farewell parts where
  silent := rfl
  lengthAt := by
    intro cursor
    rw [farewell, probe, Probe.lengthAt, read_farewell, Option.getD_some]
    apply lengthAt_of_matcher
    intro next
    exact matcher_word (by decide) rfl cursor next

theorem recognizes_greeting : Recognizes greeting greets where
  silent := rfl
  lengthAt := by
    intro cursor
    rw [greeting, probe, Probe.lengthAt, read_greeting, Option.getD_some]
    exact lengthAt_eitherLine (by decide) (by decide) rfl rfl cursor

theorem recognizes_answers {tag : Bytes} {marker : String} (plain : Line.Plain tag)
    (plain' : Line.Plain (Utf8.encode marker)) :
    List.Forall₂ Recognizes (answers (Bytes.toNarrow tag) marker)
      [completes tag (Utf8.encode marker), refuses tag, parts] :=
  .cons (recognizes_success plain plain')
    (.cons (recognizes_refusal plain) (.cons recognizes_farewell .nil))

theorem recognizes_greetings : List.Forall₂ Recognizes greetings [greets, parts] :=
  .cons recognizes_greeting (.cons recognizes_farewell .nil)

theorem numbered_answers (tag marker : Bytes) :
    numbered 0 [completes tag marker, refuses tag, parts] = answer? tag marker := rfl

theorem plain_digits (number : Nat) : Line.Plain (Bytes.digits number) := by
  intro byte member
  have digit := Bytes.isDigit_of_mem_digits member
  rw [Byte.isLineEnd, Bool.or_eq_false_iff, beq_eq_false_iff_ne, beq_eq_false_iff_ne]
  constructor
  · rintro rfl
    exact absurd digit (by decide)
  · rintro rfl
    exact absurd digit (by decide)

theorem recognizes_tagged (number : Nat) {marker : String}
    (plain : Line.Plain (Utf8.encode marker)) :
    List.Forall₂ Recognizes (answers (toString number) marker)
      [completes (Bytes.digits number) (Utf8.encode marker), refuses (Bytes.digits number),
        parts] := by
  rw [← Bytes.toNarrow_digits]
  exact recognizes_answers (plain_digits number) plain

end ImapDialogue.Command
