import ImapDialogue.Pattern.Basic
import ImapDialogue.Proofs.Wire.Line

/-!
Matching of the pieces that line patterns are made of: given bytes, a run of bytes that end no
line, and the end of a line. A pattern that begins with the start of a line and ends with the end
of one matches a whole line or nothing, whichever of its ways to match is tried first.
-/

namespace ImapDialogue.Pattern

variable {α : Type} {flags : Flags}

def literalBytes (bytes : Bytes) : List Regex := bytes.map fun byte => .literal byte.toNat

def lineByte : UnitSet := ⟨true, [.range 0x0D 0x0D, .range 0x0A 0x0A]⟩

def lineBytes : Regex := .iterate (.unit lineByte) 0 none true

def lineEnd : List Regex := [.iterate (.literal 0x0D) 0 (some 1) true, .literal 0x0A]

def restOfLine : List Regex := lineBytes :: lineEnd

def wordLine (word : Bytes) (tail : List Regex) : List Regex :=
  .anchor .start :: (literalBytes word ++ .anchor .boundary :: tail)

def eitherLine (word first second : Bytes) (tail : List Regex) : List Regex :=
  .anchor .start :: (literalBytes word ++
    .alt (.concat (literalBytes first)) (.concat (literalBytes second)) ::
      .anchor .boundary :: tail)

def restHolding (marker : Bytes) : List Regex := lineBytes :: (literalBytes marker ++ restOfLine)

theorem holds_unit (byte other : UInt8) :
    (ClassPart.range byte.toNat byte.toNat).holds other.toNat = (other == byte) := by
  rw [Bool.eq_iff_iff]
  simp only [ClassPart.holds, Bool.and_eq_true, decide_eq_true_eq, beq_iff_eq]
  constructor
  · intro bounds
    exact UInt8.toNat_inj.mp (Nat.le_antisymm bounds.2 bounds.1)
  · rintro rfl
    exact ⟨Nat.le_refl _, Nat.le_refl _⟩

theorem literal_accepts (byte other : UInt8) :
    UnitSet.accepts false ⟨false, [.range byte.toNat byte.toNat]⟩ other = (other == byte) := by
  simp [UnitSet.accepts, holds_unit]

theorem lineByte_accepts (byte : UInt8) :
    UnitSet.accepts false lineByte byte = !Byte.isLineEnd byte := by
  have carriage : (ClassPart.range 0x0D 0x0D).holds byte.toNat = (byte == 0x0D) :=
    holds_unit 0x0D byte
  have feed : (ClassPart.range 0x0A 0x0A).holds byte.toNat = (byte == 0x0A) :=
    holds_unit 0x0A byte
  simp [UnitSet.accepts, lineByte, carriage, feed, Byte.isLineEnd, Byte.carriageReturn,
    Byte.lineFeed]

theorem matcher_concat_append (first second : List Regex) (cursor : Cursor)
    (next : Cursor → Option α) :
    (Regex.concat (first ++ second)).matcher flags cursor next =
      (Regex.concat first).matcher flags cursor
        fun behind => (Regex.concat second).matcher flags behind next := by
  induction first generalizing cursor with
  | nil => rfl
  | cons regex first induction =>
      simp only [List.cons_append, Regex.concat, List.foldr_cons, Regex.matcher]
      congr 1
      funext behind
      exact induction behind

theorem matcher_concat_cons (regex : Regex) (others : List Regex) (cursor : Cursor)
    (next : Cursor → Option α) :
    (Regex.concat (regex :: others)).matcher flags cursor next =
      regex.matcher flags cursor
        fun behind => (Regex.concat others).matcher flags behind next := rfl

theorem matcher_concat_nil (cursor : Cursor) (next : Cursor → Option α) :
    (Regex.concat []).matcher flags cursor next = next cursor := rfl

/-- Rounds of single bytes that pass a test, with as many allowed as bytes pass: the most are
tried first. -/
theorem further_rounds_byte (test : UInt8 → Bool) (fuel : Nat) (cursor : Cursor)
    (next : Cursor → Option α) (enough : (cursor.rest.takeWhile test).length ≤ fuel) :
    Matcher.furtherRounds (Matcher.byte test) true fuel cursor next =
      (List.range ((cursor.rest.takeWhile test).length + 1)).reverse.findSome?
        fun count => next (cursor.advance count) := by
  induction fuel generalizing cursor with
  | zero =>
      have none : (cursor.rest.takeWhile test).length = 0 := by omega
      simp [none, Matcher.furtherRounds, Cursor.advance]
  | succ fuel induction =>
      obtain ⟨offset, previous, rest⟩ := cursor
      cases rest with
      | nil => simp [Matcher.furtherRounds, Matcher.byte, Cursor.advance]
      | cons byte rest =>
          cases passes : test byte with
          | false => simp [Matcher.furtherRounds, Matcher.byte, Cursor.advance, passes]
          | true =>
              have shape : (byte :: rest).takeWhile test = byte :: rest.takeWhile test :=
                List.takeWhile_cons_of_pos passes
              have inner := induction ⟨offset + 1, some byte, rest⟩ (by simpa [shape] using enough)
              have moved : ¬offset + 1 = offset := by omega
              simp only [Matcher.furtherRounds, Matcher.byte, passes, if_true, moved, if_false,
                inner, shape, List.length_cons]
              have counts : List.range ((rest.takeWhile test).length + 1 + 1) =
                  0 :: (List.range ((rest.takeWhile test).length + 1)).map Nat.succ :=
                List.range_succ_eq_map
              rw [counts, List.reverse_cons, List.findSome?_append, ← List.map_reverse,
                List.findSome?_map]
              simp only [Function.comp_def, Cursor.advance,
                List.findSome?_cons, List.findSome?_nil]
              cases List.findSome? _ _ <;> cases next ⟨offset, previous, byte :: rest⟩ <;> rfl

theorem findSome?_constant {β : Type} {items : List β} {test : β → Option α} {holds : β → Prop}
    [DecidablePred holds] {answer : Option α}
    (each : ∀ item ∈ items, test item = if holds item then answer else none) :
    items.findSome? test = if ∃ item ∈ items, holds item then answer else none := by
  induction items with
  | nil => simp
  | cons item items induction =>
      have later := induction fun other member => each other (List.mem_cons_of_mem _ member)
      rw [List.findSome?_cons, each item List.mem_cons_self, later]
      by_cases here : holds item
      · cases answer <;> simp [here]
      · simp [here]

section Cased

variable (cased : flags.ignoreCase = false)
include cased

theorem matcher_literal (byte : UInt8) (cursor : Cursor) (next : Cursor → Option α) :
    (Regex.literal byte.toNat).matcher flags cursor next =
      Matcher.byte (· == byte) cursor next := by
  simp only [Regex.literal, Regex.matcher, cased]
  congr 1
  funext other
  exact literal_accepts byte other

theorem matcher_literalBytes (bytes : Bytes) (cursor : Cursor) (next : Cursor → Option α) :
    (Regex.concat (literalBytes bytes)).matcher flags cursor next =
      if bytes <+: cursor.rest then next (cursor.advance bytes.length) else none := by
  induction bytes generalizing cursor with
  | nil => simp [literalBytes, matcher_concat_nil, Cursor.advance]
  | cons byte bytes induction =>
      have later := induction
      obtain ⟨offset, previous, rest⟩ := cursor
      simp only [literalBytes, List.map_cons, matcher_concat_cons]
      rw [matcher_literal cased]
      cases rest with
      | nil => simp [Matcher.byte]
      | cons other rest =>
          have step := later ⟨offset + 1, some other, rest⟩
          simp only [literalBytes] at step
          simp only [Matcher.byte, List.cons_prefix_cons, List.length_cons, Cursor.advance]
          by_cases same : other = byte
          · simp only [same, beq_self_eq_true, if_true, true_and]
            rw [← same]
            exact step
          · have different : byte ≠ other := Ne.symm same
            simp [same, different]

theorem matcher_lineBytes (cursor : Cursor) (next : Cursor → Option α) :
    lineBytes.matcher flags cursor next =
      (List.range ((Line.content cursor.rest).length + 1)).reverse.findSome?
        fun count => next (cursor.advance count) := by
  have unit : (Regex.unit lineByte).matcher flags =
      (Matcher.byte (!Byte.isLineEnd ·) : Matcher α) := by
    funext cursor next
    simp only [Regex.matcher, cased]
    congr 1
    funext byte
    exact lineByte_accepts byte
  have tried := further_rounds_byte (!Byte.isLineEnd ·) cursor.rest.length cursor next
    (List.takeWhile_prefix _).length_le
  rw [← unit] at tried
  simp only [lineBytes, Regex.matcher, Matcher.repeated, Matcher.rounds]
  exact tried

theorem matcher_lineEnd (cursor : Cursor) (next : Cursor → Option α) :
    (Regex.concat lineEnd).matcher flags cursor next =
      (Line.ending? cursor.rest).bind fun count => next (cursor.advance count) := by
  have carriage : (Regex.literal 0x0D).matcher flags =
      (Matcher.byte (· == 0x0D) : Matcher α) := by
    funext cursor next
    exact matcher_literal cased 0x0D cursor next
  have feed : (Regex.literal 0x0A).matcher flags = (Matcher.byte (· == 0x0A) : Matcher α) := by
    funext cursor next
    exact matcher_literal cased 0x0A cursor next
  obtain ⟨offset, previous, rest⟩ := cursor
  simp only [lineEnd, matcher_concat_cons, matcher_concat_nil, Regex.matcher, Matcher.repeated,
    Matcher.rounds, carriage, feed]
  unfold Line.ending?
  split
  · simp [Matcher.furtherRounds, Matcher.byte, Cursor.advance]
  · next rest =>
      simp [Matcher.furtherRounds, Matcher.byte, Cursor.advance]
      cases next ⟨offset + 1 + 1, some 10, rest⟩ <;> rfl
  · next noFeed noBoth =>
      rcases rest with _ | ⟨byte, _ | ⟨other, rest⟩⟩
      · simp [Matcher.furtherRounds, Matcher.byte]
      · have plain : byte ≠ 0x0A := fun same => noFeed [] (by rw [same])
        simp [Matcher.furtherRounds, Matcher.byte, plain]
      · have plain : byte ≠ 0x0A := fun same => noFeed (other :: rest) (by rw [same])
        by_cases same : byte = 0x0D
        · have apart : other ≠ 0x0A := fun also => noBoth rest (by rw [same, also])
          simp [Matcher.furtherRounds, Matcher.byte, plain, apart]
        · simp [Matcher.furtherRounds, Matcher.byte, plain, same]

theorem matcher_restOfLine (cursor : Cursor) (next : Cursor → Option α) :
    (Regex.concat restOfLine).matcher flags cursor next =
      (Line.first? cursor.rest).bind fun found => next (cursor.advance found.2) := by
  rw [restOfLine, matcher_concat_cons, matcher_lineBytes cased]
  have each : ∀ count, (Regex.concat lineEnd).matcher flags (cursor.advance count) next =
      (Line.ending? (cursor.rest.drop count)).bind fun ending =>
        next (cursor.advance (count + ending)) := by
    intro count
    rw [matcher_lineEnd cased, Cursor.rest_advance]
    simp only [Cursor.advance_advance]
  simp only [each]
  rw [List.range_succ, List.reverse_append, List.findSome?_append]
  have shorter : ((List.range (Line.content cursor.rest).length).reverse.findSome? fun count =>
      (Line.ending? (cursor.rest.drop count)).bind fun ending =>
        next (cursor.advance (count + ending))) = none := by
    rw [List.findSome?_eq_none_iff]
    intro count member
    rw [Line.ending?_within (by simpa using member)]
    rfl
  rw [shorter]
  simp only [List.reverse_cons, List.reverse_nil, List.nil_append, List.findSome?_cons,
    List.findSome?_nil, Option.or_none, Line.first?, Option.bind_map, Function.comp_def]
  cases Option.bind _ _ <;> rfl

/-- Given bytes stand in the rest of a line wherever the run in front of them ends. -/
theorem matcher_restHolding {marker : Bytes}
    (plain : Line.Plain marker) (cursor : Cursor)
    (next : Cursor → Option α) :
    (Regex.concat (restHolding marker)).matcher flags cursor next =
      (Line.first? cursor.rest).bind fun found =>
        if marker <:+: found.1 then next (cursor.advance found.2) else none := by
  have each : ∀ count ∈ (List.range ((Line.content cursor.rest).length + 1)).reverse,
      (Regex.concat (literalBytes marker ++ restOfLine)).matcher flags
          (cursor.advance count) next =
        if marker <+: cursor.rest.drop count then
          (Line.first? cursor.rest).bind fun found => next (cursor.advance found.2)
        else none := by
    intro count member
    rw [matcher_concat_append, matcher_literalBytes cased, Cursor.rest_advance]
    split
    · next begins =>
        obtain ⟨rest, same⟩ := begins
        rw [Line.first?_of_marker plain (by simp at member; omega) same,
          matcher_restOfLine cased, Cursor.advance_advance, Cursor.rest_advance,
          ← List.drop_drop, ← same, List.drop_left]
        simp only [Option.bind_map, Function.comp_def, Cursor.advance_advance]
    · rfl
  rw [restHolding, matcher_concat_cons, matcher_lineBytes cased, findSome?_constant each]
  cases complete : Line.first? cursor.rest with
  | none => simp
  | some found =>
      obtain ⟨line, length⟩ := found
      simp only [Option.bind_some]
      congr 1
      rw [eq_iff_iff]
      exact Line.holds_marker_iff plain complete

theorem matcher_wordLine (multiline : flags.multiline = true) {word : Bytes}
    (plain : Line.Plain word)
    (closes : word.getLast?.any Byte.isWord = true) (tail : List Regex) (test : Bytes → Bool)
    (judges : ∀ (cursor : Cursor) (next : Cursor → Option α),
      (Regex.concat tail).matcher flags cursor next =
        (Line.first? cursor.rest).bind fun found =>
          if test found.1 then next (cursor.advance found.2) else none)
    (cursor : Cursor) (next : Cursor → Option α) :
    (Regex.concat (wordLine word tail)).matcher flags cursor next =
      (Line.passed (fun line => (Line.behind? word line).any test) cursor).bind fun length =>
        next (cursor.advance length) := by
  have starts : Anchor.start.holds flags cursor = cursor.startsLine := by
    simp only [Anchor.holds, multiline, Bool.true_and, Cursor.startsLine]
    cases cursor.previous <;> rfl
  rw [wordLine, matcher_concat_cons, Regex.matcher, starts, matcher_concat_append,
    matcher_literalBytes cased, matcher_concat_cons, Regex.matcher, Line.passed_behind plain]
  by_cases begins : cursor.startsLine = true
  · by_cases held : word <+: cursor.rest
    · have boundary : Anchor.boundary.holds flags (cursor.advance word.length) =
          !(cursor.rest.drop word.length).head?.any Byte.isWord := by
        have word := Cursor.previous_advance_prefix held closes
        rw [Anchor.holds, Cursor.rest_advance, wordAt, word]
        simp [wordAt]
      rw [if_pos begins, if_pos held, boundary, judges, Cursor.rest_advance]
      cases continues : (cursor.rest.drop word.length).head?.any Byte.isWord with
      | true => simp
      | false =>
          rw [Bool.not_false, if_pos rfl, if_pos ⟨begins, held, rfl⟩, Option.bind_assoc]
          congr 1
          funext found
          simp only [Cursor.advance_advance]
          cases test found.1 <;> rfl
    · rw [if_neg held, ite_self, if_neg fun parts => held parts.2.1]
      rfl
  · rw [if_neg begins, if_neg fun parts => begins parts.1]
    rfl

theorem matcher_eitherLine (word first second : Bytes) (tail : List Regex) (cursor : Cursor)
    (next : Cursor → Option α) :
    (Regex.concat (eitherLine word first second tail)).matcher flags cursor next =
      ((Regex.concat (wordLine (word ++ first) tail)).matcher flags cursor next).or
        ((Regex.concat (wordLine (word ++ second) tail)).matcher flags cursor next) := by
  have split : ∀ third, literalBytes (word ++ third) = literalBytes word ++ literalBytes third :=
    fun third => List.map_append
  have choose : ∀ behind (continued : Cursor → Option α),
      (Regex.alt (.concat (literalBytes first)) (.concat (literalBytes second))).matcher flags
          behind continued =
        ((Regex.concat (literalBytes first)).matcher flags behind continued).or
          ((Regex.concat (literalBytes second)).matcher flags behind continued) := by
    intro behind continued
    rw [Regex.matcher]
    cases (Regex.concat (literalBytes first)).matcher flags behind continued <;> rfl
  rw [eitherLine, wordLine, wordLine, split, split, List.append_assoc, List.append_assoc,
    matcher_concat_cons, matcher_concat_cons, matcher_concat_cons]
  simp only [Regex.matcher]
  cases Anchor.start.holds flags cursor with
  | false => rfl
  | true =>
      simp only [if_true]
      rw [matcher_concat_append, matcher_concat_append, matcher_concat_append,
        matcher_literalBytes cased, matcher_literalBytes cased, matcher_literalBytes cased,
        matcher_concat_cons, choose, matcher_concat_append, matcher_concat_append]
      by_cases held : word <+: cursor.rest
      · rw [if_pos held, if_pos held, if_pos held]
      · rw [if_neg held, if_neg held, if_neg held]
        rfl

end Cased

theorem lengthAt_of_matcher {regex : Regex} {test : Bytes → Bool} {cursor : Cursor}
    (lines : ∀ next : Cursor → Option Nat, regex.matcher flags cursor next =
      (Line.passed test cursor).bind fun length => next (cursor.advance length)) :
    regex.lengthAt flags cursor = Line.passed test cursor := by
  rw [Regex.lengthAt, lines]
  cases found : Line.passed test cursor with
  | none => rfl
  | some length =>
      obtain ⟨_, line, complete, _⟩ := Line.passed_eq_some found
      have fits := (Line.length_first? complete).2.2
      rw [Option.bind_some, Cursor.offset_advance, Nat.min_eq_left fits, Nat.add_sub_cancel_left]

end ImapDialogue.Pattern
