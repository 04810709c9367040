import ImapDialogue.Proofs.Command.LineReader
import ImapDialogue.Proofs.Response.Reading

/-!
Responses in front of an answer. The walk over received data passes over everything a server
sends in a response: a line that begins inside one answers nothing, a brace in a text begins no
literal, and the data of literals is not looked at.
-/

namespace ImapDialogue.LineReader

open Literal Response

variable {α : Type} {judge : Bytes → Option α}

/-- A walk that comes to a piece of data gets over it, and whatever follows comes next. -/
def Crosses (judge : Bytes → Option α) (previous : Option UInt8) (piece : Bytes) : Prop :=
  ∀ place rest, scan judge 0 0 place previous (piece ++ rest) =
    scan judge 0 0 (place + piece.length) (piece.getLast?.or previous) rest

def InLine (previous : Option UInt8) : Prop := previous.any (!Byte.isLineEnd ·) = true

/-- Lines that answer nothing: those that can begin inside a response, and its own first one. -/
structure Quiet (judge : Bytes → Option α) : Prop where
  empty : judge [] = none
  spaced : ∀ line, judge (Byte.space :: line) = none
  closed : ∀ line, judge (Byte.closeParen :: line) = none
  opened : ∀ digit line, Byte.isDigit digit = true →
    judge (Byte.star :: Byte.space :: digit :: line) = none

theorem crosses_nil (previous : Option UInt8) : Crosses judge previous [] := fun _ _ => rfl

theorem getLast?_append_or (first second : Bytes) (previous : Option UInt8) :
    (first ++ second).getLast?.or previous =
      second.getLast?.or (first.getLast?.or previous) := by
  rw [List.getLast?_append, Option.or_assoc]

theorem crosses_append {previous : Option UInt8} {first second : Bytes}
    (crossed : Crosses judge previous first)
    (next : Crosses judge (first.getLast?.or previous) second) :
    Crosses judge previous (first ++ second) := by
  intro place rest
  rw [List.append_assoc, crossed, next, getLast?_append_or, List.length_append, Nat.add_assoc]

theorem scan_over {place : Nat} {previous : Option UInt8} {byte : UInt8} {rest : Bytes}
    (silent : Line.judged judge ⟨place, previous, byte :: rest⟩ = none)
    (missing : header? (byte :: rest) = none) :
    scan judge 0 0 place previous (byte :: rest) =
      scan judge 0 0 (place + 1) (some byte) rest := by
  rw [scan, if_neg (by omega), silent]
  simp only [Nat.lt_irrefl, if_false, missing]

theorem scan_stops {place length : Nat} {previous : Option UInt8} {bytes : Bytes} {answer : α}
    (judged : Line.judged judge ⟨place, previous, bytes⟩ = some (answer, length)) :
    scan judge 0 0 place previous bytes = some (place, answer, length) := by
  cases bytes with
  | nil =>
      rw [(Line.steady_judged judge).needs rfl] at judged
      simp at judged
  | cons byte rest =>
      rw [scan, if_neg (by omega), judged]

theorem judged_inLine {previous : Option UInt8} (inLine : InLine previous) (place : Nat)
    (bytes : Bytes) : Line.judged judge ⟨place, previous, bytes⟩ = none := by
  cases previous with
  | none => simp [InLine] at inLine
  | some byte =>
      have plain : Byte.isLineEnd byte = false := by simpa [InLine] using inLine
      simp [Line.judged, Cursor.startsLine, plain]

theorem judged_of_beginning {head : Bytes} (plain : Line.Plain head)
    (silent : ∀ line, judge (head ++ line) = none) (place : Nat) (previous : Option UInt8)
    (rest : Bytes) : Line.judged judge ⟨place, previous, head ++ rest⟩ = none := by
  unfold Line.judged
  split
  · rw [Line.first?_plain_append plain]
    cases Line.first? rest with
    | none => rfl
    | some found => simp [silent]
  · rfl

/-! ## Inside a line -/

/-- Bytes that end no line and among which no literal begins, whatever follows them. -/
inductive Calm : Bytes → Prop where
  | nil : Calm []
  | cons {byte : UInt8} {rest : Bytes} (plain : Byte.isLineEnd byte = false)
      (missing : ∀ behind, header? (byte :: (rest ++ behind)) = none) (later : Calm rest) :
      Calm (byte :: rest)

theorem calm_of_no_brace {bytes : Bytes}
    (plain : ∀ byte ∈ bytes, Byte.isLineEnd byte = false ∧ byte ≠ Byte.openBrace) :
    Calm bytes := by
  induction bytes with
  | nil => exact Calm.nil
  | cons byte bytes induction =>
      obtain ⟨inLine, other⟩ := plain byte List.mem_cons_self
      apply Calm.cons inLine
      · intro behind
        exact header?_of_not_brace other _
      · exact induction fun later member => plain later (List.mem_cons_of_mem _ member)

theorem header?_before_quote {bytes : Bytes} (plain : Line.Plain bytes) (rest : Bytes) :
    header? (bytes ++ Byte.quote :: rest) = none := by
  rw [Option.eq_none_iff_forall_ne_some]
  intro header found
  obtain ⟨filled, numeric, plus, behind, same, _⟩ := spelled_of_header? found
  have unquoted : Byte.quote ∉ spelled header.digits plus := by
    intro member
    rcases List.mem_cons.mp member with brace | inner
    · exact absurd brace (by decide)
    · rcases List.mem_append.mp inner with digit | closes
      · exact absurd (numeric _ digit) (by decide)
      · cases plus <;> simp [closing, Byte.quote] at closes
  have ended : Byte.carriageReturn ∈ spelled header.digits plus := by
    cases plus <;> simp [spelled, closing, Byte.carriageReturn]
  have whole : spelled header.digits plus <+: bytes ++ Byte.quote :: rest := by
    rw [same]
    exact List.prefix_append _ _
  have within : spelled header.digits plus <+: bytes := by
    by_cases short : (spelled header.digits plus).length ≤ bytes.length
    · exact List.prefix_of_prefix_length_le whole (List.prefix_append _ _) short
    · have marked : bytes ++ [Byte.quote] <+: bytes ++ Byte.quote :: rest :=
        ⟨rest, by rw [List.append_assoc, List.singleton_append]⟩
      have covered : bytes ++ [Byte.quote] <+: spelled header.digits plus :=
        List.prefix_of_prefix_length_le marked whole (by
          rw [List.length_append, List.length_singleton]
          omega)
      exact absurd (covered.subset (by simp)) unquoted
  exact absurd (plain _ (within.subset ended)) (by decide)

theorem calm_before_quote {bytes : Bytes} (plain : Line.Plain bytes) :
    Calm (bytes ++ [Byte.quote]) := by
  induction bytes with
  | nil => exact Calm.cons rfl (fun _ => rfl) Calm.nil
  | cons byte bytes induction =>
      rw [List.cons_append]
      apply Calm.cons (plain byte List.mem_cons_self)
      · intro behind
        rw [List.append_assoc]
        exact header?_before_quote plain behind
      · exact induction fun later member => plain later (List.mem_cons_of_mem _ member)

theorem getLast?_cons_or (byte : UInt8) (bytes : Bytes) (previous : Option UInt8) :
    (byte :: bytes).getLast?.or previous = bytes.getLast?.or (some byte) :=
  getLast?_append_or [byte] bytes previous

theorem inLine_of_plain {byte : UInt8} (plain : Byte.isLineEnd byte = false) :
    InLine (some byte) := by
  simpa [InLine] using plain

theorem crosses_calm {previous : Option UInt8} (inLine : InLine previous) {bytes : Bytes}
    (calm : Calm bytes) : Crosses judge previous bytes := by
  induction calm generalizing previous with
  | nil => exact crosses_nil previous
  | @cons byte bytes plain missing later induction =>
      have next : InLine (some byte) := inLine_of_plain plain
      intro place rest
      rw [List.cons_append, scan_over (judged_inLine inLine _ _) (missing rest),
        induction next, getLast?_cons_or, List.length_cons, Nat.add_assoc, Nat.add_comm 1]

/-! ## Where a line may begin -/

theorem crosses_gap (quiet : Quiet judge) {byte : UInt8}
    (gap : byte = Byte.space ∨ byte = Byte.closeParen) (previous : Option UInt8) :
    Crosses judge previous [byte] := by
  intro place rest
  have silent : Line.judged judge ⟨place, previous, [byte] ++ rest⟩ = none := by
    rcases gap with rfl | rfl
    · exact judged_of_beginning (by decide) quiet.spaced place previous rest
    · exact judged_of_beginning (by decide) quiet.closed place previous rest
  have missing : header? (byte :: rest) = none := by
    rcases gap with rfl | rfl <;> rfl
  exact scan_over silent missing

theorem judged_line_feed (quiet : Quiet judge) (place : Nat) (previous : Option UInt8)
    (rest : Bytes) : Line.judged judge ⟨place, previous, Byte.lineFeed :: rest⟩ = none := by
  have empty : Line.first? (Byte.lineFeed :: rest) = some ([], 1) := rfl
  unfold Line.judged
  split
  · simp [empty, quiet.empty]
  · rfl

theorem crosses_crlf (quiet : Quiet judge) {previous : Option UInt8} (inLine : InLine previous) :
    Crosses judge previous Bytes.crlf := by
  intro place rest
  have carriage : scan judge 0 0 place previous (Bytes.crlf ++ rest) =
      scan judge 0 0 (place + 1) (some Byte.carriageReturn) (Byte.lineFeed :: rest) :=
    scan_over (judged_inLine inLine place _) rfl
  have feed : scan judge 0 0 (place + 1) (some Byte.carriageReturn) (Byte.lineFeed :: rest) =
      scan judge 0 0 (place + 1 + 1) (some Byte.lineFeed) rest :=
    scan_over (judged_line_feed quiet _ _ rest) rfl
  rw [carriage, feed]
  rfl

/-! ## Literals -/

theorem scan_data (data rest : Bytes) (place : Nat) (previous : Option UInt8) :
    scan judge 0 data.length place previous (data ++ rest) =
      scan judge 0 0 (place + data.length) (data.getLast?.or previous) rest := by
  induction data generalizing place previous with
  | nil => rfl
  | cons byte data induction =>
      rw [List.cons_append, scan, List.length_cons, if_pos ⟨rfl, Nat.succ_pos _⟩,
        Nat.add_sub_cancel, induction, getLast?_cons_or, Nat.add_assoc, Nat.add_comm 1]

theorem scan_header_byte {header size place : Nat} {previous : Option UInt8} {byte : UInt8}
    {rest : Bytes} (silent : Line.judged judge ⟨place, previous, byte :: rest⟩ = none) :
    scan judge (header + 1) size place previous (byte :: rest) =
      scan judge header size (place + 1) (some byte) rest := by
  rw [scan, if_neg (by omega), silent]
  simp only [Nat.succ_pos, if_true, Nat.add_sub_cancel]

theorem scan_header_line {previous : Option UInt8} (inLine : InLine previous) {bytes : Bytes}
    (plain : Line.Plain bytes) (left size place : Nat) (rest : Bytes) :
    scan judge (bytes.length + left) size place previous (bytes ++ rest) =
      scan judge left size (place + bytes.length) (bytes.getLast?.or previous) rest := by
  induction bytes generalizing place previous with
  | nil =>
      rw [List.length_nil, Nat.zero_add]
      rfl
  | cons byte bytes induction =>
      have next : InLine (some byte) := inLine_of_plain (plain byte List.mem_cons_self)
      have later : Line.Plain bytes := fun other member => plain other (List.mem_cons_of_mem _ member)
      rw [List.cons_append, List.length_cons, Nat.add_right_comm,
        scan_header_byte (judged_inLine inLine _ _), induction next later, getLast?_cons_or,
        Nat.add_assoc, Nat.add_comm 1]

theorem scan_enter {place : Nat} {previous : Option UInt8} {byte : UInt8} {rest : Bytes}
    {begun : Header} (silent : Line.judged judge ⟨place, previous, byte :: rest⟩ = none)
    (found : header? (byte :: rest) = some begun) :
    scan judge 0 0 place previous (byte :: rest) =
      scan judge (begun.length - 1) begun.size (place + 1) (some byte) rest := by
  rw [scan, if_neg (by omega), silent]
  simp only [Nat.lt_irrefl, if_false, found]

theorem crosses_enclosed (quiet : Quiet judge) {previous : Option UInt8}
    (inLine : InLine previous) (enclosed : Enclosed) :
    Crosses judge previous enclosed.bytes := by
  intro place rest
  obtain ⟨data, fits⟩ := enclosed
  have numeric : ∀ byte ∈ Bytes.digits data.length, Byte.isDigit byte = true :=
    fun _ member => Bytes.isDigit_of_mem_digits member
  have plain : Line.Plain (Bytes.digits data.length ++ [Byte.closeBrace]) :=
    Line.plain_append (Command.plain_digits _) (by decide)
  have parts : Enclosed.bytes ⟨data, fits⟩ ++ rest =
      Byte.openBrace :: (Bytes.digits data.length ++ [Byte.closeBrace] ++
        Byte.carriageReturn :: Byte.lineFeed :: (data ++ rest)) := by
    simp only [Enclosed.bytes, spelled, closing, Bool.false_eq_true, if_false, List.cons_append,
      List.append_assoc, List.nil_append]
    rfl
  have found : header? (Enclosed.bytes ⟨data, fits⟩ ++ rest) =
      some ⟨Bytes.digits data.length, (spelled (Bytes.digits data.length) false).length⟩ := by
    rw [Enclosed.bytes, List.append_assoc]
    exact header?_spelled (Bytes.digits_ne_nil _) numeric false _
  have left : (spelled (Bytes.digits data.length) false).length - 1 =
      (Bytes.digits data.length ++ [Byte.closeBrace]).length + 2 := by
    simp only [spelled, closing, Bool.false_eq_true, if_false, List.length_cons,
      List.length_append, List.length_nil]
    omega
  -- The bytes of a header are judged as any others, and behind its carriage return a line does
  -- begin: an empty one.
  have brace : InLine (some Byte.closeBrace) := inLine_of_plain (by decide)
  have last : (Bytes.digits data.length ++ [Byte.closeBrace]).getLast?.or (some Byte.openBrace) =
      some Byte.closeBrace := by
    rw [List.getLast?_concat]
    rfl
  have carriage : ∀ spot, scan judge 2 data.length spot (some Byte.closeBrace)
      (Byte.carriageReturn :: Byte.lineFeed :: (data ++ rest)) =
        scan judge 1 data.length (spot + 1) (some Byte.carriageReturn)
          (Byte.lineFeed :: (data ++ rest)) :=
    fun spot => scan_header_byte (judged_inLine brace spot _)
  have feed : ∀ spot, scan judge 1 data.length spot (some Byte.carriageReturn)
      (Byte.lineFeed :: (data ++ rest)) =
        scan judge 0 data.length (spot + 1) (some Byte.lineFeed) (data ++ rest) :=
    fun spot => scan_header_byte (judged_line_feed quiet spot _ _)
  have length : place + 1 + (Bytes.digits data.length ++ [Byte.closeBrace]).length + 1 + 1 +
      data.length = place + (Enclosed.bytes ⟨data, fits⟩).length := by
    simp only [Enclosed.bytes, spelled, closing, Bool.false_eq_true, if_false, List.length_cons,
      List.length_append, List.length_nil]
    omega
  have behind : (Enclosed.bytes ⟨data, fits⟩).getLast?.or previous =
      data.getLast?.or (some Byte.lineFeed) := by
    have header : spelled (Bytes.digits data.length) false =
        (Byte.openBrace :: (Bytes.digits data.length ++ [Byte.closeBrace, Byte.carriageReturn])) ++
          [Byte.lineFeed] := by
      simp only [spelled, closing, Bool.false_eq_true, if_false, List.cons_append,
        List.append_assoc, List.nil_append]
      rfl
    rw [Enclosed.bytes, getLast?_append_or, header, List.getLast?_concat]
    rfl
  rw [parts] at found ⊢
  rw [scan_enter (judged_inLine inLine place _) found]
  simp only [left, Header.size, Bytes.decimal_digits]
  rw [scan_header_line (inLine_of_plain (by decide)) plain, last, carriage, feed, scan_data,
    length, behind]

/-! ## Values -/

theorem calm_of_atom {word : Atom} : Calm word.bytes := by
  apply calm_of_no_brace
  intro byte member
  have bare := Reader.bare_of_atom (word.bare byte member)
  have ended := bare.1
  simp only [Reader.endsAtom, Bool.or_eq_false_iff] at ended
  exact ⟨ended.2, bare.2.2⟩

theorem calm_digits (number : Nat) : Calm (Bytes.digits number) := by
  apply calm_of_no_brace
  intro byte member
  exact ⟨Command.plain_digits number byte member,
    (Reader.bare_of_digit (Bytes.isDigit_of_mem_digits member)).2.2⟩

theorem plain_escaped {bytes : Bytes} (plain : Line.Plain bytes) :
    Line.Plain (bytes.flatMap escapeByte) := by
  intro byte member
  obtain ⟨source, inside, escaped⟩ := List.mem_flatMap.mp member
  rw [escapeByte] at escaped
  split at escaped
  · rcases List.mem_cons.mp escaped with rfl | same
    · rfl
    · rw [List.mem_singleton.mp same]
      exact plain source inside
  · rw [List.mem_singleton.mp escaped]
    exact plain source inside

theorem calm_phrase (phrase : Phrase) : Calm phrase.bytes := by
  rw [phrase_bytes, ← List.cons_append]
  apply calm_before_quote
  intro byte member
  rcases List.mem_cons.mp member with rfl | inside
  · rfl
  · exact plain_escaped (Utf8.plain_encode phrase.unbroken) byte inside

theorem calm_nil : Calm (Bytes.ofNarrow "NIL") := by
  apply calm_of_no_brace
  exact Bytes.forall_of_all (by decide)

mutual

theorem crosses_sent (quiet : Quiet judge) : ∀ (sent : Sent) {previous : Option UInt8},
    InLine previous → Crosses judge previous sent.bytes
  | .nil, _, inLine => crosses_calm inLine calm_nil
  | .number value, _, inLine => crosses_calm inLine (calm_digits value)
  | .atom _, _, inLine => crosses_calm inLine calm_of_atom
  | .quoted phrase, _, inLine => crosses_calm inLine (calm_phrase phrase)
  | .literal enclosed, _, inLine => crosses_enclosed quiet inLine enclosed
  | .list items, _, inLine => by
      -- Literal data can end in a line end, so a line may begin at the closing parenthesis.
      have opening : Crosses judge _ [Byte.openParen] :=
        crosses_calm inLine (calm_of_no_brace (Bytes.forall_of_all (by decide)))
      have inside : Crosses judge (some Byte.openParen) (Sent.spaced items) :=
        crosses_spaced quiet items (inLine_of_plain (by decide))
      have closing := crosses_gap quiet (Or.inr rfl)
        ((Sent.spaced items).getLast?.or (some Byte.openParen))
      rw [Sent.bytes]
      exact crosses_append opening (crosses_append inside closing)

theorem crosses_spaced (quiet : Quiet judge) : ∀ (items : List Sent) {previous : Option UInt8},
    InLine previous → Crosses judge previous (Sent.spaced items)
  | [], _, _ => crosses_nil _
  | [item], _, inLine => crosses_sent quiet item inLine
  | item :: next :: others, previous, inLine => by
      have first := crosses_sent quiet item inLine
      -- Or at a space: behind it no line begins, whatever the item ended in.
      have gap := crosses_gap quiet (Or.inl rfl) (item.bytes.getLast?.or previous)
      have later : Crosses judge (some Byte.space) (Sent.spaced (next :: others)) :=
        crosses_spaced quiet (next :: others) (inLine_of_plain (by decide))
      rw [Sent.spaced]
      exact crosses_append first (crosses_append gap later)

end

/-! ## Responses -/

theorem calm_name (name : Name) : Calm name.bytes := by
  apply calm_of_no_brace
  intro byte member
  rcases kind_of_name_byte member with capital | printable | rfl | rfl
  · revert capital
    apply Byte.forall_of_numbers _ byte
    decide +kernel
  · revert printable
    apply Byte.forall_of_numbers _ byte
    decide +kernel
  · decide
  · decide

theorem crosses_entry (quiet : Quiet judge) {previous : Option UInt8} (inLine : InLine previous)
    (entry : Name × Sent) : Crosses judge previous (Reply.entryBytes entry) := by
  have name : Crosses judge previous entry.1.bytes := crosses_calm inLine (calm_name entry.1)
  have gap := crosses_gap quiet (Or.inl rfl) (entry.1.bytes.getLast?.or previous)
  have value : Crosses judge (some Byte.space) entry.2.bytes :=
    crosses_sent quiet entry.2 (inLine_of_plain (by decide))
  exact crosses_append name (crosses_append gap value)

theorem crosses_attributes (quiet : Quiet judge) {previous : Option UInt8}
    (inLine : InLine previous) (attributes : List (Name × Sent)) :
    Crosses judge previous (Reply.attributeBytes attributes) := by
  induction attributes using Reply.attributeBytes.induct generalizing previous with
  | case1 => exact crosses_nil previous
  | case2 entry => exact crosses_entry quiet inLine entry
  | case3 entry next others induction =>
      have first := crosses_entry quiet inLine entry
      have gap := crosses_gap quiet (Or.inl rfl) ((Reply.entryBytes entry).getLast?.or previous)
      have later : Crosses judge (some Byte.space) (Reply.attributeBytes (next :: others)) :=
        induction (inLine_of_plain (by decide))
      rw [Reply.attributeBytes]
      exact crosses_append first (crosses_append gap later)

theorem calm_opening (number : Nat) :
    Calm (Byte.space :: (Bytes.digits number ++ keyword)) := by
  have blank : ∀ byte ∈ Byte.space :: keyword,
      Byte.isLineEnd byte = false ∧ byte ≠ Byte.openBrace := Bytes.forall_of_all (by decide)
  apply calm_of_no_brace
  intro byte member
  rcases List.mem_cons.mp member with rfl | inner
  · exact blank _ List.mem_cons_self
  · rcases List.mem_append.mp inner with digit | word
    · exact ⟨Command.plain_digits number byte digit,
        (Reader.bare_of_digit (Bytes.isDigit_of_mem_digits digit)).2.2⟩
    · exact blank byte (List.mem_cons_of_mem _ word)

theorem crosses_head (quiet : Quiet judge) (previous : Option UInt8) (reply : Reply) :
    Crosses judge previous reply.head := by
  obtain ⟨digit, others, same⟩ := List.exists_cons_of_ne_nil
    (Bytes.digits_ne_nil (reply.sequence : Nat))
  have member : digit ∈ Bytes.digits (reply.sequence : Nat) := by
    rw [same]
    exact List.mem_cons_self
  have plain : Line.Plain [Byte.star, Byte.space, digit] := by
    apply @Line.plain_append [Byte.star, Byte.space] [digit] (by decide)
    intro byte inside
    rw [List.mem_singleton.mp inside]
    exact Command.plain_digits _ digit member
  have parts : reply.head =
      Byte.star :: (Byte.space :: (Bytes.digits (reply.sequence : Nat) ++ keyword)) := rfl
  have inLine : InLine (some Byte.star) := inLine_of_plain (by decide)
  intro place rest
  have silent : Line.judged judge ⟨place, previous, Byte.star ::
      (Byte.space :: (Bytes.digits (reply.sequence : Nat) ++ keyword) ++ rest)⟩ = none := by
    rw [same]
    exact judged_of_beginning plain
      (fun line => quiet.opened digit line (Bytes.isDigit_of_mem_digits member)) place previous
      (others ++ keyword ++ rest)
  have star := scan_over silent rfl
  have behind : Crosses judge (some Byte.star)
      (Byte.space :: (Bytes.digits (reply.sequence : Nat) ++ keyword)) :=
    crosses_calm inLine (calm_opening reply.sequence)
  rw [parts, List.cons_append, star, behind, getLast?_cons_or _ _ previous,
    List.length_cons (a := Byte.star), Nat.add_assoc, Nat.add_comm 1]

/-- A response is passed wherever it begins, and the next line begins behind it. -/
theorem crosses_reply (quiet : Quiet judge) (previous : Option UInt8) (reply : Reply) :
    Crosses judge previous reply.bytes := by
  have ended : reply.head.getLast?.or previous = some Byte.openParen := by
    rw [Reply.head, getLast?_append_or, getLast?_append_or]
    rfl
  have head := crosses_head quiet previous reply
  have attributes : Crosses judge (reply.head.getLast?.or previous)
      (Reply.attributeBytes reply.attributes) := by
    rw [ended]
    exact crosses_attributes quiet (inLine_of_plain (by decide)) reply.attributes
  have close := crosses_gap quiet (Or.inr rfl)
    ((Reply.attributeBytes reply.attributes).getLast?.or (reply.head.getLast?.or previous))
  have lineEnd : Crosses judge (some Byte.closeParen) Bytes.crlf :=
    crosses_crlf quiet (inLine_of_plain (by decide))
  rw [reply.bytes_eq]
  exact crosses_append head (crosses_append attributes (crosses_append close lineEnd))

theorem crosses_replies (quiet : Quiet judge) (previous : Option UInt8) (replies : List Reply) :
    Crosses judge previous (replies.flatMap Reply.bytes) := by
  induction replies generalizing previous with
  | nil => exact crosses_nil previous
  | cons reply others induction =>
      rw [List.flatMap_cons]
      exact crosses_append (crosses_reply quiet previous reply) (induction _)

/-! ## The answer behind them -/

theorem last_of_reply (reply : Reply) (previous : Option UInt8) :
    reply.bytes.getLast?.or previous = some Byte.lineFeed := by
  rw [reply.bytes_eq, getLast?_append_or, getLast?_append_or, getLast?_append_or]
  rfl

theorem startsLine_behind_replies (replies : List Reply) {previous : Option UInt8}
    (starts : previous.isNone = true ∨ previous.any Byte.isLineEnd = true) (place : Nat)
    (rest : Bytes) :
    Cursor.startsLine ⟨place, (replies.flatMap Reply.bytes).getLast?.or previous, rest⟩ = true := by
  induction replies generalizing previous with
  | nil => exact Bool.or_eq_true_iff.mpr starts
  | cons reply others induction =>
      rw [List.flatMap_cons, getLast?_append_or, last_of_reply]
      exact induction (Or.inr rfl)

theorem read_behind_replies {judge : Bytes → Option Nat} (quiet : Quiet judge)
    (replies : List Reply) {line ending : Bytes} {answer : Nat} (plain : Line.Plain line)
    (ends : Line.Ending ending) (verdict : judge line = some answer) (rest : Bytes) :
    read judge (replies.flatMap Reply.bytes ++ (line ++ (ending ++ rest))) =
      some (⟨answer, replies.flatMap Reply.bytes, line ++ ending⟩, rest) := by
  have complete := Line.first?_of_line plain ends rest
  have starts := @startsLine_behind_replies replies none (Or.inl rfl)
    (0 + (replies.flatMap Reply.bytes).length) (line ++ (ending ++ rest))
  have judged := Line.judged_of_line starts complete verdict
  have stopped := scan_stops judged
  have place : 0 + (replies.flatMap Reply.bytes).length =
      (replies.flatMap Reply.bytes).length := Nat.zero_add _
  have length : line.length + ending.length = (line ++ ending).length := List.length_append.symm
  have front : line ++ (ending ++ rest) = (line ++ ending) ++ rest :=
    (List.append_assoc _ _ _).symm
  rw [read, crosses_replies quiet none replies 0, stopped, place, length, front, Option.map_some]
  simp only [List.take_left, List.drop_left, ← List.drop_drop]

theorem behind?_other {first byte : UInt8} {word : Bytes} (begins : word.head? = some first)
    (other : first ≠ byte) (line : Bytes) : Line.behind? word (byte :: line) = none := by
  cases word with
  | nil => simp at begins
  | cons head tail =>
      obtain rfl : head = first := by simpa using begins
      have differs : (head == byte) = false := by simpa using other
      simp [Line.behind?, Bytes.after?, differs]

/-- Only a digit begins a line about a command, and only a star any other answer. -/
theorem answer?_none {number : Nat} {marker line : Bytes} {byte : UInt8}
    (unmarked : Byte.isDigit byte = false)
    (stays : Line.behind? (Bytes.ofNarrow "* BYE") (byte :: line) = none) :
    Command.answer? (Bytes.digits number) marker (byte :: line) = none := by
  obtain ⟨digit, others, same⟩ := List.exists_cons_of_ne_nil (Bytes.digits_ne_nil number)
  have numeric : Byte.isDigit digit = true := by
    apply @Bytes.isDigit_of_mem_digits number
    rw [same]
    exact List.mem_cons_self
  have other : digit ≠ byte := by
    rintro rfl
    rw [numeric] at unmarked
    exact absurd unmarked (by decide)
  have silent : ∀ word, Line.behind? (Bytes.digits number ++ word) (byte :: line) = none := by
    intro word
    apply behind?_other _ other
    rw [same]
    rfl
  simp [Command.answer?, Command.completes, Command.refuses, Command.parts, silent, stays]

theorem quiet_answer (number : Nat) (marker : Bytes) :
    Quiet (Command.answer? (Bytes.digits number) marker) where
  empty := by
    obtain ⟨digit, others, same⟩ := List.exists_cons_of_ne_nil (Bytes.digits_ne_nil number)
    have silent : ∀ word, Line.behind? (Bytes.digits number ++ word) [] = none := by
      intro word
      rw [same]
      rfl
    have stays : Line.behind? (Bytes.ofNarrow "* BYE") [] = none := by rfl
    simp [Command.answer?, Command.completes, Command.refuses, Command.parts, silent, stays]
  spaced line := answer?_none rfl (behind?_other rfl (by decide) line)
  closed line := answer?_none rfl (behind?_other rfl (by decide) line)
  opened digit line numeric := by
    apply answer?_none rfl
    have word : Bytes.ofNarrow "* BYE" = Byte.star :: Byte.space :: 0x42 :: [0x59, 0x45] := by rfl
    have other : ((0x42 : UInt8) == digit) = false := by
      rw [beq_eq_false_iff_ne]
      rintro rfl
      exact absurd numeric (by decide)
    rw [word]
    simp [Line.behind?, Bytes.after?, other]

end ImapDialogue.LineReader
