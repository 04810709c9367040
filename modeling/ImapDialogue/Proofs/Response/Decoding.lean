import ImapDialogue.Proofs.Response.Spelling
import ImapDialogue.Proofs.Response.Steps

/-!
Reading what was written. Every spelling of a value is read up to its own last byte, whatever
follows it, as long as an atom would end there. So all records of a text are found, and no fault,
in whichever of the ways the text is written.
-/

namespace ImapDialogue.Response

namespace Reader

theorem rest_behind {cursor : Cursor} {front tail : Bytes} (full : cursor.rest = front ++ tail) :
    (cursor.advance front.length).rest = tail := by
  rw [Cursor.rest_advance, full, List.drop_left]

/-! ## Spaces -/

theorem skipSpaces_stays {cursor : Cursor} {byte : UInt8} {rest : Bytes}
    (full : cursor.rest = byte :: rest) (visible : byte ≠ Byte.space) :
    cursor.skipSpaces = cursor := by
  have none : (byte :: rest).takeWhile (· == Byte.space) = [] := by
    rw [List.takeWhile_cons_of_neg]
    simpa using visible
  rw [Cursor.skipSpaces, Cursor.skipWhile, full, none]
  rfl

theorem skipSpaces_space {cursor : Cursor} {rest : Bytes}
    (full : cursor.rest = Byte.space :: rest) :
    cursor.skipSpaces = (cursor.advance 1).skipSpaces := by
  have behind : (cursor.advance 1).rest = rest := by
    rw [Cursor.rest_advance, full]
    rfl
  have one : (Byte.space :: rest).takeWhile (· == Byte.space) =
      Byte.space :: rest.takeWhile (· == Byte.space) := by
    rw [List.takeWhile_cons_of_pos]
    rfl
  rw [Cursor.skipSpaces, Cursor.skipWhile, full, one, Cursor.skipSpaces, Cursor.skipWhile,
    behind, Cursor.advance_advance, List.length_cons, Nat.add_comm]

theorem length_spaces (count : Nat) : (spaces count).length = count := List.length_replicate

theorem rest_behind_spaces {cursor : Cursor} {count : Nat} {tail : Bytes}
    (full : cursor.rest = spaces count ++ tail) : (cursor.advance count).rest = tail := by
  have behind := rest_behind full
  rwa [length_spaces] at behind

theorem skipSpaces_spaces {cursor : Cursor} {count : Nat} {tail : Bytes}
    (full : cursor.rest = spaces count ++ tail) :
    cursor.skipSpaces = (cursor.advance count).skipSpaces := by
  induction count generalizing cursor with
  | zero => rfl
  | succ count induction =>
      have first : cursor.rest = Byte.space :: (spaces count ++ tail) := full
      have behind : (cursor.advance 1).rest = spaces count ++ tail := by
        rw [Cursor.rest_advance, first]
        rfl
      rw [skipSpaces_space first, induction behind, Cursor.advance_advance, Nat.add_comm]

abbrev Stops (tail : Bytes) : Prop := tail.head?.any endsAtom = true

theorem stops_between (count : Nat) (tail : Bytes) : Stops (spaces (count + 1) ++ tail) := rfl

theorem stops_behind (count : Nat) (tail : Bytes) :
    Stops (spaces count ++ Byte.closeParen :: tail) := by
  cases count <;> rfl

/-! ## Scalars -/

variable {cursor : Cursor} {tail : Bytes}

theorem atom_bytes {bytes : Bytes} (filled : bytes ≠ [])
    (bare : ∀ byte ∈ bytes, endsAtom byte = false) (stops : Stops tail)
    (full : cursor.rest = bytes ++ tail) :
    atom cursor = .ok (atomValue bytes, cursor.advance bytes.length) := by
  have passes : ∀ byte ∈ bytes, (!endsAtom byte) = true := by
    intro byte member
    rw [bare byte member]
    rfl
  have stopped : tail.takeWhile (!endsAtom ·) = [] := by
    cases tail with
    | nil => rfl
    | cons byte rest =>
        have ends : endsAtom byte = true := stops
        rw [List.takeWhile_cons_of_neg]
        simpa using ends
  have taken : cursor.rest.takeWhile (!endsAtom ·) = bytes := by
    rw [full, List.takeWhile_append_of_pos passes, stopped, List.append_nil]
  have some : bytes.isEmpty = false := by simpa using filled
  simp only [atom, taken, some, Bool.false_eq_true, if_false]

abbrev Bare (byte : UInt8) : Prop :=
  endsAtom byte = false ∧ byte ≠ Byte.quote ∧ byte ≠ Byte.openBrace

theorem scalar_bytes {bytes : Bytes} (filled : bytes ≠ []) (bare : ∀ byte ∈ bytes, Bare byte)
    (stops : Stops tail) (full : cursor.rest = bytes ++ tail) :
    scalar cursor = .ok (atomValue bytes, cursor.advance bytes.length) := by
  have read := atom_bytes filled (fun byte member => (bare byte member).1) stops full
  cases bytes with
  | nil => exact absurd rfl filled
  | cons byte others =>
      obtain ⟨-, unquoted, unbraced⟩ := bare byte List.mem_cons_self
      rw [scalar_eq, full, List.cons_append, List.head?_cons,
        if_neg fun same => unquoted (Option.some.inj same),
        if_neg fun same => unbraced (Option.some.inj same), read]

/-- Bytes of a kind are bare if none of the bytes with a meaning of their own is of that kind. -/
theorem bare_of_test {test : UInt8 → Bool}
    (others : [Byte.space, Byte.openParen, Byte.closeParen, Byte.carriageReturn, Byte.lineFeed,
      Byte.quote, Byte.openBrace].any test = false) {byte : UInt8} (passes : test byte = true) :
    Bare byte := by
  simp only [List.any_cons, List.any_nil, Bool.or_false, Bool.or_eq_false_iff] at others
  obtain ⟨space, opening, closing, carriage, feed, quote, brace⟩ := others
  refine ⟨?_, Byte.ne_of_test passes quote, Byte.ne_of_test passes brace⟩
  rw [endsAtom, Byte.inLine_of_test passes carriage feed]
  simp only [Bool.or_false, Bool.or_eq_false_iff, beq_eq_false_iff_ne]
  exact ⟨⟨Byte.ne_of_test passes space, Byte.ne_of_test passes opening⟩,
    Byte.ne_of_test passes closing⟩

theorem bare_of_digit {byte : UInt8} (digit : Byte.isDigit byte = true) : Bare byte :=
  bare_of_test rfl digit

theorem bare_of_atom {byte : UInt8} (bare : isAtomByte byte = true) : Bare byte :=
  bare_of_test rfl bare

theorem bare_of_letter {byte : UInt8} (letter : Byte.lower byte ∈ Bytes.ofNarrow "nil") :
    Bare byte ∧ Byte.isDigit byte = false := by
  have listed : (Bytes.ofNarrow "nil").contains (Byte.lower byte) = true := by simpa using letter
  refine ⟨@bare_of_test (fun byte => (Bytes.ofNarrow "nil").contains (Byte.lower byte)) rfl byte
    listed, ?_⟩
  by_contra digit
  rw [Bool.not_eq_false] at digit
  rw [Byte.lower_digit digit] at letter
  have apart : ∀ other ∈ Bytes.ofNarrow "nil", Byte.isDigit other = false :=
    Bytes.forall_of_all (by decide)
  rw [apart byte letter] at digit
  cases digit

theorem letters_of_nil {letters : Bytes} (word : letters.map Byte.lower = Bytes.ofNarrow "nil") :
    letters ≠ [] ∧ (∀ byte ∈ letters, Bare byte) ∧ atomValue letters = .nil := by
  have letter : ∀ byte ∈ letters, Bare byte ∧ Byte.isDigit byte = false := by
    intro byte member
    apply bare_of_letter
    rw [← word]
    exact List.mem_map_of_mem member
  cases letters with
  | nil => cases word
  | cons first others =>
      have worded : (first :: others).all Byte.isDigit = false := by
        rw [List.all_cons, (letter first List.mem_cons_self).2, Bool.false_and]
      refine ⟨List.cons_ne_nil _ _, fun byte member => (letter byte member).1, ?_⟩
      rw [atomValue, if_neg (Bool.eq_false_iff.mp worded), if_pos word]

theorem atomValue_digits {digits : Bytes} (numeric : ∀ byte ∈ digits, Byte.isDigit byte = true)
    (exact : Bytes.decimal digits < Number.exactLimit) :
    atomValue digits = .number (.finite (Bytes.decimal digits : Nat)) := by
  rw [atomValue, if_pos (List.all_eq_true.mpr numeric), Number.ofNat_exact exact]

theorem atomValue_word (word : Atom) :
    atomValue word.bytes = .text (Bytes.toNarrow word.bytes) := by
  rw [atomValue, if_neg (Bool.eq_false_iff.mp word.worded), if_neg word.present]

theorem unquote_escaped {bytes written : Bytes} (escaped : Escaped bytes written) (tail : Bytes) :
    unquote (written ++ Byte.quote :: tail) = some (bytes, written.length + 1) := by
  induction escaped with
  | nil =>
      rw [List.nil_append, unquote.eq_def]
      rfl
  | @bare byte bytes written unquoted unslashed others induction =>
      have quote : (byte == Byte.quote) = false := beq_eq_false_iff_ne.mpr unquoted
      have slash : (byte == Byte.backslash) = false := beq_eq_false_iff_ne.mpr unslashed
      rw [List.cons_append, unquote.eq_def]
      simp only [quote, slash, induction, Bool.false_eq_true, if_false, Option.map_some,
        List.length_cons]
  | @marked byte bytes written others induction =>
      have quote : (Byte.backslash == Byte.quote) = false := rfl
      rw [List.cons_append, List.cons_append, unquote.eq_def]
      simp only [quote, induction, BEq.rfl, Bool.false_eq_true, if_false, if_true,
        Option.map_some, List.length_cons]

theorem scalar_quoted {text : String} {written : Bytes}
    (escaped : Escaped (Utf8.encode text) written)
    (full : cursor.rest = Byte.quote :: (written ++ [Byte.quote]) ++ tail) :
    scalar cursor =
      .ok (.text text, cursor.advance (Byte.quote :: (written ++ [Byte.quote])).length) := by
  have parts : cursor.rest = Byte.quote :: (written ++ Byte.quote :: tail) := by
    rw [full, List.cons_append, List.append_assoc, List.singleton_append]
  have length : (Byte.quote :: (written ++ [Byte.quote])).length = written.length + 1 + 1 := by
    rw [List.length_cons, List.length_append, List.length_singleton]
  rw [scalar_eq, parts, List.head?_cons, if_pos rfl, length]
  simp only [quoted, parts, List.drop_one, List.tail_cons, unquote_escaped escaped,
    Utf8.decode_encode]

theorem header?_fits {digits : Bytes} (plus : Bool) (filled : digits ≠ [])
    (numeric : ∀ byte ∈ digits, Byte.isDigit byte = true) (short : digits.length + plus.toNat ≤ 20)
    (tail : Bytes) :
    Literal.header? ((Literal.spelled digits plus ++ tail).take headerLimit) =
      some ⟨digits, (Literal.spelled digits plus).length⟩ := by
  have fits : (Literal.spelled digits plus).length ≤ headerLimit := by
    have closing : (Literal.closing plus).length = 3 + plus.toNat := by cases plus <;> rfl
    rw [Literal.length_spelled, headerLimit, closing]
    omega
  rw [List.take_append, List.take_of_length_le fits]
  exact Literal.header?_spelled filled numeric plus _

theorem scalar_literal {digits data : Bytes} (plus : Bool) (filled : digits ≠ [])
    (numeric : ∀ byte ∈ digits, Byte.isDigit byte = true) (short : digits.length + plus.toNat ≤ 20)
    (size : Bytes.decimal digits = data.length)
    (full : cursor.rest = Literal.spelled digits plus ++ data ++ tail) :
    scalar cursor =
      .ok (.bytes data, cursor.advance (Literal.spelled digits plus ++ data).length) := by
  rw [List.append_assoc] at full
  have begun := header?_fits plus filled numeric short (data ++ tail)
  have braced : cursor.rest.head? = some Byte.openBrace := by
    rw [full]
    rfl
  have taken : (cursor.rest.drop (Literal.spelled digits plus).length).take data.length = data := by
    rw [full, List.drop_left, List.take_left]
  rw [← full] at begun
  rw [scalar_eq, braced, if_neg (by decide), if_pos rfl]
  simp only [literal, begun, Literal.Header.size, size, taken, Nat.lt_irrefl, if_false,
    List.length_append]

theorem scalar_spelled {found : Value} {written : Bytes} (spelled : ScalarSpelling found written)
    (stops : Stops tail) (full : cursor.rest = written ++ tail) :
    scalar cursor = .ok (found, cursor.advance written.length) := by
  cases spelled with
  | nil word =>
      obtain ⟨filled, bare, meant⟩ := letters_of_nil word
      rw [scalar_bytes filled bare stops full, meant]
  | number filled numeric exact =>
      have bare : ∀ byte ∈ written, Bare byte :=
        fun byte member => bare_of_digit (numeric byte member)
      rw [scalar_bytes filled bare stops full, atomValue_digits numeric exact]
  | atom word =>
      have bare : ∀ byte ∈ word.bytes, Bare byte :=
        fun byte member => bare_of_atom (word.bare byte member)
      rw [scalar_bytes word.filled bare stops full, atomValue_word]
  | quoted escaped => exact scalar_quoted escaped full
  | literal plus filled numeric short size =>
      exact scalar_literal plus filled numeric short size full

/-- A value other than a list begins with none of the bytes that have a meaning between values. -/
abbrev Begins (byte : UInt8) : Prop :=
  byte ≠ Byte.space ∧ byte ≠ Byte.openParen ∧ byte ≠ Byte.closeParen

theorem begins_of_bare {byte : UInt8} (bare : Bare byte) : Begins byte := by
  have kept := bare.1
  simp only [endsAtom, Bool.or_eq_false_iff, beq_eq_false_iff_ne] at kept
  exact ⟨kept.1.1.1, kept.1.1.2, kept.1.2⟩

theorem begins_scalar {found : Value} {written : Bytes} (spelled : ScalarSpelling found written) :
    ∃ byte others, written = byte :: others ∧ Begins byte := by
  have begins : written ≠ [] → (∀ byte ∈ written, Bare byte) →
      ∃ byte others, written = byte :: others ∧ Begins byte := by
    intro filled bare
    obtain ⟨byte, others, rfl⟩ := List.exists_cons_of_ne_nil filled
    exact ⟨byte, others, rfl, begins_of_bare (bare byte List.mem_cons_self)⟩
  cases spelled with
  | nil word =>
      obtain ⟨filled, bare, -⟩ := letters_of_nil word
      exact begins filled bare
  | number filled numeric exact =>
      exact begins filled fun byte member => bare_of_digit (numeric byte member)
  | atom word => exact begins word.filled fun byte member => bare_of_atom (word.bare byte member)
  | quoted escaped => exact ⟨_, _, rfl, by decide⟩
  | literal plus filled numeric short size => exact ⟨_, _, rfl, by decide⟩

/-! ## Lists -/

theorem listRest_spaces {outer : List (List Value)} {items : List Value} {count : Nat}
    (full : cursor.rest = spaces count ++ tail) :
    listRest outer items cursor = listRest outer items (cursor.advance count) := by
  rw [listRest_eq, listRest_eq _ _ (cursor.advance count), skipSpaces_spaces full]

theorem listRest_visible (outer : List (List Value)) (items : List Value) {byte : UInt8}
    (full : cursor.rest = byte :: tail) (visible : byte ≠ Byte.space) :
    listRest outer items cursor =
      if byte == Byte.closeParen then
        match outer with
        | [] => .ok (closed items, cursor.advance 1)
        | around :: outer => listRest outer (closed items :: around) (cursor.advance 1)
      else if byte == Byte.openParen then listRest (items :: outer) [] (cursor.advance 1)
      else
        match scalar cursor with
        | .error malformed => .error malformed
        | .ok (value, behind) => listRest outer (value :: items) behind := by
  rw [listRest_eq, skipSpaces_stays full visible, full]
  rfl

theorem listRest_last {items : List Value} (full : cursor.rest = Byte.closeParen :: tail) :
    listRest [] items cursor = .ok (closed items, cursor.advance 1) :=
  listRest_visible [] items full (by decide)

theorem listRest_close {around : List Value} {outer : List (List Value)} {items : List Value}
    (full : cursor.rest = Byte.closeParen :: tail) :
    listRest (around :: outer) items cursor =
      listRest outer (closed items :: around) (cursor.advance 1) :=
  listRest_visible (around :: outer) items full (by decide)

theorem listRest_open {outer : List (List Value)} {items : List Value}
    (full : cursor.rest = Byte.openParen :: tail) :
    listRest outer items cursor = listRest (items :: outer) [] (cursor.advance 1) :=
  listRest_visible outer items full (by decide)

theorem listRest_read {outer : List (List Value)} {items : List Value} {found : Value}
    {behind : Cursor} (read : scalar cursor = .ok (found, behind)) {byte : UInt8}
    (full : cursor.rest = byte :: tail) (begins : Begins byte) :
    listRest outer items cursor = listRest outer (found :: items) behind := by
  obtain ⟨visible, unopened, unclosed⟩ := begins
  rw [listRest_visible outer items full visible, beq_eq_false_iff_ne.mpr unclosed,
    beq_eq_false_iff_ne.mpr unopened, read]
  rfl

theorem listRest_scalar {outer : List (List Value)} {items : List Value} {found : Value}
    {written : Bytes} (spelled : ScalarSpelling found written) (stops : Stops tail)
    (full : cursor.rest = written ++ tail) :
    listRest outer items cursor =
      listRest outer (found :: items) (cursor.advance written.length) := by
  obtain ⟨byte, others, same, begins⟩ := begins_scalar spelled
  have first : cursor.rest = byte :: (others ++ tail) := by
    rw [full, same, List.cons_append]
  exact listRest_read (scalar_spelled spelled stops full) first begins

theorem length_list (lead : Nat) (written : Bytes) :
    (Byte.openParen :: (spaces lead ++ (written ++ [Byte.closeParen]))).length =
      1 + (lead + (written.length + 1)) := by
  rw [List.length_cons, List.length_append, List.length_append, List.length_singleton,
    length_spaces, Nat.add_comm]

theorem rest_inside_list {lead : Nat} {written : Bytes}
    (full : cursor.rest = Byte.openParen :: (spaces lead ++ (written ++ [Byte.closeParen])) ++ tail) :
    (cursor.advance 1).rest = spaces lead ++ (written ++ Byte.closeParen :: tail) := by
  rw [Cursor.rest_advance, full]
  simp only [List.cons_append, List.append_assoc, List.drop_succ_cons, List.drop_zero,
    List.nil_append]

mutual

/-- A value inside a list is read and put in front of the ones before it. -/
theorem listRest_spelled : ∀ {found : Value} {written : Bytes}, ValueSpelling found written →
    ∀ (outer : List (List Value)) (known : List Value) {cursor : Cursor} {tail : Bytes},
      Stops tail → cursor.rest = written ++ tail →
      listRest outer known cursor =
        listRest outer (found :: known) (cursor.advance written.length)
  | _, _, .scalar simple, _, _, _, _, stops, full => listRest_scalar simple stops full
  | _, _, .list lead inside, outer, known, cursor, tail, _, full => by
      -- The list around this one waits in `outer` while the items of this one are read.
      have entered := rest_inside_list full
      have first := rest_behind_spaces entered
      have read := listRest_items inside (known :: outer) [] first
      rw [listRest_open full, listRest_spaces entered, read, listRest_close (rest_behind first),
        closed, List.append_nil, List.reverse_reverse, Cursor.advance_advance,
        Cursor.advance_advance, Cursor.advance_advance, length_list]

theorem listRest_items : ∀ {items : List Value} {written : Bytes}, ItemsSpelling items written →
    ∀ (outer : List (List Value)) (known : List Value) {cursor : Cursor} {tail : Bytes},
      cursor.rest = written ++ Byte.closeParen :: tail →
      listRest outer known cursor =
        listRest outer (items.reverse ++ known) (cursor.advance written.length)
  | _, _, .none, _, _, _, _, _ => rfl
  | _, _, .last spelled behind, outer, known, cursor, tail, full => by
      rw [List.append_assoc] at full
      have read := listRest_spelled spelled outer known (stops_behind behind tail) full
      rw [read, listRest_spaces (rest_behind full), Cursor.advance_advance, List.length_append,
        length_spaces]
      rfl
  | _, _, @ItemsSpelling.more item next others written rest spelled between inside, outer, known,
      cursor, tail, full => by
      rw [List.append_assoc, List.append_assoc] at full
      have read := listRest_spelled spelled outer known (stops_between between _) full
      have spaced := rest_behind full
      have later := listRest_items inside outer (item :: known) (rest_behind_spaces spaced)
      have meant : (item :: next :: others).reverse ++ known =
          (next :: others).reverse ++ item :: known := by
        rw [List.reverse_cons, List.append_assoc, List.singleton_append]
      rw [read, listRest_spaces spaced, later, Cursor.advance_advance, Cursor.advance_advance,
        List.length_append, List.length_append, length_spaces, meant]

end

theorem value_spelled {found : Value} {written : Bytes} (spelled : ValueSpelling found written)
    (stops : Stops tail) (full : cursor.rest = written ++ tail) :
    value cursor = .ok (found, cursor.advance written.length) := by
  cases spelled with
  | scalar simple =>
      obtain ⟨byte, others, same, visible, unopened, unclosed⟩ := begins_scalar simple
      have begun : cursor.rest.head? = some byte := by
        rw [full, same]
        rfl
      rw [value_eq, begun, if_neg fun opened => unopened (Option.some.inj opened),
        scalar_spelled simple stops full]
  | list lead inside =>
      have entered := rest_inside_list full
      have first := rest_behind_spaces entered
      have opened : cursor.rest.head? = some Byte.openParen := by
        rw [full]
        rfl
      rw [value_eq, opened, if_pos rfl, listRest_spaces entered, listRest_items inside [] [] first,
        listRest_last (rest_behind first), closed, List.append_nil, List.reverse_reverse,
        Cursor.advance_advance, Cursor.advance_advance, Cursor.advance_advance, length_list]

/-! ## Names -/

def Continues (depth : Int) (byte : UInt8) : Prop :=
  byte ≠ Byte.openBracket ∧ byte ≠ Byte.closeBracket ∧ Byte.isLineEnd byte = false ∧
    (depth = 0 → byte ≠ Byte.space ∧ byte ≠ Byte.closeParen)

theorem nameLength_append {depth : Int} {bytes : Bytes}
    (continued : ∀ byte ∈ bytes, Continues depth byte) (rest : Bytes) :
    nameLength depth (bytes ++ rest) = nameLength depth rest + bytes.length := by
  induction bytes with
  | nil => rfl
  | cons byte bytes induction =>
      obtain ⟨unopened, unclosed, inLine, ends⟩ := continued byte List.mem_cons_self
      have later := induction fun other member => continued other (List.mem_cons_of_mem _ member)
      have stops : (decide (depth = 0) && (byte == Byte.space || byte == Byte.closeParen)) =
          false := by
        rw [Bool.and_eq_false_iff]
        by_cases top : depth = 0
        · right
          rw [Bool.or_eq_false_iff, beq_eq_false_iff_ne, beq_eq_false_iff_ne]
          exact ends top
        · left
          exact decide_eq_false top
      rw [List.cons_append, nameLength, if_neg (by simpa using unopened),
        if_neg (by simpa using unclosed), stops, inLine, later, List.length_cons]
      rfl

theorem continues_of_label_byte {byte : UInt8} (visible : isLabelByte byte = true) :
    Continues 0 byte :=
  ⟨Byte.ne_of_test visible rfl, Byte.ne_of_test visible rfl, Byte.inLine_of_test visible rfl rfl,
    fun _ => ⟨Byte.ne_of_test visible rfl, Byte.ne_of_test visible rfl⟩⟩

theorem continues_of_part_byte {byte : UInt8} (printable : isPartByte byte = true) :
    Continues 1 byte :=
  ⟨Byte.ne_of_test printable rfl, Byte.ne_of_test printable rfl,
    Byte.inLine_of_test printable rfl rfl, fun top => absurd top (by decide)⟩

theorem nameLength_bracketed {part : Option Bytes}
    (printable : ∀ inner, part = some inner → ∀ byte ∈ inner, isPartByte byte = true)
    (rest : Bytes) :
    nameLength 0 (Name.bracketed part ++ rest) =
      nameLength 0 rest + (Name.bracketed part).length := by
  cases part with
  | none => rfl
  | some inner =>
      have inside := nameLength_append
        (fun byte member => continues_of_part_byte (printable inner rfl byte member))
        (Byte.closeBracket :: rest)
      have opens : nameLength 0 (Byte.openBracket :: (inner ++ Byte.closeBracket :: rest)) =
          nameLength 1 (inner ++ Byte.closeBracket :: rest) + 1 := rfl
      have closes : nameLength 1 (Byte.closeBracket :: rest) = nameLength 0 rest + 1 := rfl
      simp only [Name.bracketed, List.cons_append, List.append_assoc, List.nil_append,
        List.length_cons, List.length_append, List.length_nil]
      rw [opens, inside, closes]
      omega

abbrev EndsName (tail : Bytes) : Prop :=
  tail.head?.any (fun byte => byte == Byte.space || byte == Byte.closeParen) = true

theorem endsName_between (count : Nat) (tail : Bytes) : EndsName (spaces (count + 1) ++ tail) := rfl

theorem endsName_behind (count : Nat) (tail : Bytes) :
    EndsName (spaces count ++ Byte.closeParen :: tail) := by
  cases count <;> rfl

theorem nameLength_label (label : Label) (ends : EndsName tail) :
    nameLength 0 (label.bytes ++ tail) = label.bytes.length := by
  have base := nameLength_append
    (fun byte member => continues_of_label_byte (label.visible byte member))
    (Name.bracketed label.part ++ tail)
  have last : nameLength 0 tail = 0 := by
    cases tail with
    | nil => rfl
    | cons byte others =>
        rcases Bool.or_eq_true_iff.mp ends with space | closing
        · rw [beq_iff_eq.mp space]
          rfl
        · rw [beq_iff_eq.mp closing]
          rfl
  rw [Label.bytes, List.append_assoc, base, nameLength_bracketed label.printable, last,
    List.length_append]
  omega

theorem nameLength_lower (depth : Int) (bytes : Bytes) :
    nameLength depth (bytes.map Byte.lower) = nameLength depth bytes := by
  induction bytes generalizing depth with
  | nil => rfl
  | cons byte bytes induction =>
      have opening : (Byte.lower byte == Byte.openBracket) = (byte == Byte.openBracket) :=
        Byte.lower_beq rfl byte
      have closing : (Byte.lower byte == Byte.closeBracket) = (byte == Byte.closeBracket) :=
        Byte.lower_beq rfl byte
      have space : (Byte.lower byte == Byte.space) = (byte == Byte.space) := Byte.lower_beq rfl byte
      have parenthesis : (Byte.lower byte == Byte.closeParen) = (byte == Byte.closeParen) :=
        Byte.lower_beq rfl byte
      simp only [List.map_cons, nameLength, opening, closing, space, parenthesis,
        Byte.isLineEnd_lower, induction]

/-- Capitals do not depend on the case of letters, and those of ASCII are the usual ones. -/
theorem capital_byte (byte : UInt8) :
    Capital.ofByte (Byte.lower byte) = Capital.ofByte byte ∧
      (byte ≤ 0x7E → Capital.ofByte byte = [(Char.ofNat byte.toNat).toUpper]) := by
  revert byte
  apply Byte.forall_of_numbers
  decide +kernel

theorem capital_lower (bytes : Bytes) :
    Capital.ofBytes (bytes.map Byte.lower) = Capital.ofBytes bytes := by
  have same : ∀ byte : UInt8, Capital.ofByte (Byte.lower byte) = Capital.ofByte byte :=
    fun byte => (capital_byte byte).1
  rw [Capital.ofBytes, Capital.ofBytes, List.flatMap_map]
  simp only [same]

theorem ascii_label {label : Label} {byte : UInt8} (member : byte ∈ label.bytes) :
    byte ≤ 0x7E := by
  rcases List.mem_append.mp member with inBase | bracketed
  · have visible := label.visible byte inBase
    simp only [isLabelByte, Bool.and_eq_true, decide_eq_true_eq] at visible
    exact visible.1.2
  · cases part : label.part with
    | none => simp [part, Name.bracketed] at bracketed
    | some bytes =>
        rw [part, Name.bracketed, List.mem_cons, List.mem_append, List.mem_singleton] at bracketed
        rcases bracketed with rfl | within | rfl
        · decide
        · have printable := label.printable bytes part byte within
          simp only [isPartByte, Bool.and_eq_true, decide_eq_true_eq] at printable
          exact printable.1.2
        · decide

theorem capital_label (label : Label) : Capital.ofBytes label.bytes = label.text := by
  have each : ∀ byte ∈ label.bytes, Capital.ofByte byte = [(Char.ofNat byte.toNat).toUpper] :=
    fun byte member => (capital_byte byte).2 (ascii_label member)
  apply String.toList_inj.mp
  rw [Capital.ofBytes, String.toList_ofList, List.flatMap_congr each, Label.text, String.toUpper,
    String.toList_map, Bytes.toNarrow, String.toList_ofList, List.map_map, List.map_eq_flatMap]
  rfl

theorem name_spelled {label : Label} {written : Bytes} (named : label.Spelled written)
    (ends : EndsName tail) (full : cursor.rest = written ++ tail) :
    name cursor = .ok (label.text, cursor.advance written.length) := by
  have same : written.length = label.bytes.length := by
    have lengths := congrArg List.length named
    rwa [List.length_map, List.length_map] at lengths
  have length : nameLength 0 cursor.rest = written.length := by
    rw [full, ← nameLength_lower, List.map_append, named, ← List.map_append, nameLength_lower,
      nameLength_label label ends, same]
  have filled : written.length ≠ 0 := by
    have some := List.length_pos_iff.mpr label.filled
    rw [same, Label.bytes, List.length_append]
    omega
  have followed : (cursor.advance written.length).rest ≠ [] := by
    rw [rest_behind full]
    rintro rfl
    cases ends
  have text : Capital.ofBytes written = label.text := by
    rw [← capital_lower, named, capital_lower, capital_label]
  rw [name_eq, length, if_neg (by simp only [filled, followed, or_self, not_false_eq_true]), full,
    List.take_left, text]

/-! ## Attributes -/

theorem head_spelled {found : Value} {written : Bytes} (spelled : ValueSpelling found written) :
    ∃ byte others, written = byte :: others ∧ byte ≠ Byte.space ∧ byte ≠ Byte.closeParen := by
  cases spelled with
  | scalar simple =>
      obtain ⟨byte, others, same, begins⟩ := begins_scalar simple
      exact ⟨byte, others, same, begins.1, begins.2.2⟩
  | list lead inside => exact ⟨_, _, rfl, by decide⟩

theorem head_label {label : Label} {written : Bytes} (named : label.Spelled written) :
    ∃ byte others, written = byte :: others ∧ byte ≠ Byte.space ∧ byte ≠ Byte.closeParen := by
  obtain ⟨first, more, base⟩ := List.exists_cons_of_ne_nil label.filled
  have visible := label.visible first (by rw [base]; exact List.mem_cons_self)
  rw [Label.Spelled, Label.bytes, base] at named
  cases written with
  | nil => cases named
  | cons byte others =>
      have same : Byte.lower byte = Byte.lower first := (List.cons.inj named).1
      have kept : ∀ other : UInt8, Byte.isWord other = false → isLabelByte other = false →
          byte ≠ other := by
        intro other marked hidden
        rw [← beq_eq_false_iff_ne, ← Byte.lower_beq marked, same, Byte.lower_beq marked,
          beq_eq_false_iff_ne]
        exact Byte.ne_of_test visible hidden
      exact ⟨byte, others, rfl, kept Byte.space rfl rfl, kept Byte.closeParen rfl rfl⟩

theorem valueAfterName_spelled {found : Value} {written : Bytes}
    (spelled : ValueSpelling found written) {between : Nat} (stops : Stops tail)
    (full : cursor.rest = spaces between ++ (written ++ tail)) :
    valueAfterName cursor = .ok (found, cursor.advance (between + written.length)) := by
  have inside := rest_behind_spaces full
  obtain ⟨byte, others, same, visible, unclosed⟩ := head_spelled spelled
  have first : (cursor.advance between).rest = byte :: (others ++ tail) := by
    rw [inside, same, List.cons_append]
  rw [valueAfterName_eq, skipSpaces_spaces full, skipSpaces_stays first visible, first,
    List.head?_cons, if_neg fun closed => unclosed (Option.some.inj closed),
    value_spelled spelled stops inside, Cursor.advance_advance]

theorem valueAfterName_none {behind : Nat}
    (full : cursor.rest = spaces behind ++ Byte.closeParen :: tail) :
    valueAfterName cursor = .ok (.nil, cursor.advance behind) := by
  have inside := rest_behind_spaces full
  rw [valueAfterName_eq, skipSpaces_spaces full, skipSpaces_stays inside (by decide), inside,
    List.head?_cons, if_pos rfl]

theorem attributesFrom_spaces {known : Attributes} {count : Nat}
    (full : cursor.rest = spaces count ++ tail) :
    attributesFrom known cursor = attributesFrom known (cursor.advance count) := by
  rw [attributesFrom_eq, attributesFrom_eq _ (cursor.advance count), skipSpaces_spaces full]

theorem attributesFrom_close {known : Attributes} (full : cursor.rest = Byte.closeParen :: tail) :
    attributesFrom known cursor = .ok (known, cursor.advance 1) := by
  rw [attributesFrom_eq, skipSpaces_stays full (by decide), full, List.head?_cons, if_pos rfl]

theorem attributesFrom_name {known : Attributes} {label : Label} {name : Bytes}
    (named : label.Spelled name) (ends : EndsName tail) (full : cursor.rest = name ++ tail)
    {found : Value} {behind : Cursor}
    (read : valueAfterName (cursor.advance name.length) = .ok (found, behind)) :
    attributesFrom known cursor = attributesFrom (known.set label.text found) behind := by
  obtain ⟨byte, others, same, visible, unclosed⟩ := head_label named
  have first : cursor.rest = byte :: (others ++ tail) := by
    rw [full, same, List.cons_append]
  rw [attributesFrom_eq, skipSpaces_stays first visible, name_spelled named ends full, first,
    List.head?_cons, if_neg fun closed => unclosed (Option.some.inj closed)]
  simp only [read]

theorem attributesFrom_spelled {settings : List (Label × Value)} {written : Bytes}
    (spelled : AttributesSpelling settings written) (known : Attributes)
    (full : cursor.rest = written ++ Byte.closeParen :: tail) :
    attributesFrom known cursor =
      .ok (settings.foldl (fun known entry => known.set entry.1.text entry.2) known,
        cursor.advance (written.length + 1)) := by
  induction spelled generalizing known cursor with
  | none => exact attributesFrom_close full
  | @bare label name named behind =>
      rw [List.append_assoc] at full
      have unvalued := rest_behind full
      have read := valueAfterName_none unvalued
      rw [attributesFrom_name named (endsName_behind behind tail) full read,
        attributesFrom_close (rest_behind_spaces unvalued), Cursor.advance_advance,
        Cursor.advance_advance, List.length_append, length_spaces, Nat.add_assoc]
      rfl
  | @last label value name written named between spelled behind =>
      simp only [List.append_assoc] at full
      have valued := rest_behind full
      have read := valueAfterName_spelled spelled (stops_behind behind tail) valued
      have ended : ((cursor.advance name.length).advance (between + 1 + written.length)).rest =
          spaces behind ++ Byte.closeParen :: tail := by
        rw [← Cursor.advance_advance]
        exact rest_behind (rest_behind_spaces valued)
      rw [attributesFrom_name named (endsName_between between _) full read,
        attributesFrom_spaces ended, attributesFrom_close (rest_behind_spaces ended)]
      simp only [Cursor.advance_advance, List.length_append, length_spaces, Nat.add_assoc]
      rfl
  | @more label value next others name written rest named between spelled between' inside
      induction =>
      simp only [List.append_assoc] at full
      have valued := rest_behind full
      have read := valueAfterName_spelled spelled (stops_between between' _) valued
      have spaced : ((cursor.advance name.length).advance (between + 1 + written.length)).rest =
          spaces (between' + 1) ++ (rest ++ Byte.closeParen :: tail) := by
        rw [← Cursor.advance_advance]
        exact rest_behind (rest_behind_spaces valued)
      rw [attributesFrom_name named (endsName_between between _) full read,
        attributesFrom_spaces spaced, induction _ (rest_behind_spaces spaced)]
      simp only [Cursor.advance_advance, List.length_append, length_spaces, Nat.add_assoc]
      rfl

end Reader

end ImapDialogue.Response
