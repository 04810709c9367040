import ImapDialogue.Proofs.Response.Transcript

/-!
Reading back what a server sends. What it sends is a transcript of what it means, so every record
is found.
-/

namespace ImapDialogue.Response

/-! ## Quoted texts -/

def escapeByte (byte : UInt8) : Bytes :=
  if byte == Byte.quote || byte == Byte.backslash then [Byte.backslash, byte] else [byte]

theorem escaped_bytes (bytes : Bytes) : Escaped bytes (bytes.flatMap escapeByte) := by
  induction bytes with
  | nil => exact .nil
  | cons byte bytes induction =>
      rw [List.flatMap_cons]
      by_cases special : (byte == Byte.quote || byte == Byte.backslash) = true
      · rw [escapeByte, if_pos special]
        exact .marked induction
      · obtain ⟨unquoted, unslashed⟩ := Bool.or_eq_false_iff.mp (Bool.eq_false_iff.mpr special)
        rw [escapeByte, if_neg special]
        exact .bare (beq_eq_false_iff_ne.mp unquoted) (beq_eq_false_iff_ne.mp unslashed) induction

theorem encodeChar_escape (char : Char) :
    (Argument.escape char).flatMap String.utf8EncodeChar =
      (String.utf8EncodeChar char).flatMap escapeByte := by
  by_cases special : char = '"' ∨ char = '\\'
  · rcases special with rfl | rfl <;> rfl
  · have same : Argument.escape char = [char] := by
      rw [Argument.escape, if_neg]
      simpa using special
    have plain : ∀ byte ∈ String.utf8EncodeChar char, escapeByte byte = [byte] := by
      intro byte member
      rw [escapeByte, if_neg]
      intro marked
      apply special
      rcases Utf8.ascii_of_mem_encodeChar member with ⟨value, _⟩ | large
      · rcases Bool.or_eq_true_iff.mp marked with quoted | slashed
        · left
          rw [beq_iff_eq.mp quoted] at value
          exact Char.toNat_inj.mp value.symm
        · right
          rw [beq_iff_eq.mp slashed] at value
          exact Char.toNat_inj.mp value.symm
      · rcases Bool.or_eq_true_iff.mp marked with quoted | slashed
        · rw [beq_iff_eq.mp quoted] at large
          exact absurd large (by decide)
        · rw [beq_iff_eq.mp slashed] at large
          exact absurd large (by decide)
    rw [same, List.flatMap_singleton, List.flatMap_congr plain, List.flatMap_singleton']

theorem encode_escape (text : String) :
    Utf8.encode (String.ofList (text.toList.flatMap Argument.escape)) =
      (Utf8.encode text).flatMap escapeByte := by
  rw [Utf8.encode, Utf8.encode, String.toList_ofList, List.flatMap_assoc, List.flatMap_assoc]
  apply List.flatMap_congr
  intro char _
  exact encodeChar_escape char

theorem phrase_bytes (phrase : Phrase) :
    phrase.bytes =
      Byte.quote :: ((Utf8.encode phrase.text).flatMap escapeByte ++ [Byte.quote]) := by
  rw [← encode_escape, Phrase.bytes, Utf8.encode, Utf8.encode, String.toList_ofList,
    String.toList_ofList, List.flatMap_cons, List.flatMap_append]
  rfl

/-! ## Values -/

theorem spelled_phrase (phrase : Phrase) : ScalarSpelling (.text phrase.text) phrase.bytes := by
  rw [phrase_bytes]
  exact .quoted (escaped_bytes _)

theorem spelled_enclosed (enclosed : Enclosed) :
    ScalarSpelling (.bytes enclosed.data) enclosed.bytes := by
  have short : (Bytes.digits enclosed.data.length).length + false.toNat ≤ 20 := by
    have fits := enclosed.fits
    have closing : (Literal.closing false).length = 3 := rfl
    rw [Literal.length_spelled, Reader.headerLimit, closing] at fits
    rw [Bool.toNat_false]
    omega
  exact .literal false (Bytes.digits_ne_nil _)
    (fun _ member => Bytes.isDigit_of_mem_digits member) short (Bytes.decimal_digits _)

theorem spelled_number (value : Fin Number.exactLimit) :
    ScalarSpelling (.number (.finite (value : Nat))) (Bytes.digits value) := by
  have decimal := Bytes.decimal_digits (value : Nat)
  have spelled := ScalarSpelling.number (Bytes.digits_ne_nil value)
    (fun _ member => Bytes.isDigit_of_mem_digits member) (decimal.trans_lt value.isLt)
  rwa [decimal] at spelled

mutual

theorem spelled_sent : ∀ sent : Sent, ValueSpelling sent.meaning sent.bytes
  | .nil => .scalar (.nil rfl)
  | .number value => .scalar (spelled_number value)
  | .atom word => .scalar (.atom word)
  | .quoted phrase => .scalar (spelled_phrase phrase)
  | .literal enclosed => .scalar (spelled_enclosed enclosed)
  | .list items => .list 0 (spelled_items items)

theorem spelled_items : ∀ items : List Sent,
    ItemsSpelling (Sent.meanings items) (Sent.spaced items)
  | [] => .none
  | [item] => by
      have spelled := ItemsSpelling.last (spelled_sent item) 0
      rwa [spaces, List.replicate_zero, List.append_nil] at spelled
  | item :: next :: others => .more (spelled_sent item) 0 (spelled_items (next :: others))

end

/-! ## Names -/

theorem capital_byte {byte : UInt8}
    (capital : isNameByte byte = true ∨ isSectionByte byte = true ∨ byte = Byte.openBracket ∨
      byte = Byte.closeBracket) : Capital.ofByte byte = [Char.ofNat byte.toNat] := by
  revert capital
  apply Byte.forall_of_numbers _ byte
  decide +kernel

theorem kind_of_name_byte {name : Name} {byte : UInt8} (member : byte ∈ name.bytes) :
    isNameByte byte = true ∨ isSectionByte byte = true ∨ byte = Byte.openBracket ∨
      byte = Byte.closeBracket := by
  rcases List.mem_append.mp member with base | bracketed
  · exact Or.inl (name.capital byte base)
  · right
    cases part : name.part with
    | none => simp [part, Name.bracketed] at bracketed
    | some inner =>
        rw [part, Name.bracketed, List.mem_cons, List.mem_append, List.mem_singleton]
          at bracketed
        rcases bracketed with opening | within | closing
        · exact Or.inr (Or.inl opening)
        · exact Or.inl (name.printable inner part byte within)
        · exact Or.inr (Or.inr closing)

theorem capital_name (name : Name) : Capital.ofBytes name.bytes = name.text := by
  have each : ∀ byte ∈ name.bytes, Capital.ofByte byte = [Char.ofNat byte.toNat] := by
    intro byte member
    exact capital_byte (kind_of_name_byte member)
  rw [Capital.ofBytes, List.flatMap_congr each, Name.text, Bytes.toNarrow, List.map_eq_flatMap]

def Name.label (name : Name) : Label where
  base := name.base
  part := name.part
  filled := name.filled
  visible := by
    intro byte member
    have capital := name.capital byte member
    simp only [isNameByte, Bool.and_eq_true] at capital
    rw [isLabelByte, capital.1.1.1, capital.1.1.2, capital.2]
    rfl
  printable := by
    intro inner part byte member
    have capital := name.printable inner part byte member
    simp only [isSectionByte, isPartByte, List.contains_cons, List.contains_nil, Bool.not_or,
      Bool.and_eq_true] at capital ⊢
    exact ⟨capital.1.1, capital.2.1, capital.2.2.1, rfl⟩

theorem Name.text_label (name : Name) : name.label.text = name.text := by
  rw [← Reader.capital_label]
  exact capital_name name

/-! ## Attributes -/

theorem spelled_attributes (attributes : List (Name × Sent)) :
    AttributesSpelling (attributes.map fun entry => (entry.1.label, entry.2.meaning))
      (Reply.attributeBytes attributes) := by
  induction attributes using Reply.attributeBytes.induct with
  | case1 => exact .none
  | case2 entry =>
      have spelled := AttributesSpelling.last (@rfl _ (entry.1.label.bytes.map Byte.lower)) 0
        (spelled_sent entry.2) 0
      rw [spaces, spaces, List.replicate_zero, List.append_nil] at spelled
      exact spelled
  | case3 entry next others induction =>
      rw [Reply.attributeBytes, Reply.entryBytes, List.append_assoc]
      exact .more (@rfl _ (entry.1.label.bytes.map Byte.lower)) 0 (spelled_sent entry.2) 0
        induction

/-! ## Responses -/

def Reply.head (reply : Reply) : Bytes :=
  Bytes.ofNarrow "* " ++ (Bytes.digits reply.sequence ++ keyword)

theorem Reply.bytes_eq (reply : Reply) :
    reply.bytes = reply.head ++ (Reply.attributeBytes reply.attributes ++
      ([Byte.closeParen] ++ Bytes.crlf)) := by
  have same : Bytes.ofNarrow " FETCH (" = keyword := rfl
  rw [Reply.bytes, Reply.head, same, List.append_assoc, List.append_assoc]
  rfl

def Reply.opening (reply : Reply) : Opening where
  digits := Bytes.digits reply.sequence
  word := keyword
  filled := Bytes.digits_ne_nil _
  numeric := fun _ member => Bytes.isDigit_of_mem_digits member
  spelled := rfl

theorem Reply.record_eq (reply : Reply) :
    reply.record = ⟨.finite (Bytes.decimal reply.opening.digits : Nat),
      .latest ((reply.attributes.map fun entry => (entry.1.label, entry.2.meaning)).map
        fun entry => (entry.1.text, entry.2))⟩ := by
  have settings : (reply.attributes.map fun entry => (entry.1.label, entry.2.meaning)).map
      (fun entry => (entry.1.text, entry.2)) =
      reply.attributes.map fun entry => (entry.1.text, entry.2.meaning) := by
    simp only [List.map_map, Function.comp_def, Name.text_label]
  have distinct : ((reply.attributes.map fun entry =>
      (entry.1.text, entry.2.meaning)).map Prod.fst).Nodup := by
    rw [List.map_map]
    exact reply.distinct
  rw [settings, Attributes.latest_distinct distinct, Reply.record, Reply.opening,
    Bytes.decimal_digits]

/-- What is sent behind whole lines is a transcript, and so is what is sent behind a response. -/
theorem transcript_replies (replies : List Reply) {lines : Bytes} (idle : Idle lines)
    (whole : lines.getLast?.all Byte.isLineEnd = true) :
    Transcript (replies.map Reply.record) (lines ++ replies.flatMap Reply.bytes) := by
  induction replies generalizing lines with
  | nil =>
      rw [List.flatMap_nil, List.append_nil]
      exact .idle idle
  | cons reply others induction =>
      have small : Bytes.decimal reply.opening.digits < Number.exactLimit :=
        (Bytes.decimal_digits _).trans_lt reply.sequence.isLt
      have later := @induction (Byte.closeParen :: Bytes.crlf) (idle_of_no_star (by decide)) rfl
      have text : lines ++ (reply :: others).flatMap Reply.bytes =
          lines ++ (reply.opening.bytes ++ (spaces 0 ++
            (Reply.attributeBytes reply.attributes ++
              Byte.closeParen :: (Bytes.crlf ++ others.flatMap Reply.bytes)))) := by
        rw [List.flatMap_cons, reply.bytes_eq]
        simp only [List.append_assoc]
        rfl
      rw [List.cons_append] at later
      rw [text, List.map_cons, reply.record_eq]
      exact .response idle whole small 0 (spelled_attributes reply.attributes) later

/-- What is sent is read: every record in order, and nothing that cannot be decoded. -/
theorem collect_replies (replies : List Reply) :
    collect (replies.flatMap Reply.bytes) = (replies.map Reply.record, []) :=
  collect_transcript (@transcript_replies replies [] (idle_of_no_star List.not_mem_nil) rfl)

end ImapDialogue.Response
