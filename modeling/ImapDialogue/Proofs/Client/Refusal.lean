import ImapDialogue.Proofs.Client.Tally
import ImapDialogue.Proofs.Command.Closing
import ImapDialogue.Proofs.Search.Skipping
import ImapDialogue.Proofs.Wire.Digits
import Mathlib.Data.List.DropRight

/-!
How a command fails by an answer. Such an answer is a complete line outside of literals, with a tag
and a word in front of what else it says. Its status is what stands between its first two spaces,
which is more than the word where the line goes on with anything but white space behind that.
-/

namespace ImapDialogue

open Pattern (Closes)

/-! ## What is taken -/

section Taken

variable {patterns : List Pattern} {data rest : Bytes} {found : Match}
  (comes : Comes patterns data (.ok found) rest)

include comes

theorem Comes.occurs : found.before ++ found.text ++ rest = data ∧
    Search.Occurs (Literal.inside (Literal.regions data)) patterns data found.index
      found.before.length found.text.length := by
  cases comes with
  | found leads => exact Search.first_occurs leads

theorem Comes.outside (further : Bytes) :
    Literal.inside (Literal.regions (found.before ++ found.text ++ further)) found.before.length =
      false := by
  obtain ⟨parts, occurs⟩ := comes.occurs
  have within : found.before.length ≤ (found.before ++ found.text).length := by
    rw [List.length_append]
    exact Nat.le_add_right _ _
  have free := occurs.free
  rw [← parts, Literal.inside_regions_append _ _ within] at free
  rw [Literal.inside_regions_append _ _ within, free]

theorem Comes.matched : ∃ pattern, patterns[found.index]? = some pattern ∧
    pattern.probe.lengthAt ⟨found.before.length, found.before.getLast?, found.text ++ rest⟩ =
      some found.text.length := by
  obtain ⟨parts, pattern, listed, matched⟩ := comes.occurs.imp id (·.matched)
  have place : (Cursor.start data).advance found.before.length =
      ⟨found.before.length, found.before.getLast?, found.text ++ rest⟩ := by
    rw [← parts, List.append_assoc, Cursor.start, Cursor.advance_length, Option.or_none,
      Nat.zero_add]
  exact ⟨pattern, listed, place ▸ matched⟩

theorem Comes.fed (closes : ∀ pattern ∈ patterns, Closes pattern) : Bytes.Fed found.text := by
  obtain ⟨pattern, listed, matched⟩ := comes.matched
  have fed := closes pattern (List.mem_of_getElem? listed) _ _ matched
  rwa [List.take_left] at fed

end Taken

/-- Whatever the marker is, an answer that fails the command with a number is a complete line, and a
refusal of this command or a farewell. -/
theorem Comes.refusal {number : Nat} {marker : String} {data rest : Bytes} {found : Match}
    (comes : Comes (Command.answers (toString number) marker) data (.ok found) rest)
    (fails : found.index ≠ 0) :
    Line.BeginsBehind found.before ∧ ∃ line ending, Line.Plain line ∧ Line.Ending ending ∧
      found.text = line ++ ending ∧
      (Command.refuses (Bytes.digits number) line || Command.parts line) = true := by
  obtain ⟨pattern, listed, matched⟩ := comes.matched
  rw [← Bytes.toNarrow_digits] at listed
  match index : found.index, fails with
  | 1, _ =>
      rw [index] at listed
      cases listed
      obtain ⟨begins, line, ending, plain, ends, text, refuses⟩ :=
        (Command.recognizes_refusal (Command.plain_digits number)).line matched
      exact ⟨begins, line, ending, plain, ends, text, by rw [refuses, Bool.true_or]⟩
  | 2, _ =>
      rw [index] at listed
      cases listed
      obtain ⟨begins, line, ending, plain, ends, text, parts⟩ :=
        Command.recognizes_farewell.line matched
      exact ⟨begins, line, ending, plain, ends, text, by rw [parts, Bool.or_true]⟩
  | past + 3, _ =>
      rw [index] at listed
      cases listed

theorem Line.beginsBehind_append {front back : Bytes} (begins : BeginsBehind front)
    (begins' : BeginsBehind back) : BeginsBehind (front ++ back) := by
  rw [BeginsBehind, List.getLast?_append]
  cases last : back.getLast? with
  | none => exact begins
  | some byte =>
      rw [BeginsBehind, last] at begins'
      exact begins'

theorem Line.beginsBehind_of_fed {bytes : Bytes} (fed : bytes.Fed) : BeginsBehind bytes := by
  obtain ⟨front, rfl⟩ := fed
  rw [BeginsBehind, List.getLast?_concat]
  rfl

section Tallied

variable {settings : Settings} {next : Nat} {issued : List Issue} {taken : List Taking}
  {completed : List Completion}

theorem Owed.closes {ticket : Nat} {task : Task} {patterns : List Pattern}
    (owed : Owed settings issued ticket task patterns) : ∀ pattern ∈ patterns, Closes pattern := by
  cases owed with
  | greeting => exact Command.closes_greetings
  | command issues => exact Command.closes_answers _ _

theorem Taking.Leads.fed {taking : Taking} (leads : taking.Leads settings issued) :
    taking.found.text.Fed := by
  obtain ⟨task, patterns, data, rest, owed, comes⟩ := leads
  exact comes.fed owed.closes

theorem beginsBehind_consumed (leads : ∀ taking ∈ taken, taking.Leads settings issued) :
    Line.BeginsBehind (consumed taken) := by
  induction taken with
  | nil => rfl
  | cons taking others induction =>
      have later := induction fun other member => leads other (List.mem_cons_of_mem taking member)
      obtain ⟨front, text⟩ := (leads taking List.mem_cons_self).fed
      have fed : Bytes.Fed (taking.found.before ++ taking.found.text) :=
        ⟨taking.found.before ++ front, by rw [text, List.append_assoc]⟩
      exact Line.beginsBehind_append (Line.beginsBehind_of_fed fed) later

theorem Tally.refused (tally : Tally settings next issued taken completed) {place : Nat}
    {issue : Issue} (issues : issued[place]? = some issue) {completion : Completion}
    (ended : completion ∈ completed) (same : completion.ticket = issue.ticket)
    {failure : Failure} (fails : completion.result = .error failure)
    (answer : failure.isAnswer = true) :
    ∃ found, ⟨issue.ticket, found⟩ ∈ taken ∧ found.index ≠ 0 ∧
      failure = Client.failedCommand found := by
  have fair := tally.fair completion ended
    (List.mem_map.mpr ⟨issue, List.mem_of_getElem? issues, same.symm⟩)
  cases fair with
  | success took completes => cases fails
  | refusal took refuses =>
      cases fails
      cases same
      exact ⟨_, took, refuses, rfl⟩
  | silence silent nothing =>
      cases fails
      rw [silent] at answer
      cases answer

end Tallied

/-! ## Words of a line -/

/-- The first part reaches up to the first separator, and the others are those of what is behind. -/
theorem Parts.between_append {α : Type} [BEq α] [LawfulBEq α] {separator : α} {word : List α}
    (whole : separator ∉ word) (rest : List α) :
    between separator (word ++ separator :: rest) = word :: between separator rest := by
  induction word with
  | nil => simp [between]
  | cons item word induction =>
      rw [List.mem_cons, not_or] at whole
      have apart : (item == separator) = false := beq_eq_false_iff_ne.mpr (Ne.symm whole.1)
      rw [List.cons_append, between, apart, induction whole.2]
      rfl

theorem Parts.head_between {α : Type} [BEq α] [LawfulBEq α] (separator : α) (items : List α) :
    ∃ others, between separator items = items.takeWhile (· != separator) :: others := by
  induction items with
  | nil => exact ⟨[], rfl⟩
  | cons item items induction =>
      obtain ⟨others, parts⟩ := induction
      cases same : item == separator with
      | true => exact ⟨between separator items, by simp [between, same, bne]⟩
      | false => exact ⟨others, by simp [between, same, parts, bne]⟩

theorem Byte.not_blank_of_digit {byte : UInt8} (digit : isDigit byte = true) :
    isBlank byte = false := by
  revert digit
  apply forall_of_numbers _ byte
  decide +kernel

namespace Bytes

def trimEnd (bytes : Bytes) : Bytes := bytes.rdropWhile Byte.isBlank

theorem trimEnd_append_blank (bytes : Bytes) {blank : Bytes}
    (all : ∀ byte ∈ blank, Byte.isBlank byte = true) : trimEnd (bytes ++ blank) = trimEnd bytes := by
  rw [trimEnd, trimEnd, List.rdropWhile, List.rdropWhile, List.reverse_append,
    List.dropWhile_append_of_pos]
  intro byte member
  exact all byte (List.mem_reverse.mp member)

theorem trimEnd_append {front : Bytes} (filled : front.getLast?.any (!Byte.isBlank ·) = true)
    (rest : Bytes) : trimEnd (front ++ rest) = front ++ trimEnd rest := by
  induction rest using List.reverseRecOn with
  | nil =>
      rw [List.append_nil, trimEnd, trimEnd, List.rdropWhile_nil, List.append_nil,
        List.rdropWhile_eq_self_iff]
      intro some
      rw [List.getLast?_eq_some_getLast some, Option.any_some] at filled
      simpa using filled
  | append_singleton rest byte induction =>
      rw [trimEnd, trimEnd] at induction ⊢
      rw [← List.append_assoc, List.rdropWhile_concat, List.rdropWhile_concat, induction]
      split
      · rfl
      · exact List.append_assoc _ _ _

/-- White space is not trimmed away in front of anything else. -/
theorem trim_append {front : Bytes} (first : front.head?.any (!Byte.isBlank ·) = true)
    (last : front.getLast?.any (!Byte.isBlank ·) = true) (rest : Bytes) :
    trim (front ++ rest) = front ++ trimEnd rest := by
  have kept : (front ++ rest).dropWhile Byte.isBlank = front ++ rest := by
    cases front with
    | nil => cases first
    | cons byte front => exact List.dropWhile_cons_of_neg (by simpa using first)
  rw [trim, kept]
  exact trimEnd_append last rest

theorem toNarrow_append (front rest : Bytes) :
    toNarrow (front ++ rest) = toNarrow front ++ toNarrow rest := by
  rw [toNarrow, List.map_append, String.ofList_append]
  rfl

theorem length_toNarrow (bytes : Bytes) : (toNarrow bytes).length = bytes.length := by
  rw [toNarrow, String.length_ofList, List.length_map]

end Bytes

/-! ## Answers that fail a command -/

inductive Denial (number : Nat) : String → String → Prop
  | no : Denial number (toString number) "NO"
  | bad : Denial number (toString number) "BAD"
  | bye : Denial number "*" "BYE"

def Denial.lead (tag word : String) : Bytes :=
  Bytes.ofNarrow tag ++ Byte.space :: Bytes.ofNarrow word

variable {number : Nat} {tag word : String} {line tail : Bytes}

/-- Behind the lead of a line nothing follows that the word could go on with. -/
theorem Command.denial_of_fails
    (fails : (refuses (Bytes.digits number) line || parts line) = true) :
    ∃ tag word tail, Denial number tag word ∧ line = Denial.lead tag word ++ tail ∧
      tail.head?.any Byte.isWord = false := by
  have behind : ∀ lead : Bytes, (Line.behind? lead line).isSome = true →
      ∃ tail, line = lead ++ tail ∧ tail.head?.any Byte.isWord = false := by
    intro lead begins
    obtain ⟨tail, found⟩ := Option.isSome_iff_exists.mp begins
    obtain ⟨after, apart⟩ := Option.filter_eq_some_iff.mp found
    exact ⟨tail, Bytes.append_of_after? after, by simpa using apart⟩
  rw [refuses, parts, Bool.or_eq_true, Bool.or_eq_true] at fails
  rcases fails with (no | bad) | bye
  · obtain ⟨tail, same, apart⟩ := behind _ no
    exact ⟨_, _, tail, .no, same, apart⟩
  · obtain ⟨tail, same, apart⟩ := behind _ bad
    exact ⟨_, _, tail, .bad, same, apart⟩
  · obtain ⟨tail, same, apart⟩ := behind _ bye
    exact ⟨_, _, tail, .bye, same, apart⟩

section Denied

variable (denial : Denial number tag word)

include denial

theorem Denial.cases :
    (tag = "*" ∨ tag = toString number) ∧ (word = "NO" ∨ word = "BAD" ∨ word = "BYE") := by
  cases denial <;> simp

theorem Denial.tag_bytes : Bytes.toNarrow (Bytes.ofNarrow tag) = tag ∧
    Byte.space ∉ Bytes.ofNarrow tag ∧
    (Bytes.ofNarrow tag).head?.any (!Byte.isBlank ·) = true := by
  rcases denial.cases.1 with rfl | rfl
  · exact ⟨rfl, by decide, rfl⟩
  · refine ⟨Bytes.toNarrow_digits number, ?_, ?_⟩
    · intro member
      exact absurd (Bytes.isDigit_of_mem_digits member) (by decide)
    · obtain ⟨first, others, digits⟩ := List.exists_cons_of_ne_nil (Bytes.digits_ne_nil number)
      have member : first ∈ Bytes.digits number := digits ▸ List.mem_cons_self
      have bare := Byte.not_blank_of_digit (Bytes.isDigit_of_mem_digits member)
      have head : (Bytes.ofNarrow (toString number)).head? = some first :=
        congrArg List.head? digits
      rw [head, Option.any_some, bare]
      rfl

theorem Denial.word_bytes : Bytes.toNarrow (Bytes.ofNarrow word) = word ∧
    Byte.space ∉ Bytes.ofNarrow word ∧
    (Bytes.ofNarrow word).getLast?.any (!Byte.isBlank ·) = true := by
  rcases denial.cases.2 with rfl | rfl | rfl <;> exact ⟨rfl, by decide, rfl⟩

/-- A line that fails a command, without the white space around it. -/
theorem Denial.trim (tail : Bytes) :
    Bytes.trim (lead tag word ++ tail) = lead tag word ++ Bytes.trimEnd tail := by
  obtain ⟨_, _, first⟩ := denial.tag_bytes
  obtain ⟨_, _, last⟩ := denial.word_bytes
  apply Bytes.trim_append
  · rw [lead, List.head?_append]
    cases head : (Bytes.ofNarrow tag).head? with
    | none => simp [head] at first
    | some byte => simpa [head] using first
  · rw [lead, List.getLast?_append, List.getLast?_cons]
    cases final : (Bytes.ofNarrow word).getLast? with
    | none => simp [final] at last
    | some byte => simpa [final] using last

theorem Denial.narrow (rest : Bytes) :
    Bytes.toNarrow (lead tag word ++ rest) = tag ++ " " ++ word ++ Bytes.toNarrow rest := by
  have parts : lead tag word = Bytes.ofNarrow tag ++ ([Byte.space] ++ Bytes.ofNarrow word) := rfl
  rw [parts, Bytes.toNarrow_append, Bytes.toNarrow_append, Bytes.toNarrow_append,
    denial.tag_bytes.1, denial.word_bytes.1, ← String.append_assoc]
  rfl

/-- The failure tells the tag, and for the status the word with all that follows it up to the next
space. -/
theorem Client.failedCommand_of_denial {found : Match} {ending : Bytes} (ends : Line.Ending ending)
    (text : found.text = Denial.lead tag word ++ tail ++ ending) :
    failedCommand found = .commandFailed tag
      (word ++ Bytes.toNarrow ((Bytes.trimEnd tail).takeWhile (· != Byte.space)))
      (tag ++ " " ++ word ++ Bytes.toNarrow (Bytes.trimEnd tail)) := by
  have blank : ∀ byte ∈ ending, Byte.isBlank byte = true := by
    cases ends <;> exact Bytes.forall_of_all rfl
  obtain ⟨tag', whole, _⟩ := denial.tag_bytes
  obtain ⟨word', whole', _⟩ := denial.word_bytes
  have line : Bytes.trim found.text = Denial.lead tag word ++ Bytes.trimEnd tail := by
    rw [text, List.append_assoc, denial.trim, Bytes.trimEnd_append_blank tail blank]
  obtain ⟨others, words⟩ := Parts.head_between Byte.space
    (Bytes.ofNarrow word ++ Bytes.trimEnd tail)
  have inWord : ∀ byte ∈ Bytes.ofNarrow word, (byte != Byte.space) = true := by
    intro byte member
    exact bne_iff_ne.mpr fun same => whole' (same ▸ member)
  rw [List.takeWhile_append_of_pos inWord] at words
  have split : Bytes.splitSpaces (Denial.lead tag word ++ Bytes.trimEnd tail) =
      Bytes.ofNarrow tag ::
        (Bytes.ofNarrow word ++ (Bytes.trimEnd tail).takeWhile (· != Byte.space)) :: others := by
    rw [Bytes.splitSpaces, Denial.lead, List.append_assoc, List.cons_append,
      Parts.between_append whole, words]
  rw [failedCommand, line, split]
  dsimp only
  rw [tag', Bytes.toNarrow_append, word', denial.narrow]

end Denied

/-- The status is the word if nothing but white space comes behind that, or first of all a space. -/
theorem status_is_word_iff (word : String) (rest : Bytes) :
    word ++ Bytes.toNarrow (rest.takeWhile (· != Byte.space)) = word ↔
      rest.head?.all (· == Byte.space) = true := by
  constructor
  · intro same
    have long := congrArg String.length same
    rw [String.length_append, Bytes.length_toNarrow] at long
    have none : rest.takeWhile (· != Byte.space) = [] :=
      List.eq_nil_of_length_eq_zero (by omega)
    cases rest with
    | nil => rfl
    | cons byte rest => simpa using none
  · intro begins
    have none : rest.takeWhile (· != Byte.space) = [] := by
      cases rest with
      | nil => rfl
      | cons byte rest => simpa using begins
    rw [none]
    exact String.append_empty

end ImapDialogue
