import ImapDialogue.Proofs.Search
import ImapDialogue.Proofs.Wire.Bytes
import ImapDialogue.Proofs.Wire.Cursor
import Mathlib.Data.List.TakeWhile

/-!
Whole lines in received data. A line begins at the start of the data or behind a carriage return
or a line feed. It runs up to the next of the two and is complete with a line feed, or with a
carriage return and a line feed behind it.
-/

namespace ImapDialogue.Line

open Search (Steady grown)

variable {α : Type}

def ending? : Bytes → Option Nat
  | 0x0A :: _ => some 1
  | 0x0D :: 0x0A :: _ => some 2
  | _ => none

def content (bytes : Bytes) : Bytes := bytes.takeWhile (!Byte.isLineEnd ·)

/-- The complete line that begins some data: what stands in it, and how long it is with its end. -/
def first? (bytes : Bytes) : Option (Bytes × Nat) :=
  (ending? (bytes.drop (content bytes).length)).map fun ending =>
    (content bytes, (content bytes).length + ending)

def Plain (bytes : Bytes) : Prop := ∀ byte ∈ bytes, Byte.isLineEnd byte = false

instance (bytes : Bytes) : Decidable (Plain bytes) := List.decidableBAll _ bytes

/-- How long the complete line is that begins at a place, with its end, if it passes a test. -/
def passed (test : Bytes → Bool) (cursor : Cursor) : Option Nat :=
  if cursor.startsLine then
    (first? cursor.rest).bind fun (line, length) => if test line then some length else none
  else none

/-- What stands in a line behind a word that begins it. The word ends where it is said to end:
no further letter, digit or underscore follows. -/
def behind? (word line : Bytes) : Option Bytes :=
  (Bytes.after? word line).filter fun tail => !tail.head?.any Byte.isWord

/-- What a judge says about the complete line that begins at a place, and how long that line is
with its end. -/
def judged (judge : Bytes → Option α) (cursor : Cursor) : Option (α × Nat) :=
  if cursor.startsLine then
    (first? cursor.rest).bind fun (line, length) => (judge line).map (·, length)
  else none

theorem content_append_drop (bytes : Bytes) :
    bytes = content bytes ++ bytes.drop (content bytes).length :=
  (List.prefix_iff_eq_append.mp (List.takeWhile_prefix _)).symm

theorem not_line_end_of_mem_content {bytes : Bytes} {byte : UInt8}
    (member : byte ∈ content bytes) : Byte.isLineEnd byte = false := by
  simpa using List.mem_takeWhile_imp member

theorem not_line_end_of_mem_take {bytes : Bytes} {count : Nat}
    (within : count ≤ (content bytes).length) {byte : UInt8} (member : byte ∈ bytes.take count) :
    Byte.isLineEnd byte = false := by
  have inner : bytes.take count <+: content bytes :=
    List.prefix_of_prefix_length_le (List.take_prefix _ _) (List.takeWhile_prefix _)
      (by simp only [List.length_take]; omega)
  exact not_line_end_of_mem_content (inner.subset member)

theorem ending?_within {bytes : Bytes} {count : Nat} (within : count < (content bytes).length) :
    ending? (bytes.drop count) = none := by
  have inner : (content bytes)[count] ∈ content bytes := List.getElem_mem within
  have plain := not_line_end_of_mem_content inner
  have short : count < bytes.length :=
    Nat.lt_of_lt_of_le within (List.takeWhile_prefix _).length_le
  have same : (content bytes)[count] = bytes[count] :=
    (List.takeWhile_prefix _).getElem within
  rw [List.drop_eq_getElem_cons short]
  rw [same] at plain
  unfold ending?
  split
  · next first =>
      rw [(List.cons.inj first).1] at plain
      exact absurd plain (by decide)
  · next first =>
      rw [(List.cons.inj first).1] at plain
      exact absurd plain (by decide)
  · rfl

theorem plain_append {first second : Bytes} (plain : Plain first) (plain' : Plain second) :
    Plain (first ++ second) := by
  intro byte member
  rcases List.mem_append.mp member with early | late
  · exact plain byte early
  · exact plain' byte late

inductive Ending : Bytes → Prop where
  | lineFeed : Ending [0x0A]
  | both : Ending [0x0D, 0x0A]

theorem ending?_of_ending {ending : Bytes} (ends : Ending ending) (rest : Bytes) :
    ending? (ending ++ rest) = some ending.length := by
  cases ends <;> rfl

theorem ending_of_ending? {bytes : Bytes} {length : Nat} (found : ending? bytes = some length) :
    ∃ ending rest, Ending ending ∧ bytes = ending ++ rest ∧ length = ending.length := by
  unfold ending? at found
  split at found
  · next rest => exact ⟨[0x0A], rest, .lineFeed, rfl, (Option.some.inj found).symm⟩
  · next rest => exact ⟨[0x0D, 0x0A], rest, .both, rfl, (Option.some.inj found).symm⟩
  · simp at found

theorem length_ending {ending : Bytes} (ends : Ending ending) :
    1 ≤ ending.length ∧ ending.length ≤ 2 := by
  cases ends <;> simp

theorem content_of_line {line ending : Bytes} (plain : Plain line)
    (ends : Ending ending) (rest : Bytes) : content (line ++ (ending ++ rest)) = line := by
  have passes : ∀ byte ∈ line, (!Byte.isLineEnd byte) = true := by
    intro byte member
    rw [plain byte member]
    rfl
  unfold content
  rw [List.takeWhile_append_of_pos passes]
  cases ends
  · simp only [List.cons_append, List.nil_append]
    rw [List.takeWhile_cons_of_neg (by decide), List.append_nil]
  · simp only [List.cons_append, List.nil_append]
    rw [List.takeWhile_cons_of_neg (by decide), List.append_nil]

theorem first?_of_line {line ending : Bytes} (plain : Plain line)
    (ends : Ending ending) (rest : Bytes) :
    first? (line ++ (ending ++ rest)) = some (line, line.length + ending.length) := by
  simp only [first?, content_of_line plain ends rest, List.drop_left, ending?_of_ending ends,
    Option.map_some]

theorem line_of_first? {bytes line : Bytes} {length : Nat}
    (found : first? bytes = some (line, length)) :
    ∃ ending rest, Plain line ∧ Ending ending ∧
      bytes = line ++ (ending ++ rest) ∧ length = line.length + ending.length := by
  obtain ⟨size, ends, same⟩ := Option.map_eq_some_iff.mp found
  simp only [Prod.mk.injEq] at same
  obtain ⟨rfl, rfl⟩ := same
  obtain ⟨ending, rest, isEnding, behind, rfl⟩ := ending_of_ending? ends
  refine ⟨ending, rest, fun byte member => not_line_end_of_mem_content member, isEnding, ?_, rfl⟩
  rw [← behind]
  exact content_append_drop bytes

/-- Bytes that end no line belong to the line that goes on behind them. -/
theorem first?_plain_append {head : Bytes} (plain : Plain head)
    (rest : Bytes) : first? (head ++ rest) =
      (first? rest).map fun (line, length) => (head ++ line, head.length + length) := by
  have passes : ∀ byte ∈ head, (!Byte.isLineEnd byte) = true := by
    intro byte member
    rw [plain byte member]
    rfl
  have joined : content (head ++ rest) = head ++ content rest :=
    List.takeWhile_append_of_pos passes
  simp only [first?, joined, List.length_append, Option.map_map]
  rw [List.drop_append, List.drop_of_length_le (Nat.le_add_right _ _), List.nil_append,
    Nat.add_sub_cancel_left]
  congr 1
  funext ending
  simp only [Function.comp_apply, Prod.mk.injEq, true_and]
  omega

theorem first?_of_marker {bytes marker rest : Bytes} {count : Nat}
    (plain : Plain marker)
    (within : count ≤ (content bytes).length) (same : marker ++ rest = bytes.drop count) :
    first? bytes = (first? rest).map fun (line, length) =>
      (bytes.take count ++ marker ++ line, count + marker.length + length) := by
  have parts : bytes = (bytes.take count ++ marker) ++ rest := by
    rw [List.append_assoc, same, List.take_append_drop]
  have inLine : Plain (bytes.take count ++ marker) :=
    plain_append (fun byte member => not_line_end_of_mem_take within member) plain
  have length : (bytes.take count ++ marker).length = count + marker.length := by
    have : (content bytes).length ≤ bytes.length := (List.takeWhile_prefix _).length_le
    simp only [List.length_append, List.length_take]
    omega
  have whole := first?_plain_append inLine rest
  rw [← parts, length] at whole
  exact whole

/-- Bytes that end no line stand in a complete line where they begin in it. -/
theorem holds_marker_iff {bytes marker line : Bytes} {length : Nat}
    (plain : Plain marker)
    (complete : first? bytes = some (line, length)) :
    (∃ count ∈ (List.range ((content bytes).length + 1)).reverse, marker <+: bytes.drop count) ↔
      marker <:+: line := by
  constructor
  · rintro ⟨count, member, rest, same⟩
    rw [first?_of_marker plain (by simp at member; omega) same] at complete
    obtain ⟨⟨tail, size⟩, _, joined⟩ := Option.map_eq_some_iff.mp complete
    rw [← (Prod.mk.inj joined).1]
    exact ⟨_, _, rfl⟩
  · rintro ⟨front, back, rfl⟩
    obtain ⟨ending, rest, inLine, ends, same, _⟩ := line_of_first? complete
    refine ⟨front.length, ?_, ?_⟩
    · rw [same, content_of_line inLine ends]
      simp only [List.mem_reverse, List.mem_range, List.length_append]
      omega
    · rw [same, List.append_assoc, List.append_assoc, List.drop_left, ]
      exact List.prefix_append _ _

theorem first?_append {bytes line : Bytes} {length : Nat}
    (found : first? bytes = some (line, length)) (more : Bytes) :
    first? (bytes ++ more) = some (line, length) := by
  obtain ⟨ending, rest, plain, ends, rfl, rfl⟩ := line_of_first? found
  rw [List.append_assoc, List.append_assoc]
  exact first?_of_line plain ends (rest ++ more)

theorem length_first? {bytes line : Bytes} {length : Nat}
    (found : first? bytes = some (line, length)) :
    line.length < length ∧ length ≤ line.length + 2 ∧ length ≤ bytes.length := by
  obtain ⟨ending, rest, plain, ends, rfl, rfl⟩ := line_of_first? found
  have := length_ending ends
  simp only [List.length_append]
  omega

/-- While more data would complete a line, nothing but the last byte of what is there can end
one. -/
theorem not_line_end_of_incomplete {bytes more line : Bytes} {length : Nat}
    (incomplete : first? bytes = none) (completed : first? (bytes ++ more) = some (line, length))
    {index : Nat} (within : index + 1 < bytes.length) :
    Byte.isLineEnd bytes[index] = false := by
  obtain ⟨ending, rest, plain, ends, same, _⟩ := line_of_first? completed
  have bounds := length_ending ends
  have whole : line ++ ending <+: bytes ++ more := by
    rw [same, ← List.append_assoc]
    exact List.prefix_append _ _
  have short : bytes.length < (line ++ ending).length := by
    by_contra long
    obtain ⟨behind, parts⟩ := List.prefix_of_prefix_length_le whole (List.prefix_append _ _)
      (Nat.le_of_not_lt long)
    rw [← parts, List.append_assoc, first?_of_line plain ends] at incomplete
    simp at incomplete
  have cut : bytes <+: line ++ ending :=
    List.prefix_of_prefix_length_le (List.prefix_append _ _) whole (Nat.le_of_lt short)
  rw [List.length_append] at short
  have inLine : index < line.length := by omega
  have same : bytes[index] = (line)[index] := by
    rw [cut.getElem, List.getElem_append_left inLine]
  rw [same]
  exact plain _ (List.getElem_mem inLine)

/-! ## Judging lines -/

theorem judged_eq_some {judge : Bytes → Option α} {cursor : Cursor} {answer : α} {length : Nat}
    (found : judged judge cursor = some (answer, length)) :
    cursor.startsLine = true ∧ ∃ line, first? cursor.rest = some (line, length) ∧
      judge line = some answer := by
  unfold judged at found
  split at found
  · next starts =>
      obtain ⟨⟨line, size⟩, complete, verdict⟩ := Option.bind_eq_some_iff.mp found
      obtain ⟨said, judgement, same⟩ := Option.map_eq_some_iff.mp verdict
      simp only [Prod.mk.injEq] at same
      obtain ⟨rfl, rfl⟩ := same
      exact ⟨starts, line, complete, judgement⟩
  · simp at found

theorem judged_of_line {judge : Bytes → Option α} {cursor : Cursor} {line : Bytes} {length : Nat}
    {answer : α} (starts : cursor.startsLine = true)
    (complete : first? cursor.rest = some (line, length)) (verdict : judge line = some answer) :
    judged judge cursor = some (answer, length) := by
  simp [judged, starts, complete, verdict]

theorem starts_line_advance {cursor : Cursor} {count : Nat} (within : count < cursor.rest.length)
    (starts : (cursor.advance (count + 1)).startsLine = true) :
    Byte.isLineEnd cursor.rest[count] = true := by
  simpa [Cursor.startsLine, Cursor.previous_advance within] using starts

theorem passed_eq_some {test : Bytes → Bool} {cursor : Cursor} {length : Nat}
    (found : passed test cursor = some length) :
    cursor.startsLine = true ∧ ∃ line, first? cursor.rest = some (line, length) ∧
      test line = true := by
  unfold passed at found
  split at found
  · next starts =>
      obtain ⟨⟨line, size⟩, complete, verdict⟩ := Option.bind_eq_some_iff.mp found
      dsimp only at verdict
      split at verdict
      · next accepted =>
          cases verdict
          exact ⟨starts, line, complete, accepted⟩
      · simp at verdict
  · simp at found

/-- Inside a line that passes a test none begins that passes it, except perhaps an empty one
between a carriage return and a line feed. -/
theorem passed_inside {test : Bytes → Bool} {cursor : Cursor} {length step : Nat}
    (silent : test [] = false) (found : passed test cursor = some length) (positive : 0 < step)
    (inner : step < length) : passed test (cursor.advance step) = none := by
  obtain ⟨_, line, complete, _⟩ := passed_eq_some found
  obtain ⟨ending, rest, plain, ends, same, rfl⟩ := line_of_first? complete
  obtain ⟨count, rfl⟩ := Nat.exists_eq_add_of_lt positive
  rw [Nat.zero_add] at inner ⊢
  rw [Option.eq_none_iff_forall_ne_some]
  rintro other later
  obtain ⟨starts, line', complete', accepted⟩ := passed_eq_some later
  have within : count < cursor.rest.length := by
    simp only [same, List.length_append]
    omega
  have lineEnd := starts_line_advance within starts
  by_cases early : count < line.length
  · have member : cursor.rest[count] ∈ line := by
      simp only [same, List.getElem_append_left early]
      exact List.getElem_mem early
    rw [plain _ member] at lineEnd
    exact absurd lineEnd (by decide)
  · cases ends with
    | lineFeed =>
        simp only [List.length_cons, List.length_nil] at inner
        omega
    | both =>
        simp only [List.length_cons, List.length_nil] at inner
        have last : count = line.length := by omega
        subst last
        rw [Cursor.rest_advance, same, ← List.drop_drop, List.drop_left] at complete'
        have empty : first? (([0x0D, 0x0A] ++ rest).drop 1) = some ([], 1) := rfl
        rw [empty] at complete'
        rw [← (Prod.mk.inj (Option.some.inj complete')).1, silent] at accepted
        exact absurd accepted (by decide)

theorem passed_or_bind (first second : Bytes → Bool) (cursor : Cursor) (next : Nat → Option α) :
    ((passed first cursor).bind next).or ((passed second cursor).bind next) =
      (passed (fun line => first line || second line) cursor).bind next := by
  unfold passed
  split
  · cases first? cursor.rest with
    | none => rfl
    | some found =>
        obtain ⟨line, length⟩ := found
        cases one : first line <;> cases other : second line <;> simp [one, other]
  · rfl

theorem head_word_of_first? {bytes line : Bytes} {length : Nat}
    (found : first? bytes = some (line, length)) :
    line.head?.any Byte.isWord = bytes.head?.any Byte.isWord := by
  obtain ⟨ending, rest, plain, ends, rfl, _⟩ := line_of_first? found
  cases line with
  | nil => cases ends <;> rfl
  | cons byte line => rfl

theorem passed_behind {word : Bytes} (plain : Plain word)
    (test : Bytes → Bool) (cursor : Cursor) :
    passed (fun line => (behind? word line).any test) cursor =
      if cursor.startsLine = true ∧ word <+: cursor.rest ∧
          (cursor.rest.drop word.length).head?.any Byte.isWord = false then
        (first? (cursor.rest.drop word.length)).bind fun (tail, length) =>
          if test tail then some (word.length + length) else none
      else none := by
  unfold passed
  by_cases starts : cursor.startsLine = true
  · rw [if_pos starts]
    by_cases begins : word <+: cursor.rest
    · obtain ⟨rest, same⟩ := begins
      rw [← same, List.drop_left, first?_plain_append plain]
      cases found : first? rest with
      | none => simp
      | some found' =>
          obtain ⟨tail, length⟩ := found'
          have ended := head_word_of_first? found
          have kept : behind? word (word ++ tail) =
              if rest.head?.any Byte.isWord = false then some tail else none := by
            rw [behind?, Bytes.after?_append, ← ended]
            simp [Option.filter]
          simp only [Option.map_some, Option.bind_some, kept, starts, List.prefix_append, true_and]
          split <;> simp
    · rw [if_neg fun parts => begins parts.2.1]
      cases found : first? cursor.rest with
      | none => rfl
      | some found' =>
          obtain ⟨line, length⟩ := found'
          obtain ⟨ending, rest, _, _, same, _⟩ := line_of_first? found
          have silent : behind? word line = none := by
            rw [Option.eq_none_iff_forall_ne_some]
            intro tail kept
            have parts := Bytes.append_of_after? (Option.filter_eq_some_iff.mp kept).1
            apply begins
            rw [same, parts, List.append_assoc]
            exact List.prefix_append _ _
          simp [silent]
  · rw [if_neg starts, if_neg fun parts => starts parts.1]

theorem judged_cons (test : Bytes → Bool) (answer : α) (judge : Bytes → Option α)
    (cursor : Cursor) :
    ((passed test cursor).map (answer, ·)).or (judged judge cursor) =
      judged (fun line => if test line then some answer else judge line) cursor := by
  unfold passed judged
  split
  · cases first? cursor.rest with
    | none => rfl
    | some found => cases one : test found.1 <;> simp [one]
  · rfl

theorem judged_of_grown {judge : Bytes → Option α} {cursor : Cursor} {more : Bytes} {answer : α}
    {length : Nat} (found : judged judge (grown cursor more) = some (answer, length))
    (within : length ≤ cursor.rest.length) : judged judge cursor = some (answer, length) := by
  obtain ⟨starts, line, complete, verdict⟩ := judged_eq_some found
  obtain ⟨ending, rest, plain, ends, same, rfl⟩ := line_of_first? complete
  have whole : line ++ ending <+: cursor.rest ++ more := by
    rw [show cursor.rest ++ more = (grown cursor more).rest from rfl, same, ← List.append_assoc]
    exact List.prefix_append _ _
  obtain ⟨behind, parts⟩ := List.prefix_of_prefix_length_le whole (List.prefix_append _ _)
    (by simpa using within)
  have begins : cursor.startsLine = true := starts
  apply judged_of_line begins _ verdict
  rw [← parts, List.append_assoc]
  exact first?_of_line plain ends behind

/-- What is said about a complete line is said for good, and while a line is incomplete no later
one has begun. -/
theorem steady_judged (judge : Bytes → Option α) : Steady (judged judge) where
  needs := by
    intro cursor past
    simp [judged, past, first?, content, ending?]
  stays := by
    intro cursor ⟨answer, length⟩ found more
    obtain ⟨starts, line, complete, verdict⟩ := judged_eq_some found
    have begins : (grown cursor more).startsLine = true := starts
    exact judged_of_line begins (first?_append complete more) verdict
  waits := by
    intro cursor ⟨answer, length⟩ more silent changed step positive
    obtain ⟨starts, line, completed, verdict⟩ := judged_eq_some changed
    have incomplete : first? cursor.rest = none := by
      rw [Option.eq_none_iff_forall_ne_some]
      rintro ⟨other, size⟩ complete
      have same := first?_append complete more
      rw [show cursor.rest ++ more = (grown cursor more).rest from rfl, completed] at same
      obtain ⟨rfl, rfl⟩ := Prod.mk.inj (Option.some.inj same)
      have begins : cursor.startsLine = true := starts
      rw [judged_of_line begins complete verdict] at silent
      simp at silent
    rw [Option.eq_none_iff_forall_ne_some]
    rintro ⟨said, size⟩ early
    obtain ⟨begins, later, whole, _⟩ := judged_eq_some early
    obtain ⟨count, rfl⟩ := Nat.exists_eq_add_of_lt positive
    rw [Nat.zero_add] at begins whole
    have left : count + 1 < cursor.rest.length := by
      have := length_first? whole
      rw [Cursor.length_rest_advance] at this
      omega
    have ends := starts_line_advance (Nat.lt_of_succ_lt left) begins
    rw [not_line_end_of_incomplete incomplete completed left] at ends
    simp at ends

end ImapDialogue.Line
