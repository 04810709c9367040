import ImapDialogue.Proofs.Channel.Guarding
import ImapDialogue.Proofs.Search.Resuming
import ImapDialogue.Proofs.Search.Skipping

/-!
What a wait finds in the data that is there when it begins. For texts, and for all patterns on a
channel without a guard, it is the foremost occurrence. On a guarded channel an expression is
looked for behind every match that starts in literal data; so it misses a match that starts
within such a one, even where the same text as a text is found.
-/

namespace ImapDialogue.Channel.Run

open Search (Held Occurs Foremost Alike)

variable {run : Run} {patterns : List Pattern}

/-- The places of the unread data where no match may start. -/
def barred (run : Run) : Nat → Bool := run.channel.intake.barred

/-- A wait that begins while none is open takes the first match of its patterns, if there is
one, and leaves the data alone otherwise. -/
theorem step_expect (idle : run.channel.intake.wait = none) (patterns : List Pattern)
    (limit : Option Number) :
    (∀ found rest, Search.first run.barred patterns run.unread = some (found, rest) →
        (run.step (.expect patterns limit)).2.settled = [⟨run.taken, .ok (some found)⟩] ∧
          (run.step (.expect patterns limit)).1.unread = rest) ∧
      (Search.first run.barred patterns run.unread = none →
        (run.step (.expect patterns limit)).2.found = [] ∧
          (run.step (.expect patterns limit)).1.unread = run.unread) := by
  have free : ¬run.channel.intake.wait.isSome = true := by
    rw [idle]
    exact Bool.false_ne_true
  have taken : run.channel.intake.take? patterns =
      (Search.first run.barred patterns run.unread).map fun result =>
        (result.1, { run.channel.intake with unread := result.2 }) := rfl
  constructor
  · intro found rest searched
    rw [searched] at taken
    simp only [step, perform, onChannel, Channel.await, withIntake, Intake.await, if_neg free,
      taken]
    exact ⟨rfl, rfl⟩
  · intro searched
    rw [searched] at taken
    simp only [step, perform, onChannel, Channel.await, withIntake, Intake.await, if_neg free,
      taken]
    by_cases ended : run.channel.intake.ended = true
    · simp only [Option.map_none, if_pos ended]
      exact ⟨rfl, rfl⟩
    · simp only [Option.map_none, if_neg ended]
      exact ⟨rfl, rfl⟩

theorem found_of_settled {report : Report} {ticket : Nat} {found : Match}
    (settled : report.settled = [⟨ticket, .ok (some found)⟩]) : report.found = [found] := by
  rw [Report.found, settled]
  rfl

/-- A wait that begins while none is open finds what a search finds, and leaves what is behind
it. -/
theorem expect_eq (idle : run.channel.intake.wait = none) (patterns : List Pattern)
    (limit : Option Number) :
    (run.step (.expect patterns limit)).2.found =
        ((Search.first run.barred patterns run.unread).map Prod.fst).toList ∧
      (run.step (.expect patterns limit)).1.unread =
        ((Search.first run.barred patterns run.unread).map Prod.snd).getD run.unread := by
  have taken := step_expect idle patterns limit
  cases searched : Search.first run.barred patterns run.unread with
  | some result =>
      obtain ⟨found, rest⟩ := result
      obtain ⟨settled, left⟩ := taken.1 found rest searched
      exact ⟨found_of_settled settled, left⟩
  | none => exact taken.2 searched

theorem expect_alike (idle : run.channel.intake.wait = none) {others : List Pattern}
    (alike : List.Forall₂ Alike patterns others) (limit : Option Number) :
    (run.step (.expect others limit)).2.found = (run.step (.expect patterns limit)).2.found ∧
      (run.step (.expect others limit)).1.unread =
        (run.step (.expect patterns limit)).1.unread := by
  have found := expect_eq idle patterns limit
  have found' := expect_eq idle others limit
  rw [Search.first_alike alike] at found'
  exact ⟨found'.1.trans found.1.symm, found'.2.trans found.2.symm⟩

/-- A search goes from place to place for texts, and for all patterns where there is no guard. -/
theorem walks_of_clear
    (clear : run.channel.intake.guarded = false ∨
      ∀ pattern ∈ patterns, ∃ wanted, pattern = .text wanted) :
    ∀ pattern ∈ patterns, Search.Walks pattern.probe run.barred := by
  intro pattern member
  rcases clear with unguarded | texts
  · apply Search.walks_free
    intro place
    rw [barred, Intake.barred, unguarded]
    rfl
  · obtain ⟨wanted, rfl⟩ := texts pattern member
    exact Search.walks_text _ _

/-- What a wait for texts, or for any patterns on a channel without a guard, finds at once. It
finds something exactly if a pattern occurs in the unread data where a match may start, and then
the occurrence that starts first, of the pattern listed first among those that occur there; a text
is matched as it is. The match and the data in front of it are taken out of the unread data; if
there is none, that stays as it is. Whether an expression is global or sticky makes no difference,
nor does the place at which a program that holds it has stopped.

An expression occurs where `Regex.lengthAt` has it match. One outside the grammar of `Regex.read`
(with a look-around, a back-reference, a named group) occurs nowhere here, see `Pattern.probe`: for
those the statement says nothing. -/
theorem wait_finds_foremost_occurrence (run : Run) (idle : run.channel.intake.wait = none)
    (patterns : List Pattern)
    (clear : run.channel.intake.guarded = false ∨
      ∀ pattern ∈ patterns, ∃ wanted, pattern = .text wanted)
    (limit : Option Number) :
    let next := run.step (.expect patterns limit)
    ((∃ found, next.2.settled = [⟨run.taken, .ok (some found)⟩]) ↔
        ∃ index start length, Occurs run.barred patterns run.unread index start length) ∧
      (∀ found ∈ next.2.found,
        found.before ++ found.text ++ next.1.unread = run.unread ∧
          Foremost run.barred patterns run.unread found.index found.before.length
            found.text.length ∧
          ∀ wanted, patterns[found.index]? = some (.text wanted) →
            Bytes.toNarrow found.text = wanted) ∧
      (next.2.found = [] → next.1.unread = run.unread) ∧
      (∀ others, List.Forall₂ Alike patterns others →
        (run.step (.expect others limit)).2.found = next.2.found ∧
          (run.step (.expect others limit)).1.unread = next.1.unread) ∧
      ∀ held : Held, held.search run.barred run.unread =
        Search.locate
          (Pattern.expression held.source (held.flags.searching false false)).probe run.barred
          (.start run.unread) := by
  intro next
  have taken := step_expect idle patterns limit
  have foremost := Search.first_foremost (walks_of_clear clear) run.unread
  have alike : ∀ others, List.Forall₂ Alike patterns others →
      (run.step (.expect others limit)).2.found = next.2.found ∧
        (run.step (.expect others limit)).1.unread = next.1.unread :=
    fun others same => expect_alike idle same limit
  have copied := fun held : Held => held.search_eq_plain run.barred run.unread
  cases searched : Search.first run.barred patterns run.unread with
  | some result =>
      obtain ⟨found, rest⟩ := result
      have taken := taken.1 found rest searched
      rw [searched] at foremost
      have only := found_of_settled taken.1
      refine ⟨iff_of_true ⟨_, taken.1⟩ ⟨_, _, _, foremost.2.occurs⟩, ?_, ?_, alike, copied⟩
      · intro found member
        rw [only] at member
        obtain rfl := List.mem_singleton.mp member
        have whole : found.before ++ found.text ++ next.1.unread = run.unread := by
          rw [taken.2]
          exact foremost.1
        have occurs := foremost.2.occurs
        rw [← whole] at occurs
        exact ⟨whole, foremost.2, fun _ listed => occurs.narrow listed⟩
      · intro nothing
        rw [only] at nothing
        cases nothing
  | none =>
      have taken := taken.2 searched
      rw [searched] at foremost
      refine ⟨iff_of_false ?_ ?_, ?_, fun _ => taken.2, alike, copied⟩
      · rintro ⟨found, settled⟩
        have nothing := taken.1
        rw [found_of_settled settled] at nothing
        cases nothing
      · rintro ⟨index, start, length, occurs⟩
        exact foremost index start length occurs
      · intro found member
        rw [taken.1] at member
        cases member

/-- Of three texts the two that start behind the literal are found before the one that only stands
further on, and of these two the one listed first. Those in the literal are passed over. -/
theorem texts_behind_literal_are_found :
    let run := (start true (.finite 1000)).after
      [.push (Bytes.ofNarrow "\x7b3\x7d\r\naababb")]
    let patterns : List Pattern := [.text "b", .text "ab", .text "a"]
    let next := run.step (.expect patterns none)
    run.channel.intake.wait = none ∧
      (∀ pattern ∈ patterns, ∃ wanted, pattern = .text wanted) ∧
      next.2.found = [⟨1, Bytes.ofNarrow "\x7b3\x7d\r\naab", Bytes.ofNarrow "ab"⟩] ∧
      Foremost run.barred patterns run.unread 1 8 2 ∧ next.1.unread = Bytes.ofNarrow "b" := by
  intro run patterns next
  have idle : run.channel.intake.wait = none := by decide +kernel
  have texts : ∀ pattern ∈ patterns, ∃ wanted, pattern = .text wanted := by simp [patterns]
  have found : next.2.found =
      [⟨1, Bytes.ofNarrow "\x7b3\x7d\r\naab", Bytes.ofNarrow "ab"⟩] := by decide +kernel
  have told := wait_finds_foremost_occurrence run idle patterns (.inr texts) none
  obtain ⟨parts, foremost, _⟩ := told.2.1 _ (by rw [found]; exact List.mem_singleton_self _)
  refine ⟨idle, texts, found, foremost, ?_⟩
  exact List.append_cancel_left (parts.trans (by decide +kernel))

/-! ## Texts and the expressions that spell them -/

/-- While another wait is open, a wait finds nothing. -/
theorem expect_busy (busy : run.channel.intake.wait ≠ none) (patterns : List Pattern)
    (limit : Option Number) :
    (run.step (.expect patterns limit)).2.found = [] ∧
      (run.step (.expect patterns limit)).1.unread = run.unread := by
  have taken : run.channel.intake.wait.isSome = true := Option.isSome_iff_ne_none.mpr busy
  simp only [step, perform, onChannel, Channel.await, withIntake, Intake.await, if_pos taken]
  exact ⟨rfl, rfl⟩

/-- What a wait for one pattern finds is cut out for the hit of a search for it. -/
theorem mem_found_single (idle : run.channel.intake.wait = none) {pattern : Pattern}
    {limit : Option Number} {found : Match} :
    found ∈ (run.step (.expect [pattern] limit)).2.found ↔
      ∃ hit, Search.locate pattern.probe run.barred (.start run.unread) = some hit ∧
        found = (Search.cut run.unread hit).1 := by
  rw [(expect_eq idle [pattern] limit).1, Search.first_single]
  cases Search.locate pattern.probe run.barred (.start run.unread) <;> simp

/-- Waits for one pattern come to the same exactly if the searches do. -/
theorem expect_single_eq_iff (idle : run.channel.intake.wait = none) (pattern other : Pattern)
    (limit : Option Number) :
    ((run.step (.expect [other] limit)).2.found = (run.step (.expect [pattern] limit)).2.found ∧
        (run.step (.expect [other] limit)).1.unread =
          (run.step (.expect [pattern] limit)).1.unread) ↔
      Search.locate other.probe run.barred (.start run.unread) =
        Search.locate pattern.probe run.barred (.start run.unread) := by
  have one := expect_eq idle [pattern] limit
  have two := expect_eq idle [other] limit
  rw [Search.first_single] at one two
  rw [one.1, one.2, two.1, two.2]
  constructor
  · rintro ⟨same, -⟩
    cases located : Search.locate pattern.probe run.barred (.start run.unread) with
    | none =>
        cases located' : Search.locate other.probe run.barred (.start run.unread) with
        | none => rfl
        | some hit' => simp [located, located'] at same
    | some hit =>
        cases located' : Search.locate other.probe run.barred (.start run.unread) with
        | none => simp [located, located'] at same
        | some hit' =>
            have cut : (Search.cut run.unread hit').1 = (Search.cut run.unread hit).1 := by
              simpa [located, located'] using same
            have lengths := Search.lengths_cut (Search.ahead_of_locate located).2
            have lengths' := Search.lengths_cut (Search.ahead_of_locate located').2
            rw [cut] at lengths'
            congr 1
            exact (Hit.mk.injEq ..).mpr
              ⟨lengths'.1.symm.trans lengths.1, lengths'.2.symm.trans lengths.2⟩
  · intro same
    rw [same]
    exact ⟨rfl, rfl⟩

/-- The expression that spells a text, without flags. -/
def spelling (wanted : String) : Pattern :=
  .expression (Command.spelled wanted) ⟨false, false, false, false, false⟩

theorem lengthAt_spelling (wanted : String) (cursor : Cursor) :
    (spelling wanted).probe.lengthAt cursor = (Pattern.text wanted).probe.lengthAt cursor :=
  Pattern.lengthAt_spelled rfl wanted cursor

/-- A search for a text goes from place to place, also by the expression that spells it. -/
theorem locate_text_eq_walk (wanted : String) (barred : Nat → Bool) (cursor : Cursor) :
    Search.locate (Pattern.text wanted).probe barred cursor =
      Search.walk (spelling wanted).probe barred cursor := by
  rw [Search.walk_congr (lengthAt_spelling wanted)]
  exact Search.walks_text _ _ _

/-- What a wait for a text finds is cut out at the first place where a match may start and the
expression that spells it matches. -/
theorem mem_found_text (idle : run.channel.intake.wait = none) {wanted : String}
    {limit : Option Number} {found : Match} :
    found ∈ (run.step (.expect [.text wanted] limit)).2.found ↔
      ∃ hit, Search.walk (spelling wanted).probe run.barred (.start run.unread) = some hit ∧
        found = (Search.cut run.unread hit).1 := by
  rw [← locate_text_eq_walk]
  exact mem_found_single idle

/-- A match of the expression that starts where one may does not start in front of what is found
for the text. -/
theorem found_text_reaches (idle : run.channel.intake.wait = none) {wanted : String}
    (limit : Option Number) {hit : Hit} (free : run.barred hit.start = false)
    (ahead : Search.Ahead (spelling wanted).probe (.start run.unread) hit) :
    ∃ first ∈ (run.step (.expect [.text wanted] limit)).2.found,
      first.before.length ≤ hit.start := by
  obtain ⟨first, walks, upTo⟩ := Search.walk_reaches free ahead
  refine ⟨_, (mem_found_text idle).mpr ⟨first, walks, rfl⟩, ?_⟩
  rwa [Search.length_before_of_walk walks]

/-- What a wait finds for the expression that spells a text is this text, where a match may start
and not in front of what is found for the text. -/
theorem found_spelling (idle : run.channel.intake.wait = none) {wanted : String}
    {limit : Option Number} {found : Match}
    (member : found ∈ (run.step (.expect [spelling wanted] limit)).2.found) :
    Bytes.toNarrow found.text = wanted ∧ run.barred found.before.length = false ∧
      ∃ first ∈ (run.step (.expect [.text wanted] limit)).2.found,
        first.before.length ≤ found.before.length := by
  obtain ⟨hit, located, rfl⟩ := (mem_found_single idle).mp member
  obtain ⟨free, ahead⟩ := Search.ahead_of_locate located
  rw [(Search.lengths_cut ahead).1]
  exact ⟨Search.narrow_of_ahead (ahead.congr (lengthAt_spelling wanted)), free,
    found_text_reaches idle limit free ahead⟩

/-- Waits for a text and for the expression that spells it come to the same exactly if no match
that the search for the expression tries reaches over the start of what is found for the text. -/
theorem expect_spelling_eq_iff (idle : run.channel.intake.wait = none) (wanted : String)
    (limit : Option Number) :
    ((run.step (.expect [spelling wanted] limit)).2.found =
          (run.step (.expect [.text wanted] limit)).2.found ∧
        (run.step (.expect [spelling wanted] limit)).1.unread =
          (run.step (.expect [.text wanted] limit)).1.unread) ↔
      ∀ found ∈ (run.step (.expect [.text wanted] limit)).2.found,
        ∀ hit ∈ Search.tried (spelling wanted).probe (.start run.unread),
          ¬(hit.start < found.before.length ∧ found.before.length < hit.start + hit.length) := by
  rw [expect_single_eq_iff idle, locate_text_eq_walk, Search.locate_eq_walk_iff]
  constructor
  · intro clear found member hit tries
    obtain ⟨first, walks, rfl⟩ := (mem_found_text idle).mp member
    rw [Search.length_before_of_walk walks]
    exact fun hides => clear first walks hit tries (Search.hides_expression.mpr hides)
  · intro clear first walks hit tries hides
    apply clear _ ((mem_found_text idle).mpr ⟨first, walks, rfl⟩) hit tries
    rw [Search.length_before_of_walk walks]
    exact Search.hides_expression.mp hides

/-- A match that is tried in front of what is found for the text starts where none may. -/
theorem barred_of_tried (idle : run.channel.intake.wait = none) {wanted : String}
    {limit : Option Number} {found : Match}
    (member : found ∈ (run.step (.expect [.text wanted] limit)).2.found) {hit : Hit}
    (tries : hit ∈ Search.tried (spelling wanted).probe (.start run.unread))
    (before : hit.start < found.before.length) : run.barred hit.start = true := by
  by_contra free
  obtain ⟨first, same, upTo⟩ := found_text_reaches idle limit (Bool.eq_false_iff.mpr free)
    (Search.ahead_of_tried tries)
  obtain ⟨_, walks, rfl⟩ := (mem_found_text idle).mp member
  obtain ⟨_, walks', rfl⟩ := (mem_found_text idle).mp same
  rw [walks] at walks'
  cases walks'
  exact absurd before (Nat.not_lt.mpr upTo)

/-- A text and the expression that spells it match at the same places and as much. Waiting for the
expression comes to the same as waiting for the text unless a match that the search for the
expression tries starts in literal data and reaches over the start of what is found for the text.
In that case it finds a later match, or none. -/
theorem spelled_text_is_found_unless_hidden (run : Run) (wanted : String)
    (limit : Option Number) :
    let text := run.step (.expect [.text wanted] limit)
    let spelled := run.step (.expect [spelling wanted] limit)
    let tried := Search.tried (spelling wanted).probe (.start run.unread)
    (∀ cursor, (spelling wanted).probe.lengthAt cursor =
        (Pattern.text wanted).probe.lengthAt cursor) ∧
      (∀ found ∈ spelled.2.found, Bytes.toNarrow found.text = wanted ∧
        run.barred found.before.length = false ∧
          ∃ first ∈ text.2.found, first.before.length ≤ found.before.length) ∧
      (spelled.2.found = text.2.found ∧ spelled.1.unread = text.1.unread ↔
        ∀ found ∈ text.2.found, ∀ hit ∈ tried,
          ¬(hit.start < found.before.length ∧ found.before.length < hit.start + hit.length)) ∧
      ∀ found ∈ text.2.found, ∀ hit ∈ tried, hit.start < found.before.length →
        run.barred hit.start = true := by
  intro text spelled tried
  refine ⟨lengthAt_spelling wanted, ?_⟩
  by_cases idle : run.channel.intake.wait = none
  · exact ⟨fun _ member => found_spelling idle member, expect_spelling_eq_iff idle wanted limit,
      fun _ member _ tries before => barred_of_tried idle member tries before⟩
  · have nothing := expect_busy idle [.text wanted] limit
    have nothing' := expect_busy idle [spelling wanted] limit
    rw [nothing.1, nothing.2, nothing'.1, nothing'.2]
    simp

/-- A text that overlaps with itself over the end of a literal is found as a text, and not by the
expression that spells it. -/
theorem expression_misses_overlapping_text :
    let run := (start true (.finite 1000)).after [.push (Bytes.ofNarrow "\x7b1\x7d\r\naaa")]
    let text := run.step (.expect [.text "aa"] none)
    let spelled := run.step (.expect [spelling "aa"] none)
    text.2.found = [⟨0, Bytes.ofNarrow "\x7b1\x7d\r\na", Bytes.ofNarrow "aa"⟩] ∧
      run.barred (Bytes.ofNarrow "\x7b1\x7d\r\na").length = false ∧ spelled.2.found = [] := by
  decide +kernel

end ImapDialogue.Channel.Run
