import ImapDialogue.Proofs.Channel.Conservation
import ImapDialogue.Proofs.Literal.Between
import ImapDialogue.Proofs.Search

/-!
Where the matches of a guarded channel begin. The guard knows the literals of the unread data
only. As long as that begins between the literals of the whole stream, these are the same; a match
that ends within a literal leaves the rest of it without a guard.
-/

namespace ImapDialogue

/-- A match that begins within some data or right behind it, and not in a literal's data. -/
structure Match.Free (data : Bytes) (found : Match) : Prop where
  within : found.before.length ≤ data.length
  outside : Literal.inside (Literal.regions data) found.before.length = false

namespace Intake

theorem free_of_take? {intake behind : Intake} {patterns : List Pattern} {found : Match}
    (guarded : intake.guarded = true) (takes : intake.take? patterns = some (found, behind)) :
    found.Free intake.unread ∧ behind.guarded = true := by
  obtain ⟨⟨found', rest⟩, first, same⟩ := Option.map_eq_some_iff.mp takes
  cases same
  have free := Search.first_free first
  rw [barred, if_pos guarded] at free
  exact ⟨⟨free.2, free.1⟩, guarded⟩

/-- A wait for the empty text is matched at the start of the unread data, guarded or not. -/
theorem take?_empty (intake : Intake) :
    intake.take? [.text ""] = some (⟨0, [], []⟩, intake) := by
  have free : intake.barred 0 = false := by
    unfold barred
    split
    · exact Literal.inside_regions_at_here 0 intake.unread
    · rfl
  have located : Search.locate (Pattern.text "").probe intake.barred (.start intake.unread) =
      some ⟨0, 0⟩ := by
    have everywhere : (Pattern.text "").probe.lengthAt (.start intake.unread) = some 0 := by
      cases intake.unread <;> rfl
    have free' : ¬intake.barred (Cursor.start intake.unread).offset = true :=
      Bool.eq_false_iff.mp free
    rw [Search.locate.eq_def, everywhere]
    dsimp only
    rw [if_neg free']
    rfl
  rw [take?, Search.first, Search.best, located]
  rfl

structure Guards (intake : Intake) (arrived : Bytes) (result : Intake × List Settlement) :
    Prop where
  guarded : result.1.guarded = true
  free : ∀ settlement ∈ result.2, ∀ found, settlement.result = .ok found →
    found.Free (intake.unread ++ arrived)

variable {intake : Intake}

theorem Guards.of_failures {arrived : Bytes} {result : Intake × List Settlement}
    (guarded : result.1.guarded = true)
    (fails : ∀ settlement ∈ result.2, ∃ failure, settlement.result = .error failure) :
    intake.Guards arrived result where
  guarded := guarded
  free := by
    intro settlement member found success
    obtain ⟨failure, same⟩ := fails settlement member
    rw [same] at success
    cases success

theorem guards_receive (guarded : intake.guarded = true) (chunk : Bytes) :
    intake.Guards chunk (intake.receive chunk) := by
  unfold receive
  dsimp only
  split
  · exact .of_failures guarded (by simp)
  · next wait _ =>
      split
      · exact .of_failures guarded (by simp)
      · next found rest takes =>
          obtain ⟨free, guarded'⟩ := free_of_take? (by exact guarded) takes
          refine ⟨guarded', ?_⟩
          intro settlement member found' success
          rw [List.mem_singleton.mp member] at success
          cases success
          exact free

theorem guards_finish (guarded : intake.guarded = true) (reason : Option Failure) :
    intake.Guards [] (intake.finish reason) := by
  unfold finish
  split
  · exact .of_failures guarded (by simp)
  · dsimp only
    split
    · exact .of_failures guarded (by simp)
    · exact .of_failures guarded (by simp)

theorem guards_await (guarded : intake.guarded = true) (wait : Wait) :
    intake.Guards [] (intake.await wait) := by
  unfold await
  split
  · exact .of_failures guarded (by simp)
  · split
    · next found rest takes =>
        obtain ⟨free, guarded'⟩ := free_of_take? guarded takes
        refine ⟨guarded', ?_⟩
        intro settlement member found' success
        rw [List.mem_singleton.mp member] at success
        cases success
        rw [List.append_nil]
        exact free
    · split
      · exact .of_failures guarded (by simp)
      · exact .of_failures guarded (by simp)

theorem guards_expire (guarded : intake.guarded = true) : intake.Guards [] intake.expire := by
  unfold expire
  split
  · exact .of_failures guarded (by simp)
  · exact .of_failures guarded (by simp)

end Intake

namespace Channel

def Guards (channel : Channel) (arrived : Bytes) (result : Channel × Effects) : Prop :=
  channel.intake.Guards arrived (result.1.intake, result.2.settled)

variable {channel : Channel}

theorem guards_nothing (guarded : channel.intake.guarded = true) (arrived : Bytes) :
    channel.Guards arrived (channel, .none) :=
  .of_failures guarded (by simp [Effects.none])

/-- Of two events that bring no data, the second one begins with what the first one left unread. -/
theorem Guards.append {first second : Channel × Effects} (guards : channel.Guards [] first)
    (unread : first.1.intake.unread = channel.intake.unread) (later : first.1.Guards [] second) :
    channel.Guards [] (second.1, first.2.append second.2) where
  guarded := later.guarded
  free := by
    intro settlement member found success
    rcases List.mem_append.mp member with early | late
    · exact guards.free settlement early found success
    · rw [← unread]
      exact later.free settlement late found success

theorem guards_receive (guarded : channel.intake.guarded = true) (chunk : Bytes) :
    channel.Guards chunk (channel.receive chunk) := by
  unfold receive
  split
  · exact guards_nothing guarded chunk
  · exact Intake.guards_receive guarded chunk

theorem guards_closeInput (guarded : channel.intake.guarded = true) :
    channel.Guards [] channel.closeInput := by
  unfold closeInput
  split
  · exact guards_nothing guarded []
  · exact Intake.guards_finish guarded none

theorem guards_report (guarded : channel.intake.guarded = true) (message : String) :
    channel.Guards [] (channel.report message) := by
  unfold report
  dsimp only
  split
  · exact guards_nothing guarded []
  · exact Intake.guards_finish guarded _

theorem guards_destroy (guarded : channel.intake.guarded = true) :
    channel.Guards [] channel.destroy := by
  unfold destroy
  split
  · exact guards_nothing guarded []
  · exact Intake.guards_finish guarded none

theorem unread_report (channel : Channel) (message : String) :
    (channel.report message).1.intake.unread = channel.intake.unread := by
  unfold report
  dsimp only
  split
  · rfl
  · dsimp only [withIntake]
    unfold Intake.finish
    split
    · rfl
    · dsimp only
      split <;> rfl

theorem guards_fail (guarded : channel.intake.guarded = true) (message : String) :
    channel.Guards [] (channel.fail message) := by
  unfold fail
  split
  · exact guards_nothing guarded []
  · have reported := guards_report guarded message
    exact reported.append (unread_report channel message) (guards_destroy reported.guarded)

theorem guards_send (guarded : channel.intake.guarded = true) (line : String)
    (shown : Option String) :
    channel.Guards [] ((channel.send line shown).channel, (channel.send line shown).effects) := by
  unfold send
  dsimp only
  split
  · exact guards_nothing guarded []
  · split
    · exact (guards_nothing guarded []).append rfl (guards_fail guarded _)
    · exact guards_nothing guarded []

/-- The matches that a step ends waits with. -/
def Report.found (report : Report) : List Match :=
  report.settled.filterMap fun outcome => outcome.result.toOption.join

namespace Run

variable {run : Run}

structure Guards (run : Run) (arrived : Bytes) (result : Run × Report) : Prop where
  guarded : result.1.channel.intake.guarded = true
  free : ∀ found ∈ result.2.found, found.Free (run.unread ++ arrived)

theorem guards_onChannel {arrived : Bytes} {result : Channel × Effects}
    (guards : run.channel.Guards arrived result) : run.Guards arrived (run.onChannel result) where
  guarded := guards.guarded
  free := by
    intro found member
    obtain ⟨outcome, settled, success⟩ := List.mem_filterMap.mp member
    obtain ⟨settlement, inside, rfl⟩ := List.mem_map.mp settled
    apply guards.free settlement inside found
    cases result : settlement.result with
    | error failure => simp [Outcome.ofSettlement, result, Except.map, Except.toOption] at success
    | ok other =>
        simp only [Outcome.ofSettlement, result, Except.map, Except.toOption, Option.join_some,
          Option.some.injEq] at success
        rw [success]

theorem guards_advance (guarded : run.channel.intake.guarded = true) (length : Nat) :
    run.Guards [] (run.advance length) := by
  let later : Run := { run with clock := run.clock.advance length }
  have still : later.Guards [] (later.onChannel (run.channel, .none)) :=
    guards_onChannel (guards_nothing guarded [])
  have expired : run.channel.Guards [] run.channel.expire := Intake.guards_expire guarded
  have fired : later.Guards [] (later.onChannel run.channel.expire) := guards_onChannel expired
  unfold advance
  dsimp only
  split
  · exact ⟨still.guarded, still.free⟩
  · split
    · exact ⟨fired.guarded, fired.free⟩
    · exact ⟨still.guarded, still.free⟩

theorem guards_send (guarded : run.channel.intake.guarded = true) (line : String)
    (shown : Option String) : run.Guards [] (run.send line shown) := by
  have sent := guards_onChannel (Channel.guards_send guarded line shown)
  have own :
      ((run.channel.send line shown).result.map fun _ => (none : Option Match)).toOption.join =
        none := by
    cases (run.channel.send line shown).result <;> rfl
  have same : (run.send line shown).2.found =
      (run.onChannel ((run.channel.send line shown).channel,
        (run.channel.send line shown).effects)).2.found := by
    rw [send, Report.found, List.filterMap_cons, own]
    rfl
  exact ⟨sent.guarded, by rw [same]; exact sent.free⟩

theorem step_guards (guarded : run.channel.intake.guarded = true) (step : Step) :
    run.Guards (run.arrives step) (run.step step) := by
  have performed : run.Guards (run.arrives step) (run.perform step) := by
    cases step with
    | push chunk =>
        by_cases closed : (run.channel.inputClosed || run.channel.destroyed) = true
        · rw [perform, receive_closed chunk closed]
          exact guards_onChannel (guards_nothing guarded _)
        · have all : run.arrives (.push chunk) = chunk := if_neg closed
          rw [all]
          exact guards_onChannel (guards_receive guarded chunk)
    | closeInput => exact guards_onChannel (guards_closeInput guarded)
    | fail message => exact guards_onChannel (guards_fail guarded message)
    | report message => exact guards_onChannel (guards_report guarded message)
    | destroy => exact guards_onChannel (guards_destroy guarded)
    | failWrites message => exact guards_onChannel (guards_nothing guarded [])
    | expect patterns timeout => exact guards_onChannel (Intake.guards_await guarded _)
    | send line shown => exact guards_send guarded line shown
    | advance length => exact guards_advance guarded length
  exact ⟨performed.guarded, performed.free⟩

theorem guarded_after (guarded : run.channel.intake.guarded = true) (steps : List Step) :
    (run.after steps).channel.intake.guarded = true := by
  induction steps generalizing run with
  | nil => exact guarded
  | cons step others induction =>
      rw [after_cons]
      exact induction (step_guards guarded step).guarded

theorem delivered_append (run : Run) (steps more : List Step) :
    run.delivered (steps ++ more) = run.delivered steps ++ (run.after steps).delivered more := by
  induction steps generalizing run with
  | nil => rfl
  | cons step others induction =>
      rw [List.cons_append, delivered, induction, after_cons, delivered, List.append_assoc]

theorem found_empty (idle : run.channel.intake.wait = none) (limit : Option Number) :
    (run.step (.expect [.text ""] limit)).2.found = [⟨0, [], []⟩] := by
  have free : ¬run.channel.intake.wait.isSome = true := by
    rw [idle]
    exact Bool.false_ne_true
  simp only [step, perform, onChannel, Channel.await, withIntake, Intake.await, if_neg free,
    Intake.take?_empty]
  rfl

/-- Whatever happens on a guarded channel, no match of a step begins in the data of a literal of
the whole stream, if what was unread in front of the step begins between the stream's literals: so
it does unless the last match in front of it ended within a literal. Where it ended within a
literal's data, that data has no guard any more, and a wait for the empty text is matched in it. -/
theorem matches_begin_outside_literals (timeout : Number) (steps later : List Step) (next : Step) :
    let begun := start true timeout
    let run := begun.after steps
    let place := (begun.consumed steps).length
    let stream := begun.delivered (steps ++ next :: later)
    (Literal.Between stream place → ∀ found ∈ (run.step next).2.found,
        Literal.inside (Literal.regions stream) (place + found.before.length) = false) ∧
      (Literal.inside (Literal.regions stream) place = true →
        run.channel.intake.wait = none → ∀ limit,
          ∃ found ∈ (run.step (.expect [.text ""] limit)).2.found,
            Literal.inside (Literal.regions stream) (place + found.before.length) = true) := by
  intro begun run place stream
  have guarded : run.channel.intake.guarded = true := guarded_after rfl steps
  have kept : begun.consumed steps ++ run.unread = begun.delivered steps := begun.run_keeps steps
  have whole : stream = begun.consumed steps ++
      ((run.unread ++ run.arrives next) ++ (run.step next).1.delivered later) := by
    have parts := begun.delivered_append steps (next :: later)
    rw [← kept, delivered] at parts
    simpa only [List.append_assoc] using parts
  constructor
  · intro between found member
    have free := (step_guards guarded next).free found member
    have rest : stream.drop place =
        (run.unread ++ run.arrives next) ++ (run.step next).1.delivered later := by
      rw [whole]
      exact List.drop_left
    rw [Literal.inside_regions_behind between, rest, Literal.inside_regions_append _ _ free.within]
    exact free.outside
  · intro inside idle limit
    refine ⟨⟨0, [], []⟩, ?_, inside⟩
    rw [found_empty idle limit]
    exact List.mem_singleton_self _

/-- A parenthesis in a literal's data is passed over behind a match that ended in front of the
literal. Behind one that took the header, a match begins in the data. -/
theorem parenthesis_in_literal_is_passed_over :
    let begun := start true (.finite 1000)
    let push : Step := .push (Bytes.ofNarrow "* OK\r\n* 1 FETCH (BODY[] \x7b3\x7d\r\n:-))\r\n")
    let outside : List Step := [push, .expect [.text "* OK\r\n"] none]
    let within : List Step := [push, .expect [.text "\x7b3\x7d\r\n"] none]
    let next : Step := .expect [.text ")"] none
    let stream := begun.delivered (outside ++ [next])
    Literal.Between stream (begun.consumed outside).length ∧
      (∃ found ∈ ((begun.after outside).step next).2.found,
        found.before = Bytes.ofNarrow "* 1 FETCH (BODY[] \x7b3\x7d\r\n:-)" ∧
        Literal.inside (Literal.regions stream)
          ((begun.consumed outside).length + found.before.length) = false) ∧
      Literal.inside (Literal.regions stream) (begun.consumed within).length = true ∧
      (begun.after within).channel.intake.wait = none ∧
      ∃ found ∈ ((begun.after within).step (.expect [.text ""] none)).2.found,
        Literal.inside (Literal.regions stream)
          ((begun.consumed within).length + found.before.length) = true := by
  intro begun push outside within next stream
  have between : Literal.Between stream (begun.consumed outside).length := by
    have place : (begun.consumed outside).length = 6 := by decide +kernel
    have parts : stream = Bytes.ofNarrow "* OK\r\n* 1 FETCH (BODY[] \x7b3\x7d\r\n:-))\r\n" := by
      decide +kernel
    rw [place, parts]
    -- No header begins at any of the six bytes of the line.
    iterate 6 refine .byte (by decide +kernel) ?_
    exact .here _
  have inside : Literal.inside (Literal.regions stream) (begun.consumed within).length = true := by
    decide +kernel
  have idle : (begun.after within).channel.intake.wait = none := by decide +kernel
  have found : ((begun.after outside).step next).2.found =
      [⟨0, Bytes.ofNarrow "* 1 FETCH (BODY[] \x7b3\x7d\r\n:-)", Bytes.ofNarrow ")"⟩] := by
    decide +kernel
  have member : ⟨0, Bytes.ofNarrow "* 1 FETCH (BODY[] \x7b3\x7d\r\n:-)", Bytes.ofNarrow ")"⟩ ∈
      ((begun.after outside).step next).2.found := by
    rw [found]
    exact List.mem_singleton_self _
  have passes := (matches_begin_outside_literals (.finite 1000) outside [] next).1 between
  have matched := (matches_begin_outside_literals (.finite 1000) within []
    (.expect [.text ")"] none)).2 inside idle none
  exact ⟨between, ⟨_, member, rfl, passes _ member⟩, inside, idle, matched⟩

/-- A match that takes a literal's header with it leaves the literal's data without a guard, and a
later match begins in it. -/
theorem match_begins_behind_taken_header :
    let begun := start true (.finite 1000)
    let steps : List Step := [
      .push (Bytes.ofNarrow "* 1 FETCH (BODY[] \x7b5\x7d\r\nhello)\r\n"),
      .expect [.text "\x7b5\x7d\r\n"] none]
    let next : Step := .expect [.text "hello"] none
    let place := (begun.consumed steps).length
    let stream := begun.delivered (steps ++ [next])
    ∃ found ∈ ((begun.after steps).step next).2.found, found.text = Bytes.ofNarrow "hello" ∧
      Literal.inside (Literal.regions stream) (place + found.before.length) = true := by
  intro begun steps next place stream
  have found : ((begun.after steps).step next).2.found = [⟨0, [], Bytes.ofNarrow "hello"⟩] := by
    decide +kernel
  refine ⟨⟨0, [], Bytes.ofNarrow "hello"⟩, ?_, rfl, by decide +kernel⟩
  rw [found]
  exact List.mem_singleton_self _

end Run

end Channel

end ImapDialogue
