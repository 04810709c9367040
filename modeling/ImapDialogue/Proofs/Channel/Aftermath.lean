import ImapDialogue.Proofs.Channel.Settling

/-!
What is left of a channel when its stream has ended. It stays ended, nothing is sent any more, and
every wait is answered at once: from what is still unread, or else with the first error that the
stream ever had.
-/

namespace ImapDialogue

theorem Failure.tail_suffix (unread : Bytes) :
    tail unread <:+ unread ∧ (tail unread).length = min 200 unread.length := by
  refine ⟨List.drop_suffix _ _, ?_⟩
  rw [tail, List.length_drop, unreadLimit]
  omega

namespace Channel.Run

/-- The errors that some steps report, in order. -/
def faults (run : Run) : List Step → List Failure
  | [] => []
  | step :: others => (run.fault? step).toList ++ (run.step step).1.faults others

variable {run : Run}

theorem ended_after (sound : run.Sound) (ended : run.channel.intake.ended = true)
    (steps : List Step) : (run.after steps).channel.intake.ended = true := by
  induction steps generalizing run with
  | nil => exact ended
  | cons step others induction =>
      rw [after_cons]
      exact induction (sound_step sound step) ((step_goes sound step).final ended)

theorem failure_after (sound : run.Sound) (steps : List Step) :
    (run.after steps).channel.intake.failure =
      run.channel.intake.failure.or (run.faults steps).head? := by
  induction steps generalizing run with
  | nil => exact Option.or_none.symm
  | cons step others induction =>
      rw [after_cons, induction (sound_step sound step), (step_goes sound step).failure, faults,
        Option.or_assoc]
      cases run.fault? step <;> rfl

theorem answer_ended {intake : Intake} (sound : intake.Sound) (ended : intake.ended = true)
    (patterns : List Pattern) :
    intake.answer? patterns = some (match intake.take? patterns with
      | some (found, _) => .ok found
      | none => .error (intake.failure.getD (.endOfStream patterns intake.unread))) := by
  rw [Intake.answer?, sound.idle ended, Intake.found?_nil, ended]
  cases intake.take? patterns <;> rfl

theorem settled_expect_ended (sound : run.Sound) (ended : run.channel.intake.ended = true)
    (patterns : List Pattern) (limit : Option Number) :
    (run.step (.expect patterns limit)).2.settled =
      [⟨run.taken, match run.channel.intake.take? patterns with
        | some (found, _) => .ok (some found)
        | none => .error (run.channel.intake.failure.getD
            (.ended patterns (Failure.tail run.unread)))⟩] := by
  rw [(step_goes sound _).settled, reply?, closing?, sound.channel.idle ended,
    answer_ended sound.channel.toSound ended]
  cases run.channel.intake.take? patterns <;> rfl

theorem send_ended (ended : run.channel.intake.ended = true) (line : String)
    (shown : Option String) :
    (run.step (.send line shown)).2.settled =
        [⟨run.taken, .error (run.channel.intake.failure.getD .notWritable)⟩] ∧
      (run.step (.send line shown)).2.written = [] := by
  simp only [Run.step, perform, Run.send, Channel.send, ended, Bool.true_or, if_true]
  exact ⟨rfl, rfl⟩

theorem unread_push_ended (sound : run.Sound) (ended : run.channel.intake.ended = true)
    (chunk : Bytes) :
    (run.step (.push chunk)).1.unread = run.unread ++ run.arrives (.push chunk) := by
  have kept := run.step_keeps (.push chunk)
  have silent : (run.step (.push chunk)).2.settled = [] := by
    have replies : run.reply? (.push chunk) = none := rfl
    rw [(step_goes sound _).settled, replies, closing?, sound.channel.idle ended]
    rfl
  rw [Report.consumed, silent] at kept
  exact kept

/-- Once its stream has ended a channel stays ended, with no wait left open and with the first error
that the stream has had, if it has had one, even behind its end. Data that still arrives is kept. A
wait is answered at once, with a match that is there, or else with that error, or else with the end
of what is unread; and a line is not sent, for that error or for there being no channel any more. -/
theorem end_is_final (guarded : Bool) (timeout : Number) (before later : List Step)
    (chunk : Bytes) (patterns : List Pattern) (limit : Option Number) (line : String)
    (shown : Option String) :
    let begun := start guarded timeout
    let closed := begun.after before
    let run := begun.after (before ++ later)
    let first := (begun.faults (before ++ later)).head?
    closed.channel.intake.ended = true →
      run.channel.intake.ended = true ∧
        run.channel.intake.wait = none ∧
        run.channel.intake.failure = first ∧
        (∀ failure, closed.channel.intake.failure = some failure → first = some failure) ∧
        (run.step (.push chunk)).1.unread = run.unread ++ run.arrives (.push chunk) ∧
        (∃ kept, kept <:+ run.unread ∧ kept.length = min 200 run.unread.length ∧
          (run.step (.expect patterns limit)).2.settled =
            [⟨run.taken, match run.channel.intake.take? patterns with
              | some (found, _) => .ok (some found)
              | none => .error (first.getD (.ended patterns kept))⟩]) ∧
        (run.step (.send line shown)).2.settled =
          [⟨run.taken, .error (first.getD .notWritable)⟩] ∧
        (run.step (.send line shown)).2.written = [] := by
  intro begun closed run first ended
  have sound : begun.Sound := sound_start guarded timeout
  have sound' : run.Sound := sound_after sound _
  have onward : run = closed.after later := after_append begun before later
  have ended' : run.channel.intake.ended = true := by
    rw [onward]
    exact ended_after (sound_after sound before) ended later
  have remembered : run.channel.intake.failure = first := failure_after sound _
  have kept := Failure.tail_suffix run.unread
  obtain ⟨refused, silent⟩ := send_ended ended' line shown
  have answered := settled_expect_ended sound' ended' patterns limit
  rw [remembered] at refused answered
  refine ⟨ended', sound'.channel.idle ended', remembered, ?_, unread_push_ended sound' ended' chunk,
    ⟨Failure.tail run.unread, kept.1, kept.2, answered⟩, refused, silent⟩
  intro failure known
  rw [← remembered, onward, failure_after (sound_after sound before), known]
  rfl

/-- An error that comes only behind a clean end is told to the waits behind it. -/
theorem late_error_is_told :
    let begun := start true (.finite 1000)
    let before : List Step := [.push (Bytes.ofNarrow "ab"), .closeInput]
    let run := begun.after (before ++ [.report "reset"])
    (begun.after before).channel.intake.ended = true ∧
      (run.step (.expect [.text "zz"] none)).2.settled = [⟨3, .error (.connection "reset")⟩] ∧
      (run.step (.send "1 noop" none)).2.settled = [⟨3, .error (.connection "reset")⟩] := by
  intro begun before run
  have ended : (begun.after before).channel.intake.ended = true := by decide +kernel
  have final := end_is_final true (.finite 1000) before [.report "reset"] [] [.text "zz"] none
    "1 noop" none ended
  obtain ⟨_, _, remembered, _, _, ⟨kept, _, _, answered⟩, refused, _⟩ := final
  have nothing : run.channel.intake.take? [.text "zz"] = none := by decide +kernel
  have first : (begun.faults (before ++ [.report "reset"])).head? =
      some (.connection "reset") := by decide +kernel
  rw [nothing, first] at answered
  rw [first] at refused
  exact ⟨ended, answered, refused⟩

end Channel.Run

end ImapDialogue
