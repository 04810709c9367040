import ImapDialogue.Proofs.Channel.Hearing

/-!
Events on a channel that bring no data. Those that close it, report an error on it or let its
timer fire end the open wait, and always with a failure.
-/

namespace ImapDialogue.Channel

structure Quiet (result : Channel × Effects) : Prop where
  traffic : result.2.traffic = []
  written : result.2.written = []

/-- The wait under a ticket fails, and nothing else happens to the data. -/
structure Breaks (ticket : Nat) (result : Channel × Effects) : Prop extends Quiet result where
  settled : ∃ failure, result.2.settled = [⟨ticket, .error failure⟩]

variable {channel : Channel} {wait : Wait} {unread : Bytes}

theorem written_receive (channel : Channel) (chunk : Bytes) :
    (channel.receive chunk).2.written = [] := by
  unfold receive
  split <;> rfl

theorem quiet_closeInput (channel : Channel) : Quiet channel.closeInput := by
  unfold closeInput
  split <;> exact ⟨rfl, rfl⟩

theorem quiet_destroy (channel : Channel) : Quiet channel.destroy := by
  unfold destroy
  split <;> exact ⟨rfl, rfl⟩

theorem quiet_report (channel : Channel) (message : String) : Quiet (channel.report message) := by
  unfold report
  dsimp only
  split <;> exact ⟨rfl, rfl⟩

theorem quiet_expire (channel : Channel) : Quiet channel.expire := ⟨rfl, rfl⟩

theorem Quiet.append {first second : Channel × Effects} (quiet : Quiet first)
    (quiet' : Quiet second) : Quiet (second.1, first.2.append second.2) where
  traffic := by rw [Effects.append, quiet.traffic, quiet'.traffic, List.append_nil]
  written := by rw [Effects.append, quiet.written, quiet'.written, List.append_nil]

theorem quiet_fail (channel : Channel) (message : String) : Quiet (channel.fail message) := by
  unfold fail
  split
  · exact ⟨rfl, rfl⟩
  · exact (quiet_report channel message).append (quiet_destroy _)

/-! ## Ends of waits -/

theorem finish_standing (opened : channel.Open) (reason : Option Failure) :
    ∃ failure, ((channel.holding unread (some wait)).intake.finish reason).2 =
      [⟨wait.ticket, .error failure⟩] := by
  have flowing : (channel.holding unread (some wait)).intake.ended = false := opened.flowing
  rw [Intake.finish, flowing]
  exact ⟨_, rfl⟩

theorem finish_ended {intake : Intake} (ended : intake.ended = true) (reason : Option Failure) :
    (intake.finish reason).2 = [] := by
  rw [Intake.finish, if_pos ended]

theorem ended_finish (intake : Intake) (reason : Option Failure) :
    (intake.finish reason).1.ended = true := by
  unfold Intake.finish
  split
  · assumption
  · dsimp only
    split <;> rfl

theorem Breaks.destroy {ticket : Nat} {result : Channel × Effects} (breaks : Breaks ticket result)
    (ended : result.1.intake.ended = true) :
    Breaks ticket (result.1.destroy.1, result.2.append result.1.destroy.2) where
  toQuiet := breaks.toQuiet.append (quiet_destroy result.1)
  settled := by
    obtain ⟨failure, settled⟩ := breaks.settled
    have silent : result.1.destroy.2.settled = [] := by
      unfold Channel.destroy
      split
      · rfl
      · exact finish_ended ended none
    refine ⟨failure, ?_⟩
    rw [Effects.append, settled, silent]
    rfl

theorem breaks_destroy (opened : channel.Open) :
    Breaks wait.ticket (channel.holding unread (some wait)).destroy where
  toQuiet := quiet_destroy _
  settled := by
    have alive : ¬(channel.holding unread (some wait)).destroyed = true := by
      simpa [holding] using opened.alive
    rw [Channel.destroy, if_neg alive]
    exact finish_standing opened none

theorem breaks_closeInput (opened : channel.Open) :
    Breaks wait.ticket (channel.holding unread (some wait)).closeInput ∧
      (channel.holding unread (some wait)).closeInput.1.intake.ended = true := by
  have readable : ¬((channel.holding unread (some wait)).inputClosed ||
      (channel.holding unread (some wait)).destroyed) = true := by
    simpa [holding] using And.intro opened.readable opened.alive
  refine ⟨⟨quiet_closeInput _, ?_⟩, ?_⟩
  · rw [closeInput, if_neg readable]
    exact finish_standing opened none
  · rw [closeInput, if_neg readable]
    exact ended_finish _ _

theorem breaks_report (opened : channel.Open) (fresh : channel.errorSeen = false)
    (message : String) :
    Breaks wait.ticket ((channel.holding unread (some wait)).report message) ∧
      ((channel.holding unread (some wait)).report message).1.intake.ended = true := by
  have fresh' : ¬(channel.holding unread (some wait)).errorSeen = true := by
    simpa [holding] using fresh
  refine ⟨⟨quiet_report _ message, ?_⟩, ?_⟩
  · simp only [report, if_neg fresh']
    exact finish_standing opened _
  · simp only [report, if_neg fresh']
    exact ended_finish _ _

theorem report_seen (seen : channel.errorSeen = true) (message : String) :
    channel.report message =
      (channel, { Effects.none with errors := [Failure.connection message] }) := by
  simp only [report, if_pos seen]

theorem breaks_fail (opened : channel.Open) (message : String) :
    Breaks wait.ticket ((channel.holding unread (some wait)).fail message) := by
  have alive : ¬(channel.holding unread (some wait)).destroyed = true := by
    simpa [holding] using opened.alive
  rw [fail, if_neg alive]
  cases seen : channel.errorSeen with
  | false =>
      obtain ⟨breaks, ended⟩ := @breaks_report channel wait unread opened seen message
      exact breaks.destroy ended
  | true =>
      have seen' : (channel.holding unread (some wait)).errorSeen = true := seen
      obtain ⟨quiet, settled⟩ := @breaks_destroy channel wait unread opened
      rw [report_seen seen']
      exact ⟨⟨quiet.traffic, quiet.written⟩, settled⟩

theorem breaks_expire : Breaks wait.ticket (channel.holding unread (some wait)).expire where
  toQuiet := quiet_expire _
  settled := ⟨_, rfl⟩

end ImapDialogue.Channel
