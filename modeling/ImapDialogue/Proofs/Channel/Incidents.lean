import ImapDialogue.Exchange.Basic
import ImapDialogue.Proofs.Channel.Closing

/-!
What happens to a channel without its owner: data comes in, or the channel closes. Nothing goes out
then, and a channel on which nothing can be sent any more stays so.
-/

namespace ImapDialogue.Channel

def Shut (channel : Channel) : Prop := channel.intake.ended = true ∨ channel.destroyed = true

/-- An event that sends nothing, shows nothing but data that comes in, and does not open a channel
that is shut. -/
structure Incident (channel : Channel) (result : Channel × Effects) : Prop where
  written : result.2.written = []
  incoming : ∀ traffic ∈ result.2.traffic, traffic.direction = .incoming
  shut : channel.Shut → result.1.Shut

variable {channel : Channel}

theorem Incident.of_quiet {result : Channel × Effects} (quiet : Quiet result)
    (shut : channel.Shut → result.1.Shut) : channel.Incident result where
  written := quiet.written
  incoming := by
    rw [quiet.traffic]
    rintro traffic ⟨⟩
  shut := shut

theorem shut_destroy (channel : Channel) : channel.destroy.1.Shut :=
  .inr channel.destroyed_destroy

theorem shut_fail (channel : Channel) (message : String) : (channel.fail message).1.Shut := by
  unfold fail
  split
  · exact .inr ‹_›
  · exact shut_destroy _

theorem incident_destroy (channel : Channel) : channel.Incident channel.destroy :=
  .of_quiet (quiet_destroy channel) fun _ => shut_destroy channel

theorem incident_fail (channel : Channel) (message : String) :
    channel.Incident (channel.fail message) :=
  .of_quiet (quiet_fail channel message) fun _ => shut_fail channel message

theorem incident_hangUp (channel : Channel) : channel.Incident (Exchange.hangUp channel) :=
  .of_quiet ((quiet_closeInput channel).append (quiet_destroy _)) fun _ => shut_destroy _

theorem incident_report (channel : Channel) (message : String) :
    channel.Incident (channel.report message) := by
  refine .of_quiet (quiet_report channel message) ?_
  intro shut
  unfold report
  dsimp only
  split
  · exact shut
  · exact .inl (ended_finish _ _)

theorem incident_expire (channel : Channel) : channel.Incident channel.expire := by
  refine .of_quiet (quiet_expire channel) ?_
  rintro (ended | destroyed)
  · left
    show channel.intake.expire.1.ended = true
    unfold Intake.expire
    split <;> exact ended
  · exact .inr destroyed

theorem ended_take? {intake behind : Intake} {patterns : List Pattern} {found : Match}
    (taken : intake.take? patterns = some (found, behind)) : behind.ended = intake.ended := by
  obtain ⟨_, _, same⟩ := Option.map_eq_some_iff.mp taken
  cases same
  rfl

theorem ended_receive (intake : Intake) (chunk : Bytes) :
    (intake.receive chunk).1.ended = intake.ended := by
  unfold Intake.receive
  dsimp only
  split
  · rfl
  · split
    · rfl
    · next taken =>
        have kept := ended_take? taken
        exact kept

theorem incident_receive (channel : Channel) (chunk : Bytes) :
    channel.Incident (channel.receive chunk) where
  written := written_receive channel chunk
  incoming := by
    unfold receive
    split
    · rintro traffic ⟨⟩
    · intro traffic member
      rw [List.mem_singleton.mp member]
  shut := by
    intro shut
    unfold receive
    split
    · exact shut
    · exact shut.imp (ended_receive _ chunk).trans id

theorem incident_failWrites (channel : Channel) (message : String) :
    channel.Incident ({ channel with writeFault := some message }, .none) :=
  .of_quiet ⟨rfl, rfl⟩ id

theorem incident_await (channel : Channel) (wait : Wait) : channel.Incident (channel.await wait) := by
  refine .of_quiet ⟨rfl, rfl⟩ ?_
  rintro (ended | destroyed)
  · left
    show (channel.intake.await wait).1.ended = true
    unfold Intake.await
    split
    · exact ended
    · split
      · next taken => exact (ended_take? taken).trans ended
      · exact ended
  · exact .inr destroyed

/-- A line is shown before it is known whether it can be sent. Either it goes out as it is, or
nothing can be sent any more. -/
theorem send_spec (channel : Channel) (line shown : String) :
    let sent := channel.send line (some shown)
    sent.effects.traffic = [⟨.outgoing, lineBytes shown⟩] ∧
      (channel.Shut → sent.channel.Shut) ∧
      ((sent.result = .ok () ∧ ¬channel.Shut ∧ sent.effects.written = [lineBytes line]) ∨
        ((∃ failure, sent.result = .error failure) ∧ sent.channel.Shut ∧
          sent.effects.written = [])) := by
  intro sent
  by_cases closed : channel.Shut
  · have barred : (channel.intake.ended || channel.destroyed) = true := by simpa [Shut] using closed
    have same : sent = ⟨.error (channel.intake.failure.getD .notWritable), channel,
        { Effects.none with traffic := [⟨.outgoing, lineBytes shown⟩] }⟩ := by
      simp only [sent, send, barred, if_true, Option.getD_some]
    rw [same]
    exact ⟨rfl, id, .inr ⟨⟨_, rfl⟩, closed, rfl⟩⟩
  · have free : (channel.intake.ended || channel.destroyed) = false := by
      simpa [Shut] using closed
    cases fault : channel.writeFault with
    | none =>
        have same : sent = ⟨.ok (), channel, { Effects.none with
            traffic := [⟨.outgoing, lineBytes shown⟩], written := [lineBytes line] }⟩ := by
          simp only [sent, send, free, fault, Bool.false_eq_true, if_false, Option.getD_some]
        rw [same]
        exact ⟨rfl, id, .inl ⟨rfl, closed, rfl⟩⟩
    | some message =>
        have quiet := quiet_fail channel message
        have same : sent = ⟨.error (.connection message), (channel.fail message).1,
            Effects.append { Effects.none with traffic := [⟨.outgoing, lineBytes shown⟩] }
              (channel.fail message).2⟩ := by
          simp only [sent, send, free, fault, Bool.false_eq_true, if_false, Option.getD_some]
        rw [same]
        refine ⟨?_, fun _ => shut_fail channel message, .inr ⟨⟨_, rfl⟩, shut_fail channel message, ?_⟩⟩
        · rw [Effects.append, quiet.traffic, List.append_nil]
        · rw [Effects.append, quiet.written]
          rfl

end ImapDialogue.Channel
