import ImapDialogue.Proofs.Channel.Ending

/-!
What becomes of the open wait while its time is not up. Whatever happens on a channel but the
firing of the timer, no wait is opened by it, and one that it ends has not run out of time.
-/

namespace ImapDialogue

def Failure.isTimeout : Failure → Bool
  | .timedOut _ _ _ => true
  | _ => false

def Untimed {α : Type} (how : Except Failure α) : Prop :=
  ∀ failure, how = .error failure → failure.isTimeout = false

theorem untimed_ok {α : Type} (answer : α) : Untimed (.ok answer : Except Failure α) := by
  rintro failure ⟨⟩

theorem untimed_error {α : Type} {failure : Failure} (other : failure.isTimeout = false) :
    Untimed (.error failure : Except Failure α) := by
  rintro _ ⟨⟩
  exact other

/-- A reason that may be left open, why a stream has ended. It is never that a wait ran out of
time. -/
def Failure.Outward (reason : Option Failure) : Prop :=
  ∀ failure, reason = some failure → failure.isTimeout = false

theorem Failure.outward_none : Outward none := by
  rintro failure ⟨⟩

theorem Failure.outward_connection (message : String) : Outward (some (.connection message)) := by
  rintro failure ⟨⟩
  rfl

theorem Failure.outward_or {reason later : Option Failure} (outward : Outward reason)
    (outward' : Outward later) : Outward (reason.or later) := by
  intro failure known
  rcases Option.or_eq_some_iff.mp known with first | ⟨_, second⟩
  · exact outward failure first
  · exact outward' failure second

theorem untimed_endOfStream {reason : Option Failure} (outward : Failure.Outward reason)
    (patterns : List Pattern) (unread : Bytes) :
    Untimed (.error (reason.getD (.endOfStream patterns unread)) : Except Failure Match) := by
  apply untimed_error
  cases reason with
  | none => rfl
  | some failure => exact outward failure rfl

/-- A wait that ends as it begins has had no time to run out of. -/
theorem Intake.untimed_answer {intake : Intake} (outward : Failure.Outward intake.failure)
    {patterns : List Pattern} {how : Except Failure Match}
    (answers : intake.answer? patterns = some how) : Untimed how := by
  unfold answer? at answers
  split at answers
  · cases answers
    exact untimed_error rfl
  · split at answers
    · cases answers
      exact untimed_ok _
    · split at answers
      · cases answers
        exact untimed_endOfStream outward patterns intake.unread
      · cases answers

namespace Channel

structure Calm (channel : Channel) : Prop where
  sound : channel.Sound
  outward : Failure.Outward channel.intake.failure

/-- What an event leaves is calm again. It opens no wait, and if it ends one, then not because its
time was up. -/
structure Spares (channel : Channel) (result : Channel × Effects) : Prop where
  calm : result.1.Calm
  wait : ∀ wait, result.1.intake.wait = some wait → channel.intake.wait = some wait
  settled : ∀ settlement ∈ result.2.settled, Untimed settlement.result

variable {channel : Channel}

theorem calm_fresh (fault : Option String) : { fresh true with writeFault := fault }.Calm where
  sound := ⟨(sound_fresh true).toSound, rfl, rfl⟩
  outward := Failure.outward_none

theorem Ends.wait_of_wait {ending : Ending} {fault : Option Failure} {result : Channel × Effects}
    (ends : channel.Ends ending fault result) {wait : Wait}
    (waits : result.1.intake.wait = some wait) : channel.intake.wait = some wait := by
  rw [ends.wait] at waits
  exact (Option.filter_eq_some_iff.mp waits).1

theorem Ends.mem_settled {ending : Ending} {fault : Option Failure} {result : Channel × Effects}
    (ends : channel.Ends ending fault result) {settlement : Settlement}
    (settles : settlement ∈ result.2.settled) :
    ∃ wait, channel.intake.wait = some wait ∧ settlement.ticket = wait.ticket ∧
      ending wait = some settlement.result := by
  rw [ends.settled, Option.mem_toList] at settles
  obtain ⟨wait, waits, settles⟩ := Option.bind_eq_some_iff.mp settles
  obtain ⟨how, how_ends, rfl⟩ := Option.map_eq_some_iff.mp settles
  exact ⟨wait, waits, rfl, how_ends⟩

theorem Spares.of_ends {ending : Ending} {fault : Option Failure} {result : Channel × Effects}
    (calm : channel.Calm) (ends : channel.Ends ending fault result)
    (outward : Failure.Outward fault)
    (untimed : ∀ wait how, ending wait = some how → Untimed how) : channel.Spares result where
  calm := by
    refine ⟨ends.sound, ?_⟩
    rw [ends.failure]
    exact Failure.outward_or calm.outward outward
  wait := fun _ => ends.wait_of_wait
  settled := by
    intro settlement settles
    obtain ⟨wait, _, _, how_ends⟩ := ends.mem_settled settles
    exact untimed wait _ how_ends

theorem Spares.of_cutOff {reason fault : Option Failure} {result : Channel × Effects}
    (calm : channel.Calm)
    (ends : channel.Ends (fun wait => some (channel.intake.cutOff reason wait)) fault result)
    (outward : Failure.Outward reason) (outward' : Failure.Outward fault) :
    channel.Spares result := by
  refine .of_ends calm ends outward' ?_
  rintro wait how ⟨⟩
  exact untimed_endOfStream outward wait.patterns channel.intake.unread

theorem spares_receive (calm : channel.Calm) (chunk : Bytes) :
    channel.Spares (channel.receive chunk) := by
  refine .of_ends calm (ends_receive calm.sound chunk) Failure.outward_none ?_
  intro wait how found
  obtain ⟨first, _, rfl⟩ := Option.map_eq_some_iff.mp found
  exact untimed_ok first

theorem spares_destroy (calm : channel.Calm) : channel.Spares channel.destroy :=
  .of_cutOff calm (ends_destroy calm.sound) Failure.outward_none Failure.outward_none

theorem spares_hangUp (calm : channel.Calm) : channel.Spares (Exchange.hangUp channel) :=
  .of_cutOff calm (ends_closeInput calm.sound).destroy Failure.outward_none Failure.outward_none

theorem spares_report (calm : channel.Calm) (message : String) :
    channel.Spares (channel.report message) :=
  .of_cutOff calm (ends_report calm.sound message) (Failure.outward_connection message)
    (Failure.outward_connection message)

theorem spares_fail (calm : channel.Calm) (message : String) :
    channel.Spares (channel.fail message) := by
  refine .of_cutOff calm (ends_fail calm.sound message) (Failure.outward_connection message) ?_
  split
  · exact Failure.outward_none
  · exact Failure.outward_connection message

theorem spares_failWrites (calm : channel.Calm) (message : String) :
    channel.Spares ({ channel with writeFault := some message }, .none) := by
  refine .of_ends calm (ends_failWrites calm.sound message) Failure.outward_none ?_
  rintro wait how ⟨⟩

theorem spares_send (calm : channel.Calm) (line : String) (shown : Option String) :
    channel.Spares ((channel.send line shown).channel, (channel.send line shown).effects) ∧
      Untimed (channel.send line shown).result := by
  have outward : ∀ fault : Option String, Failure.Outward (fault.map .connection) := by
    rintro (_ | message)
    · exact Failure.outward_none
    · exact Failure.outward_connection message
  constructor
  · refine .of_ends calm (ends_send calm.sound line shown) ?_ ?_
    · split
      · exact Failure.outward_none
      · exact outward channel.writeFault
    · intro wait how ends
      obtain ⟨message, _, rfl⟩ := Option.map_eq_some_iff.mp ends
      exact untimed_endOfStream (Failure.outward_connection message) wait.patterns
        channel.intake.unread
  · unfold send
    dsimp only
    split
    · apply untimed_error
      cases known : channel.intake.failure with
      | none => rfl
      | some failure => exact calm.outward failure known
    · split
      · exact untimed_error rfl
      · exact untimed_ok ()

/-- A wait that begins is the open one behind that, unless it ends at once, and then not because its
time was up. -/
theorem calm_await (calm : channel.Calm) (wait : Wait) :
    (channel.await wait).1.Calm ∧
      (∀ other, (channel.await wait).1.intake.wait = some other →
        channel.intake.wait = some other ∨ other = wait) ∧
      ∀ settlement ∈ (channel.await wait).2.settled, Untimed settlement.result := by
  have begins := begins_await calm.sound wait
  refine ⟨⟨begins.sound, begins.failure ▸ calm.outward⟩, ?_, ?_⟩
  · intro other waits
    have later := begins.begins.wait
    rw [waits] at later
    rcases Option.or_eq_some_iff.mp later.symm with old | ⟨_, new⟩
    · exact .inl old
    · split at new
      · exact .inr (Option.some.inj new).symm
      · cases new
  · intro settlement settles
    rw [show (channel.await wait).2.settled = _ from begins.begins.settled, Option.mem_toList]
      at settles
    obtain ⟨how, answers, rfl⟩ := Option.map_eq_some_iff.mp settles
    exact Intake.untimed_answer calm.outward answers

theorem calm_expire (calm : channel.Calm) :
    channel.expire.1.Calm ∧ channel.expire.1.intake.wait = none ∧
      ∀ settlement ∈ channel.expire.2.settled, ∃ wait, channel.intake.wait = some wait ∧
        settlement.ticket = wait.ticket ∧ settlement.result = channel.intake.timeUp wait := by
  have ends := ends_expire calm.sound
  refine ⟨⟨ends.sound, ?_⟩, ?_, ?_⟩
  · rw [ends.failure, Option.or_none]
    exact calm.outward
  · rw [ends.wait]
    cases channel.intake.wait <;> rfl
  · intro settlement settles
    obtain ⟨wait, waits, ticket, how_ends⟩ := ends.mem_settled settles
    exact ⟨wait, waits, ticket, (Option.some.inj how_ends).symm⟩

end Channel

end ImapDialogue
