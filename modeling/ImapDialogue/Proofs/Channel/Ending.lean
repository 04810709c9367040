import ImapDialogue.Proofs.Channel.Conservation
import ImapDialogue.Proofs.Channel.Incidents

/-!
Ends of waits. At all times a channel is sound: no wait is left open on a stream that has ended, and
one that is open waits for something that is not there. So it is settled what an event does to the
open wait, whichever it is, and the first error that a stream has is the one that is remembered.
-/

namespace ImapDialogue

abbrev Ending := Wait → Option (Except Failure Match)

namespace Intake

/-- The first match of some patterns once more data has arrived. -/
def found? (intake : Intake) (arrived : Bytes) (patterns : List Pattern) : Option Match :=
  let grown := { intake with unread := intake.unread ++ arrived }
  (Search.first grown.barred patterns grown.unread).map Prod.fst

/-- A sound channel has ended if it was closed or an error was reported on it, and remembers why if
an error was. -/
structure Sound (intake : Intake) : Prop where
  idle : intake.ended = true → intake.wait = none
  hungry : ∀ wait, intake.wait = some wait → intake.found? [] wait.patterns = none

/-- What an event leaves is sound again, and the open wait, if there is one, has ended in a given
way, or is open still if none is given. -/
structure Ends (intake : Intake) (ending : Ending) (result : Intake × List Settlement) : Prop where
  sound : result.1.Sound
  settled : result.2 =
    (intake.wait.bind fun wait => (ending wait).map (Settlement.mk wait.ticket)).toList
  wait : result.1.wait = intake.wait.filter fun wait => (ending wait).isNone

def cutOff (intake : Intake) (reason : Option Failure) (wait : Wait) : Except Failure Match :=
  .error (reason.getD (.endOfStream wait.patterns intake.unread))

def timeUp (intake : Intake) (wait : Wait) : Except Failure Match :=
  .error (.timeout wait.patterns wait.timeout intake.unread)

variable {intake : Intake}

theorem Sound.of_idle (idle : intake.wait = none) : intake.Sound where
  idle := fun _ => idle
  hungry := by
    intro wait waits
    rw [idle] at waits
    cases waits

theorem Ends.of_idle {ending : Ending} {result : Intake × List Settlement}
    (idle : intake.wait = none) (settled : result.2 = []) (wait : result.1.wait = none) :
    intake.Ends ending result where
  sound := .of_idle wait
  settled := by rw [settled, idle]; rfl
  wait := by rw [wait, idle]; rfl

theorem Ends.of_end {ending : Ending} {result : Intake × List Settlement} {wait : Wait}
    {how : Except Failure Match} (waits : intake.wait = some wait) (how_ends : ending wait = some how)
    (settled : result.2 = [⟨wait.ticket, how⟩]) (idle : result.1.wait = none) :
    intake.Ends ending result where
  sound := .of_idle idle
  settled := by rw [settled, waits, Option.bind_some, how_ends]; rfl
  wait := by rw [idle, waits, Option.filter_some, how_ends]; rfl

theorem Ends.of_open {ending : Ending} {result : Intake × List Settlement} {wait : Wait}
    (waits : intake.wait = some wait) (no_end : ending wait = none) (settled : result.2 = [])
    (still : result.1.wait = some wait) (sound : result.1.Sound) : intake.Ends ending result where
  sound := sound
  settled := by rw [settled, waits, Option.bind_some, no_end]; rfl
  wait := by rw [still, waits, Option.filter_some, no_end]; rfl

theorem Sound.ends_nothing (sound : intake.Sound) : intake.Ends (fun _ => none) (intake, []) := by
  cases waits : intake.wait with
  | none => exact .of_idle waits rfl waits
  | some wait => exact .of_open waits rfl rfl waits sound

theorem wait_take? {behind : Intake} {patterns : List Pattern} {found : Match}
    (takes : intake.take? patterns = some (found, behind)) : behind.wait = intake.wait := by
  obtain ⟨_, _, same⟩ := Option.map_eq_some_iff.mp takes
  cases same
  rfl

theorem Sound.flowing (sound : intake.Sound) {wait : Wait} (waits : intake.wait = some wait) :
    intake.ended = false := by
  rw [Bool.eq_false_iff]
  intro ended
  rw [sound.idle ended] at waits
  cases waits

theorem found?_eq_take? (intake : Intake) (arrived : Bytes) (patterns : List Pattern) :
    intake.found? arrived patterns =
      ({ intake with unread := intake.unread ++ arrived }.take? patterns).map Prod.fst := by
  rw [take?, Option.map_map]
  rfl

theorem found?_nil (intake : Intake) (patterns : List Pattern) :
    intake.found? [] patterns = (intake.take? patterns).map Prod.fst := by
  rw [found?_eq_take?, List.append_nil]

theorem ends_receive (sound : intake.Sound) (chunk : Bytes) :
    intake.Ends (fun wait => (intake.found? chunk wait.patterns).map .ok)
      (intake.receive chunk) := by
  unfold receive
  dsimp only
  split
  · next idle => exact .of_idle idle rfl idle
  · next wait waits =>
      have found := intake.found?_eq_take? chunk wait.patterns
      split
      · next nothing =>
          rw [nothing] at found
          have flowing := Bool.eq_false_iff.mp (sound.flowing waits)
          refine .of_open waits (by rw [found]; rfl) rfl waits ⟨fun ended => absurd ended flowing, ?_⟩
          intro other same
          obtain rfl := Option.some.inj (waits.symm.trans same)
          rw [found?_nil, nothing]
          rfl
      · next takes =>
          rw [takes] at found
          exact .of_end waits (by rw [found]; rfl) rfl rfl

theorem ends_finish (sound : intake.Sound) (reason : Option Failure) :
    intake.Ends (fun wait => some (intake.cutOff reason wait)) (intake.finish reason) := by
  unfold finish
  split
  · next ended => exact .of_idle (sound.idle ended) rfl (sound.idle ended)
  · dsimp only
    split
    · next idle => exact .of_idle idle rfl rfl
    · next wait waits => exact .of_end waits rfl rfl rfl

theorem ends_expire (intake : Intake) :
    intake.Ends (fun wait => some (intake.timeUp wait)) intake.expire := by
  unfold expire
  split
  · next idle => exact .of_idle idle rfl idle
  · next wait waits => exact .of_end waits rfl rfl rfl

/-- How a wait ends that has only just begun, if it does not stay open. -/
def answer? (intake : Intake) (patterns : List Pattern) : Option (Except Failure Match) :=
  if intake.wait.isSome then some (.error .alreadyWaiting)
  else match intake.found? [] patterns with
    | some found => some (.ok found)
    | none =>
        if intake.ended then
          some (.error (intake.failure.getD (.endOfStream patterns intake.unread)))
        else none

/-- A wait that begins leaves the open one alone. It is open itself behind that if it has no
answer yet. -/
structure Begins (intake : Intake) (wait : Wait) (result : Intake × List Settlement) : Prop where
  sound : result.1.Sound
  settled : result.2 = ((intake.answer? wait.patterns).map (Settlement.mk wait.ticket)).toList
  wait : result.1.wait =
    intake.wait.or (if (intake.answer? wait.patterns).isNone then some wait else none)

theorem idle_of_answer {patterns : List Pattern} (no_answer : intake.answer? patterns = none) :
    intake.wait = none := by
  unfold answer? at no_answer
  split at no_answer
  · cases no_answer
  · next free => simpa using free

theorem begins_await (sound : intake.Sound) (wait : Wait) :
    intake.Begins wait (intake.await wait) := by
  unfold await
  split
  · next busy =>
      have answer : intake.answer? wait.patterns = some (.error .alreadyWaiting) := if_pos busy
      refine ⟨sound, by rw [answer]; rfl, ?_⟩
      rw [answer]
      exact Option.or_none.symm
  · next free =>
      have idle : intake.wait = none := by simpa using free
      have found := intake.found?_nil wait.patterns
      split
      · next first behind takes =>
          rw [takes] at found
          have answer : intake.answer? wait.patterns = some (.ok first) := by
            rw [answer?, if_neg free, found]
            rfl
          have kept := wait_take? takes
          refine ⟨.of_idle (kept.trans idle), by rw [answer]; rfl, ?_⟩
          rw [answer, idle]
          exact kept.trans idle
      · next nothing =>
          rw [nothing] at found
          split
          · next ended =>
              have answer : intake.answer? wait.patterns = some (.error (intake.failure.getD
                  (.endOfStream wait.patterns intake.unread))) := by
                rw [answer?, if_neg free, found]
                exact if_pos ended
              refine ⟨sound, by rw [answer]; rfl, ?_⟩
              rw [answer, idle]
              rfl
          · next flowing =>
              have answer : intake.answer? wait.patterns = none := by
                rw [answer?, if_neg free, found]
                exact if_neg flowing
              refine ⟨⟨fun ended => absurd ended flowing, ?_⟩, by rw [answer]; rfl, ?_⟩
              · rintro other ⟨⟩
                exact found
              · rw [answer, idle]
                rfl

end Intake

namespace Channel

structure Sound (channel : Channel) : Prop extends channel.intake.Sound where
  ended : channel.intake.ended = (channel.inputClosed || channel.destroyed || channel.errorSeen)
  blamed : channel.intake.failure.isSome = channel.errorSeen

/-- What an event leaves is sound again, the open wait has ended in a given way or is open still, an
error of the event is remembered if it is the first one, and a stream that has ended stays so. -/
structure Ends (channel : Channel) (ending : Ending) (fault : Option Failure)
    (result : Channel × Effects) : Prop where
  sound : result.1.Sound
  settled : result.2.settled =
    (channel.intake.wait.bind fun wait => (ending wait).map (Settlement.mk wait.ticket)).toList
  wait : result.1.intake.wait = channel.intake.wait.filter fun wait => (ending wait).isNone
  failure : result.1.intake.failure = channel.intake.failure.or fault
  final : channel.intake.ended = true → result.1.intake.ended = true

variable {channel : Channel}

theorem sound_fresh (guarded : Bool) : (fresh guarded).Sound where
  idle := fun _ => rfl
  hungry := by rintro wait ⟨⟩
  ended := rfl
  blamed := rfl

/-- An event that does nothing to a channel, as none of its waits ends in it and none of its errors
is the first one. -/
theorem Sound.ends_nothing (sound : channel.Sound) {ending : Ending} {fault : Option Failure}
    {effects : Effects} (no_end : ∀ wait, channel.intake.wait = some wait → ending wait = none)
    (known : channel.intake.failure.or fault = channel.intake.failure)
    (silent : effects.settled = []) : channel.Ends ending fault (channel, effects) where
  sound := sound
  settled := by
    rw [silent]
    cases waits : channel.intake.wait with
    | none => rfl
    | some wait =>
        rw [Option.bind_some, no_end wait waits]
        rfl
  wait := by
    cases waits : channel.intake.wait with
    | none => rfl
    | some wait =>
        rw [Option.filter_some, no_end wait waits]
        rfl
  failure := known.symm
  final := id

theorem Sound.no_wait (sound : channel.Sound)
    (closed : (channel.inputClosed || channel.destroyed || channel.errorSeen) = true) (wait : Wait) :
    channel.intake.wait ≠ some wait := by
  rw [sound.idle (sound.ended.trans closed)]
  rintro ⟨⟩

theorem Sound.ends_ended (sound : channel.Sound) (ending : Ending) {fault : Option Failure}
    {effects : Effects}
    (closed : (channel.inputClosed || channel.destroyed || channel.errorSeen) = true)
    (known : channel.intake.failure.or fault = channel.intake.failure)
    (silent : effects.settled = []) : channel.Ends ending fault (channel, effects) :=
  sound.ends_nothing (fun wait waits => absurd waits (sound.no_wait closed wait)) known silent

/-- An event at the intake that neither ends the stream nor finds a reason why it has ended. -/
theorem Ends.of_intake {ending : Ending} {result : Intake × List Settlement} (sound : channel.Sound)
    (ends : channel.intake.Ends ending result) (ended : result.1.ended = channel.intake.ended)
    (failure : result.1.failure = channel.intake.failure) (effects : Effects)
    (settled : effects.settled = result.2) :
    channel.Ends ending none ({ channel with intake := result.1 }, effects) where
  sound := ⟨ends.sound, ended.trans sound.ended,
    (congrArg Option.isSome failure).trans sound.blamed⟩
  settled := settled.trans ends.settled
  wait := ends.wait
  failure := failure.trans Option.or_none.symm
  final := ended.trans

theorem failure_take? {intake behind : Intake} {patterns : List Pattern} {found : Match}
    (takes : intake.take? patterns = some (found, behind)) : behind.failure = intake.failure := by
  obtain ⟨_, _, same⟩ := Option.map_eq_some_iff.mp takes
  cases same
  rfl

theorem failure_receive (intake : Intake) (chunk : Bytes) :
    (intake.receive chunk).1.failure = intake.failure := by
  unfold Intake.receive
  dsimp only
  split
  · rfl
  · split
    · rfl
    · next takes =>
        have kept := failure_take? takes
        exact kept

theorem failure_finish {intake : Intake} (blamed : intake.failure.isSome → intake.ended = true)
    (reason : Option Failure) :
    (intake.finish reason).1.failure = intake.failure.or reason := by
  unfold Intake.finish
  split
  · rfl
  · next flowing =>
      have blameless : intake.failure = none := by
        cases failure : intake.failure with
        | none => rfl
        | some _ => exact absurd (blamed (by rw [failure]; rfl)) flowing
      rw [blameless]
      dsimp only
      split <;> rfl

theorem Ends.of_finish {closed : Channel} (sound : channel.Sound) (reason : Option Failure)
    (same : closed.intake = channel.intake)
    (shut : (closed.inputClosed || closed.destroyed || closed.errorSeen) = true)
    (reported : closed.errorSeen = (channel.errorSeen || reason.isSome)) :
    channel.Ends (fun wait => some (channel.intake.cutOff reason wait)) reason
      (closed.withIntake (·.finish reason)) := by
  have ends := Intake.ends_finish sound.toSound reason
  have blamed : channel.intake.failure.isSome → channel.intake.ended = true := by
    rw [sound.blamed, sound.ended]
    intro seen
    rw [seen, Bool.or_true]
  have failure := failure_finish blamed reason
  unfold withIntake
  rw [same]
  refine ⟨⟨ends.sound, ?_, ?_⟩, ends.settled, ends.wait, failure, fun _ => ended_finish _ reason⟩
  · exact (ended_finish _ reason).trans shut.symm
  · show (channel.intake.finish reason).1.failure.isSome = closed.errorSeen
    rw [failure, reported, Option.isSome_or, sound.blamed]

theorem ends_receive (sound : channel.Sound) (chunk : Bytes) :
    channel.Ends (fun wait => (channel.intake.found? chunk wait.patterns).map .ok) none
      (channel.receive chunk) := by
  have ends := Intake.ends_receive sound.toSound chunk
  have failure := failure_receive channel.intake chunk
  unfold receive
  split
  · next ignored =>
      refine sound.ends_nothing ?_ Option.or_none rfl
      intro wait waits
      rcases (Bool.or_eq_true _ _).mp ignored with closed | empty
      · exact absurd waits (sound.no_wait (by rw [closed, Bool.true_or]) wait)
      · rw [List.isEmpty_iff.mp empty, sound.hungry wait waits]
        rfl
  · exact .of_intake sound ends (ended_receive _ chunk) failure _ rfl

theorem ends_closeInput (sound : channel.Sound) :
    channel.Ends (fun wait => some (channel.intake.cutOff none wait)) none channel.closeInput := by
  unfold closeInput
  split
  · next closed => exact sound.ends_ended _ (by rw [closed, Bool.true_or]) Option.or_none rfl
  · exact .of_finish sound none rfl rfl (Bool.or_false _).symm

theorem ends_destroy (sound : channel.Sound) :
    channel.Ends (fun wait => some (channel.intake.cutOff none wait)) none channel.destroy := by
  unfold destroy
  split
  · next closed =>
      exact sound.ends_ended _ (by rw [closed, Bool.or_true, Bool.true_or]) Option.or_none rfl
  · refine .of_finish sound none rfl ?_ (Bool.or_false _).symm
    exact congrArg (· || channel.errorSeen) (Bool.or_true channel.inputClosed)

theorem ends_report (sound : channel.Sound) (message : String) :
    channel.Ends (fun wait => some (channel.intake.cutOff (some (.connection message)) wait))
      (some (.connection message)) (channel.report message) := by
  unfold report
  dsimp only
  split
  · next seen =>
      have known := sound.blamed.trans seen
      exact sound.ends_ended _ (by rw [seen, Bool.or_true])
        (Option.or_eq_left_of_isSome known) rfl
  · have ends : channel.Ends _ (some (.connection message))
        ({ channel with errorSeen := true }.withIntake (·.finish _)) :=
      .of_finish sound (some (.connection message)) rfl (Bool.or_true _) (Bool.or_true _).symm
    exact ⟨ends.sound, ends.settled, ends.wait, ends.failure, ends.final⟩

theorem Ends.destroy {how : Wait → Except Failure Match} {fault : Option Failure}
    {result : Channel × Effects} (ends : channel.Ends (fun wait => some (how wait)) fault result) :
    channel.Ends (fun wait => some (how wait)) fault
      (result.1.destroy.1, result.2.append result.1.destroy.2) := by
  have destroyed := ends_destroy ends.sound
  have idle : result.1.intake.wait = none := by
    rw [ends.wait]
    cases channel.intake.wait <;> rfl
  refine ⟨destroyed.sound, ?_, ?_, ?_, destroyed.final ∘ ends.final⟩
  · rw [Effects.append, destroyed.settled, ends.settled, idle]
    exact List.append_nil _
  · rw [destroyed.wait, idle, ← ends.wait, idle]
    rfl
  · rw [destroyed.failure, ends.failure, Option.or_none]

theorem ends_fail (sound : channel.Sound) (message : String) :
    channel.Ends (fun wait => some (channel.intake.cutOff (some (.connection message)) wait))
      (if channel.destroyed then none else some (.connection message)) (channel.fail message) := by
  unfold fail
  split
  · next closed =>
      exact sound.ends_ended _ (by rw [closed, Bool.or_true, Bool.true_or]) Option.or_none rfl
  · exact (ends_report sound message).destroy

theorem ends_expire (sound : channel.Sound) :
    channel.Ends (fun wait => some (channel.intake.timeUp wait)) none channel.expire := by
  have kept : channel.intake.expire.1.ended = channel.intake.ended ∧
      channel.intake.expire.1.failure = channel.intake.failure := by
    unfold Intake.expire
    split <;> exact ⟨rfl, rfl⟩
  exact .of_intake sound channel.intake.ends_expire kept.1 kept.2 _ rfl

theorem ends_failWrites (sound : channel.Sound) (message : String) :
    channel.Ends (fun _ => none) none ({ channel with writeFault := some message }, .none) := by
  have ends := sound.toSound.ends_nothing
  exact ⟨⟨ends.sound, sound.ended, sound.blamed⟩, ends.settled, ends.wait, Option.or_none.symm, id⟩

/-- A line that cannot be sent for a reason of its own ends the stream for that reason. -/
theorem ends_send (sound : channel.Sound) (line : String) (shown : Option String) :
    channel.Ends
      (fun wait => channel.writeFault.map fun message =>
        channel.intake.cutOff (some (.connection message)) wait)
      (if channel.intake.ended then none else channel.writeFault.map .connection)
      ((channel.send line shown).channel, (channel.send line shown).effects) := by
  have shut : (channel.intake.ended || channel.destroyed) = channel.intake.ended := by
    rw [sound.ended]
    cases channel.inputClosed <;> cases channel.destroyed <;> cases channel.errorSeen <;> rfl
  unfold send
  dsimp only
  rw [shut]
  split
  · next ended => exact sound.ends_ended _ (sound.ended.symm.trans ended) Option.or_none rfl
  · next flowing =>
      have alive : channel.destroyed = false := by
        cases destroyed : channel.destroyed with
        | false => rfl
        | true =>
            rw [sound.ended, destroyed] at flowing
            simp at flowing
      split
      · next message fault =>
          rw [fault]
          have ends := ends_fail sound message
          rw [alive] at ends
          exact ⟨ends.sound, ends.settled, ends.wait, ends.failure, ends.final⟩
      · next fault =>
          rw [fault]
          exact sound.ends_nothing (fun _ _ => rfl) Option.or_none rfl

structure Begins (channel : Channel) (wait : Wait) (result : Channel × Effects) : Prop where
  sound : result.1.Sound
  begins : channel.intake.Begins wait (result.1.intake, result.2.settled)
  failure : result.1.intake.failure = channel.intake.failure
  ended : result.1.intake.ended = channel.intake.ended

theorem begins_await (sound : channel.Sound) (wait : Wait) :
    channel.Begins wait (channel.await wait) := by
  have begins := Intake.begins_await sound.toSound wait
  have kept : (channel.intake.await wait).1.ended = channel.intake.ended ∧
      (channel.intake.await wait).1.failure = channel.intake.failure := by
    unfold Intake.await
    split
    · exact ⟨rfl, rfl⟩
    · split
      · next takes => exact ⟨ended_take? takes, failure_take? takes⟩
      · split <;> exact ⟨rfl, rfl⟩
  refine ⟨⟨begins.sound, ?_, ?_⟩, begins, kept.2, kept.1⟩
  · exact kept.1.trans sound.ended
  · exact (congrArg Option.isSome kept.2).trans sound.blamed

end Channel

end ImapDialogue
