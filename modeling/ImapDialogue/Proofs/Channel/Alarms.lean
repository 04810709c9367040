import ImapDialogue.Proofs.Channel.Settling
import ImapDialogue.Proofs.Search

/-!
Alarms that go off on their own. What begins a wait sets an alarm, and a match or the end of the
stream stops it, each of them by itself; an alarm that goes off fails the wait that set it and
clears the place of the open wait, without a look at which wait that is. In no run does this make a
difference: there is never an alarm but that of the open wait.
-/

namespace ImapDialogue.Channel.Run

/-- A run and the alarms that are set, each known by the wait that set it. -/
structure Alarmed where
  run : Run
  alarms : List Wait

namespace Alarmed

def cleared (run : Run) : Run :=
  { run with channel.intake.wait := none }

def alert (run : Run) (alarm : Wait) : Settlement :=
  ⟨alarm.ticket, run.channel.intake.timeUp alarm⟩

def due (alarms : List Wait) (now : Nat) : List Wait :=
  (alarms.filter (·.timer.due ≤ now)).mergeSort (·.timer.due ≤ ·.timer.due)

/-- Moves the clock. The alarms that are due by then go off. -/
def advance (alarmed : Alarmed) (length : Nat) : Alarmed × Report :=
  let run := { alarmed.run with clock := alarmed.run.clock.advance length }
  let rung := due alarmed.alarms run.clock.now
  (⟨rung.foldl (fun run _ => cleared run) run, alarmed.alarms.filter (run.clock.now < ·.timer.due)⟩,
    .ofEffects (.ofSettlements (rung.map (alert run))))

/-- The alarms behind the beginning of a wait. It sets one if it is not turned down and finds
neither a match nor the end of the stream. -/
def awaited (alarms : List Wait) (intake : Intake) (wait : Wait) : List Wait :=
  if intake.wait.isSome then alarms
  else match intake.take? wait.patterns with
    | some _ => alarms
    | none => if intake.ended then alarms else alarms ++ [wait]

/-- The alarms behind data that arrives. A match stops that of the wait that it ends. -/
def received (alarms : List Wait) (intake : Intake) (chunk : Bytes) : List Wait :=
  match intake.wait with
  | none => alarms
  | some wait =>
      match { intake with unread := intake.unread ++ chunk }.take? wait.patterns with
      | none => alarms
      | some _ => alarms.erase wait

/-- The alarms behind the end of the stream, which stops that of the wait that it cuts off. -/
def finished (alarms : List Wait) (intake : Intake) : List Wait :=
  if intake.ended then alarms
  else match intake.wait with
    | none => alarms
    | some wait => alarms.erase wait

def reported (alarms : List Wait) (channel : Channel) : List Wait :=
  if channel.errorSeen then alarms else finished alarms channel.intake

def destroyed (alarms : List Wait) (channel : Channel) : List Wait :=
  if channel.destroyed then alarms else finished alarms channel.intake

def failed (alarms : List Wait) (channel : Channel) (message : String) : List Wait :=
  if channel.destroyed then alarms
  else destroyed (reported alarms channel) (channel.report message).1

/-- The alarms behind a step that does not move the clock. -/
def behind (alarms : List Wait) (run : Run) : Step → List Wait
  | .push chunk =>
      if run.channel.inputClosed || run.channel.destroyed || chunk.isEmpty then alarms
      else received alarms run.channel.intake chunk
  | .closeInput =>
      if run.channel.inputClosed || run.channel.destroyed then alarms
      else finished alarms run.channel.intake
  | .fail message => failed alarms run.channel message
  | .report _ => reported alarms run.channel
  | .destroy => destroyed alarms run.channel
  | .send _ _ =>
      if run.channel.intake.ended || run.channel.destroyed then alarms
      else match run.channel.writeFault with
        | none => alarms
        | some message => failed alarms run.channel message
  | .expect patterns limit => awaited alarms run.channel.intake (run.asked patterns limit)
  | .failWrites _ | .advance _ => alarms

def step (alarmed : Alarmed) : Step → Alarmed × Report
  | .advance length =>
      let (next, report) := alarmed.advance length
      (⟨{ next.run with taken := alarmed.run.taken + 1 }, next.alarms⟩, report)
  | step =>
      let (next, report) := alarmed.run.step step
      (⟨next, behind alarmed.alarms alarmed.run step⟩, report)

def trace (alarmed : Alarmed) : List Step → List (Alarmed × Report)
  | [] => []
  | next :: others =>
      let (behind, report) := alarmed.step next
      (behind, report) :: trace behind others

/-- A run with no alarm but that of the open wait. -/
def lone (run : Run) : Alarmed := ⟨run, run.channel.intake.wait.toList⟩

end Alarmed

open Alarmed (lone)

variable {run : Run}

/-- The alarm of the open wait is the only one that can go off, and it is this wait that it ends. -/
theorem alarmed_advance (run : Run) (length : Nat) :
    (lone run).advance length = (lone (run.advance length).1, (run.advance length).2) := by
  let later : Run := { run with clock := run.clock.advance length }
  cases waits : run.channel.intake.wait with
  | none =>
      have still : run.advance length = (later, .ofEffects .none) := by
        simp only [Run.advance, waits]
        rfl
      have silent : Alarmed.due [] later.clock.now = [] := List.mergeSort_nil
      rw [still, Alarmed.advance, lone, lone, waits, Option.toList_none, silent]
      rfl
  | some wait =>
      by_cases late : wait.timer.due ≤ later.clock.now
      · have fired : run.advance length = later.onChannel run.channel.expire := by
          simp only [Run.advance, waits]
          exact if_pos late
        have rings : Alarmed.due [wait] later.clock.now = [wait] := by simp [Alarmed.due, late]
        have gone : [wait].filter (later.clock.now < ·.timer.due) = [] := by simpa using late
        have expired : later.onChannel run.channel.expire =
            (Alarmed.cleared later, .ofEffects (.ofSettlements [Alarmed.alert run wait])) := by
          simp only [onChannel, Channel.expire, withIntake, Intake.expire, waits]
          rfl
        rw [fired, expired, Alarmed.advance, lone, lone, waits, Option.toList_some, rings, gone]
        rfl
      · have still : run.advance length = (later, .ofEffects .none) := by
          simp only [Run.advance, waits]
          exact if_neg late
        have silent : Alarmed.due [wait] later.clock.now = [] := by simp [Alarmed.due, late]
        have stays : [wait].filter (later.clock.now < ·.timer.due) = [wait] := by simpa using late
        rw [still, Alarmed.advance, lone, lone, waits, Option.toList_some, silent, stays]
        rfl

/-! ## Setting and stopping -/

namespace Alarmed

theorem awaited_lone (intake : Intake) (wait : Wait) :
    awaited intake.wait.toList intake wait = (intake.await wait).1.wait.toList := by
  unfold awaited Intake.await
  by_cases busy : intake.wait.isSome = true
  · rw [if_pos busy, if_pos busy]
  · have idle : intake.wait = none := by simpa using busy
    rw [if_neg busy, if_neg busy]
    cases takes : intake.take? wait.patterns with
    | some taken =>
        obtain ⟨found, rest⟩ := taken
        have kept := Intake.wait_take? takes
        simp only [kept]
    | none =>
        dsimp only
        split
        · rfl
        · rw [idle]
          rfl

theorem received_lone (intake : Intake) (chunk : Bytes) :
    received intake.wait.toList intake chunk = (intake.receive chunk).1.wait.toList := by
  unfold received Intake.receive
  cases waits : intake.wait with
  | none => rfl
  | some wait =>
      dsimp only
      cases Intake.take? { intake with
        unread := intake.unread ++ chunk
        wait := some wait } wait.patterns with
      | none => rfl
      | some taken => exact List.erase_cons_head wait []

theorem finished_lone (intake : Intake) (reason : Option Failure) :
    finished intake.wait.toList intake = (intake.finish reason).1.wait.toList := by
  unfold finished Intake.finish
  by_cases ended : intake.ended = true
  · rw [if_pos ended, if_pos ended]
  · rw [if_neg ended, if_neg ended]
    cases intake.wait with
    | none => rfl
    | some wait => exact List.erase_cons_head wait []

theorem reported_lone (channel : Channel) (message : String) :
    reported channel.intake.wait.toList channel =
      (channel.report message).1.intake.wait.toList := by
  unfold reported Channel.report
  by_cases seen : channel.errorSeen = true
  · rw [if_pos seen, if_pos seen]
  · rw [if_neg seen, if_neg seen]
    exact finished_lone channel.intake _

theorem destroyed_lone (channel : Channel) :
    destroyed channel.intake.wait.toList channel = channel.destroy.1.intake.wait.toList := by
  unfold destroyed Channel.destroy
  by_cases gone : channel.destroyed = true
  · rw [if_pos gone, if_pos gone]
  · rw [if_neg gone, if_neg gone]
    exact finished_lone channel.intake _

theorem failed_lone (channel : Channel) (message : String) :
    failed channel.intake.wait.toList channel message =
      (channel.fail message).1.intake.wait.toList := by
  unfold failed Channel.fail
  by_cases gone : channel.destroyed = true
  · rw [if_pos gone, if_pos gone]
  · rw [if_neg gone, if_neg gone, reported_lone channel message]
    exact destroyed_lone (channel.report message).1

/-- What a step sets and stops leaves the alarm of the wait that is open behind it. -/
theorem behind_lone (run : Run) {step : Step} (still : ∀ length, step ≠ .advance length) :
    behind run.channel.intake.wait.toList run step =
      (run.step step).1.channel.intake.wait.toList := by
  cases step with
  | push chunk =>
      simp only [behind, Run.step, perform, onChannel, Channel.receive]
      split
      · rfl
      · exact received_lone run.channel.intake chunk
  | closeInput =>
      simp only [behind, Run.step, perform, onChannel, Channel.closeInput]
      split
      · rfl
      · exact finished_lone run.channel.intake none
  | fail message => exact failed_lone run.channel message
  | report message => exact reported_lone run.channel message
  | destroy => exact destroyed_lone run.channel
  | failWrites message => rfl
  | expect patterns limit => exact awaited_lone run.channel.intake (run.asked patterns limit)
  | send line shown =>
      simp only [behind, Run.step, perform, Run.send, onChannel, Channel.send]
      split
      · rfl
      · cases run.channel.writeFault with
        | none => rfl
        | some message => exact failed_lone run.channel message
  | advance length => exact absurd rfl (still length)

end Alarmed

theorem alarmed_step (run : Run) (step : Step) :
    (lone run).step step = (lone (run.step step).1, (run.step step).2) := by
  cases step with
  | advance length =>
      rw [Alarmed.step, alarmed_advance]
      rfl
  | push | closeInput | fail | report | destroy | failWrites | expect | send =>
      apply Prod.ext
      · apply congrArg (Alarmed.mk _)
        apply Alarmed.behind_lone
        intro length same
        cases same
      · rfl

theorem alarmed_trace (run : Run) (steps : List Step) :
    (lone run).trace steps = (run.trace steps).map fun entry => (lone entry.1, entry.2) := by
  induction steps generalizing run with
  | nil => rfl
  | cons step others induction =>
      rw [Alarmed.trace, alarmed_step run step, trace_cons, List.map_cons,
        ← induction (run.step step).1]

/-- An open wait is not due yet, its stream goes on, and none of its patterns has a match yet. -/
structure Pending (run : Run) (wait : Wait) : Prop where
  flowing : run.channel.intake.ended = false
  missing : ∀ pattern ∈ wait.patterns,
    Search.locate pattern.probe run.channel.intake.barred (.start run.unread) = none
  ahead : run.clock.now < wait.timer.due

theorem pending_of_waits (sound : run.Sound) {wait : Wait}
    (waits : run.channel.intake.wait = some wait) : run.Pending wait where
  flowing := sound.channel.flowing waits
  missing := by
    have hungry := sound.channel.hungry wait waits
    rw [Intake.found?_nil, Option.map_eq_none_iff, Intake.take?, Option.map_eq_none_iff] at hungry
    exact Search.first_eq_none.mp hungry
  ahead := sound.ahead wait waits

/-- A wait that is asked for while another one is open is turned down, and nothing else changes. -/
theorem turned_down (busy : run.channel.intake.wait.isSome) (patterns : List Pattern)
    (limit : Option Number) :
    run.step (.expect patterns limit) =
      ({ run with taken := run.taken + 1 }, ⟨[⟨run.taken, .error .alreadyWaiting⟩], [], []⟩) := by
  simp only [Run.step, perform, onChannel, Channel.await, withIntake, Intake.await, if_pos busy]
  rfl

/-- In every state of a run the open wait is the one wait asked for that has not ended; it is
pending, and its alarm is the only one there is. Every wait asked for ends once, when and how its
fate says: at once, if a match is there, the stream has ended or another wait is open, or else with
the first step that brings a match, ends the stream or lets its own time run out. Until then it is
the open wait. -/
theorem waits_end_once (guarded : Bool) (timeout : Number) (before later : List Step)
    (patterns : List Pattern) (limit : Option Number) :
    let begun := start guarded timeout
    let run := begun.after before
    let steps := before ++ .expect patterns limit :: later
    (∀ wait, run.channel.intake.wait = some wait ↔
        wait ∈ begun.expecting before ∧ begun.endsOf wait.ticket before = []) ∧
      (∀ wait, run.channel.intake.wait = some wait → run.Pending wait) ∧
      Alarmed.trace ⟨begun, []⟩ before =
        (begun.trace before).map (fun entry => (lone entry.1, entry.2)) ∧
      begun.endsOf run.taken steps =
        (run.fate? patterns limit later).toList.map (fun ended => (ended.1, ended.2.map some)) ∧
      (run.fate? patterns limit later = none ↔
        (begun.after steps).channel.intake.wait = some (run.asked patterns limit)) ∧
      (run.channel.intake.wait.isSome → run.step (.expect patterns limit) =
        ({ run with taken := run.taken + 1 }, ⟨[⟨run.taken, .error .alreadyWaiting⟩], [], []⟩)) := by
  intro begun run steps
  have sound : begun.Sound := sound_start guarded timeout
  have sound' : run.Sound := sound_after sound before
  obtain ⟨ends, open_⟩ := endsOf_asked sound before later patterns limit
  refine ⟨waits_iff guarded timeout before, fun wait => pending_of_waits sound',
    alarmed_trace begun before, ends, open_, ?_⟩
  intro busy
  exact turned_down busy patterns limit

end ImapDialogue.Channel.Run
