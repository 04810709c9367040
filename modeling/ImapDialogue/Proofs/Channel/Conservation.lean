import ImapDialogue.Channel.Run
import Mathlib.Data.List.Basic
import Mathlib.Tactic.Common

/-!
No byte is lost, doubled or moved. What the matches of a channel have consumed, in the order in
which they came, and what is still unread are together all that has arrived.
-/

namespace ImapDialogue

def Settlement.consumed (settlement : Settlement) : Bytes :=
  match settlement.result with
  | .ok found => found.before ++ found.text
  | .error _ => []

namespace Intake

/-- What ends of waits take away, and what is left behind them, is what was there and what
arrived. -/
def Keeps (intake : Intake) (arrived : Bytes) (result : Intake × List Settlement) : Prop :=
  result.2.flatMap Settlement.consumed ++ result.1.unread = intake.unread ++ arrived

theorem parts_of_take? {intake behind : Intake} {patterns : List Pattern} {found : Match}
    (takes : intake.take? patterns = some (found, behind)) :
    found.before ++ found.text ++ behind.unread = intake.unread := by
  obtain ⟨⟨found', rest⟩, first, same⟩ := Option.map_eq_some_iff.mp takes
  obtain ⟨⟨index, hit⟩, _, parts⟩ := Option.map_eq_some_iff.mp first
  cases same
  cases parts
  rw [List.append_assoc, ← List.drop_drop, List.take_append_drop, List.take_append_drop]

theorem keeps_receive (intake : Intake) (chunk : Bytes) :
    intake.Keeps chunk (intake.receive chunk) := by
  unfold Keeps receive
  dsimp only
  split
  · rfl
  · next wait _ =>
      split
      · rfl
      · next found rest takes =>
          have parts := parts_of_take? takes
          simpa [Settlement.consumed] using parts

theorem keeps_finish (intake : Intake) (reason : Option Failure) :
    intake.Keeps [] (intake.finish reason) := by
  unfold Keeps finish
  rw [List.append_nil]
  split
  · rfl
  · dsimp only
    split <;> rfl

theorem keeps_await (intake : Intake) (wait : Wait) : intake.Keeps [] (intake.await wait) := by
  unfold Keeps await
  rw [List.append_nil]
  split
  · rfl
  · split
    · next found rest takes =>
        have parts := parts_of_take? takes
        simpa [Settlement.consumed] using parts
    · split <;> rfl

theorem keeps_expire (intake : Intake) : intake.Keeps [] intake.expire := by
  unfold Keeps expire
  rw [List.append_nil]
  split <;> rfl

end Intake

namespace Channel

def Keeps (channel : Channel) (arrived : Bytes) (result : Channel × Effects) : Prop :=
  channel.intake.Keeps arrived (result.1.intake, result.2.settled)

theorem keeps_nothing (channel : Channel) : channel.Keeps [] (channel, .none) :=
  (List.append_nil _).symm

theorem Keeps.append {channel : Channel} {arrived : Bytes} {first second : Channel × Effects}
    (keeps : channel.Keeps arrived first) (later : first.1.Keeps [] second) :
    channel.Keeps arrived (second.1, first.2.append second.2) := by
  unfold Keeps Intake.Keeps at *
  rw [Effects.append, List.flatMap_append, List.append_assoc, later, List.append_nil, keeps]

theorem keeps_receive (channel : Channel) (chunk : Bytes)
    (open_ : (channel.inputClosed || channel.destroyed) = false) :
    channel.Keeps chunk (channel.receive chunk) := by
  unfold receive
  split
  · next closed =>
      rw [open_, Bool.false_or, List.isEmpty_iff] at closed
      rw [closed]
      exact channel.keeps_nothing
  · exact channel.intake.keeps_receive chunk

theorem receive_closed {channel : Channel} (chunk : Bytes)
    (closed : (channel.inputClosed || channel.destroyed) = true) :
    channel.receive chunk = (channel, .none) := by
  rw [receive, closed, Bool.true_or, if_pos rfl]

theorem keeps_closeInput (channel : Channel) : channel.Keeps [] channel.closeInput := by
  unfold closeInput
  split
  · exact channel.keeps_nothing
  · exact channel.intake.keeps_finish none

theorem keeps_report (channel : Channel) (message : String) :
    channel.Keeps [] (channel.report message) := by
  unfold report
  dsimp only
  split
  · exact channel.keeps_nothing
  · exact channel.intake.keeps_finish _

theorem keeps_destroy (channel : Channel) : channel.Keeps [] channel.destroy := by
  unfold destroy
  split
  · exact channel.keeps_nothing
  · exact channel.intake.keeps_finish none

theorem keeps_fail (channel : Channel) (message : String) :
    channel.Keeps [] (channel.fail message) := by
  unfold fail
  split
  · exact channel.keeps_nothing
  · exact (channel.keeps_report message).append (channel.report message).1.keeps_destroy

theorem keeps_send (channel : Channel) (line : String) (shown : Option String) :
    channel.Keeps [] ((channel.send line shown).channel, (channel.send line shown).effects) := by
  unfold send
  dsimp only
  split
  · exact channel.keeps_nothing
  · split
    · exact channel.keeps_nothing.append (channel.keeps_fail _)
    · exact channel.keeps_nothing

def Outcome.consumed (outcome : Outcome) : Bytes :=
  match outcome.result with
  | .ok (some found) => found.before ++ found.text
  | .ok none | .error _ => []

def Report.consumed (report : Report) : Bytes := report.settled.flatMap Outcome.consumed

theorem consumed_ofSettlement (settlement : Settlement) :
    (Outcome.ofSettlement settlement).consumed = settlement.consumed := by
  obtain ⟨ticket, result⟩ := settlement
  cases result <;> rfl

theorem consumed_ofEffects (effects : Effects) :
    (Report.ofEffects effects).consumed = effects.settled.flatMap Settlement.consumed := by
  rw [Report.consumed, Report.ofEffects, List.flatMap_map]
  apply List.flatMap_congr
  intro settlement _
  exact consumed_ofSettlement settlement

namespace Run

/-- The data that a step delivers. What comes behind the end of the stream is not delivered. -/
def arrives (run : Run) : Step → Bytes
  | .push chunk => if run.channel.inputClosed || run.channel.destroyed then [] else chunk
  | _ => []

/-- The data that no match has consumed yet. -/
def unread (run : Run) : Bytes := run.channel.intake.unread

theorem keeps_onChannel {run : Run} {arrived : Bytes} {result : Channel × Effects}
    (keeps : run.channel.Keeps arrived result) :
    (run.onChannel result).2.consumed ++ (run.onChannel result).1.unread =
      run.unread ++ arrived := by
  rw [onChannel, consumed_ofEffects]
  exact keeps

theorem keeps_advance (run : Run) (length : Nat) :
    (run.advance length).2.consumed ++ (run.advance length).1.unread = run.unread := by
  unfold advance
  dsimp only
  split
  · rfl
  · split
    · have keeps : run.channel.Keeps [] run.channel.expire := run.channel.intake.keeps_expire
      have later := @keeps_onChannel { run with clock := run.clock.advance length } _ _ keeps
      rw [later]
      exact List.append_nil _
    · rfl

theorem keeps_send (run : Run) (line : String) (shown : Option String) :
    (run.send line shown).2.consumed ++ (run.send line shown).1.unread = run.unread := by
  have sent := keeps_onChannel (run.channel.keeps_send line shown)
  have own : Outcome.consumed
      ⟨run.taken, (run.channel.send line shown).result.map fun _ => none⟩ = [] := by
    cases (run.channel.send line shown).result <;> rfl
  rw [List.append_nil] at sent
  rw [← sent, send, Report.consumed, List.flatMap_cons, own, List.nil_append]
  rfl

/-- No step loses data: what it takes away and leaves unread is what was unread and what it
delivers. -/
theorem step_keeps (run : Run) (step : Step) :
    (run.step step).2.consumed ++ (run.step step).1.unread = run.unread ++ run.arrives step := by
  have counted : (run.step step).1.unread = (run.perform step).1.unread := rfl
  have reported : (run.step step).2 = (run.perform step).2 := rfl
  rw [counted, reported]
  cases step with
  | push chunk =>
      by_cases closed : (run.channel.inputClosed || run.channel.destroyed) = true
      · have nothing : run.arrives (.push chunk) = [] := if_pos closed
        rw [nothing]
        have ignored := keeps_onChannel run.channel.keeps_nothing
        rw [← receive_closed chunk closed] at ignored
        exact ignored
      · have all : run.arrives (.push chunk) = chunk := if_neg closed
        rw [all]
        exact keeps_onChannel
          (run.channel.keeps_receive chunk (Bool.eq_false_iff.mpr closed))
  | closeInput => exact keeps_onChannel run.channel.keeps_closeInput
  | fail message => exact keeps_onChannel (run.channel.keeps_fail message)
  | report message => exact keeps_onChannel (run.channel.keeps_report message)
  | destroy => exact keeps_onChannel run.channel.keeps_destroy
  | failWrites message => exact keeps_onChannel run.channel.keeps_nothing
  | expect patterns timeout => exact keeps_onChannel (run.channel.intake.keeps_await _)
  | send line shown => exact (run.keeps_send line shown).trans (List.append_nil _).symm
  | advance length => exact (run.keeps_advance length).trans (List.append_nil _).symm

/-- The state behind some steps. -/
def after (run : Run) (steps : List Step) : Run :=
  ((run.trace steps).getLast?.map Prod.fst).getD run

/-- All that the matches of some steps took away, in order. -/
def consumed (run : Run) (steps : List Step) : Bytes :=
  (run.trace steps).flatMap fun entry => entry.2.consumed

/-- All that some steps deliver, in order. -/
def delivered (run : Run) : List Step → Bytes
  | [] => []
  | step :: others => run.arrives step ++ (run.step step).1.delivered others

theorem trace_cons (run : Run) (step : Step) (others : List Step) :
    run.trace (step :: others) = run.step step :: (run.step step).1.trace others := rfl

theorem after_cons (run : Run) (step : Step) (others : List Step) :
    run.after (step :: others) = (run.step step).1.after others := by
  rw [after, trace_cons]
  cases later : (run.step step).1.trace others with
  | nil =>
      rw [after, later]
      rfl
  | cons entry entries =>
      rw [after, later, List.getLast?_cons_cons]
      cases last : (entry :: entries).getLast? with
      | none => simp at last
      | some found => rfl

theorem run_keeps (run : Run) (steps : List Step) :
    run.consumed steps ++ (run.after steps).unread = run.unread ++ run.delivered steps := by
  induction steps generalizing run with
  | nil => exact (List.append_nil _).symm
  | cons step others induction =>
      have first := run.step_keeps step
      have later := induction (run.step step).1
      have both : run.consumed (step :: others) =
          (run.step step).2.consumed ++ (run.step step).1.consumed others := rfl
      rw [after_cons, delivered, both, List.append_assoc, later, ← List.append_assoc, first,
        List.append_assoc]

/-- Whether none of the requests that a step ends ends with a match. -/
def Fruitless (report : Report) : Prop :=
  (report.settled.all fun outcome => outcome.result.toOption.join.isNone) = true

theorem consumed_of_fruitless {report : Report} (fruitless : Fruitless report) :
    report.consumed = [] := by
  rw [Report.consumed, List.flatMap_eq_nil_iff]
  intro outcome member
  have matchless := List.all_eq_true.mp fruitless outcome member
  unfold Outcome.consumed
  split
  · next found same => simp [same, Except.toOption] at matchless
  · rfl
  · rfl

/-- What the observer of a channel sees coming in. -/
def incoming (report : Report) : Bytes :=
  (report.traffic.filter (·.direction = .incoming)).flatMap (·.bytes)

theorem incoming_of_silent {run : Run} {result : Channel × Effects}
    (silent : result.2.traffic = []) : incoming (run.onChannel result).2 = [] := by
  rw [incoming, onChannel, Report.ofEffects, silent]
  rfl

theorem traffic_destroy (channel : Channel) : channel.destroy.2.traffic = [] := by
  unfold destroy
  split <;> rfl

theorem traffic_fail (channel : Channel) (message : String) :
    (channel.fail message).2.traffic = [] := by
  have reported : (channel.report message).2.traffic = [] := by
    unfold report
    dsimp only
    split <;> rfl
  unfold fail
  split
  · rfl
  · dsimp only [Effects.append]
    rw [reported, traffic_destroy]
    rfl

theorem incoming_send (run : Run) (line : String) (shown : Option String) :
    incoming (run.send line shown).2 = [] := by
  have sent : ((run.channel.send line shown).effects.traffic.filter
      (·.direction = .incoming)) = [] := by
    unfold Channel.send
    dsimp only
    split
    · rfl
    · split
      · dsimp only [Effects.append]
        rw [traffic_fail]
        rfl
      · rfl
  rw [incoming, send, onChannel, Report.ofEffects]
  dsimp only
  rw [sent]
  rfl

theorem incoming_step (run : Run) (step : Step) :
    incoming (run.step step).2 = run.arrives step := by
  have reported : (run.step step).2 = (run.perform step).2 := rfl
  rw [reported]
  cases step with
  | push chunk =>
      by_cases closed : (run.channel.inputClosed || run.channel.destroyed) = true
      · have nothing : run.arrives (.push chunk) = [] := if_pos closed
        rw [nothing, perform, receive_closed chunk closed]
        rfl
      · have all : run.arrives (.push chunk) = chunk := if_neg closed
        rw [all, perform, incoming, onChannel, Report.ofEffects, receive]
        by_cases empty : chunk = []
        · simp [empty, Effects.none]
        · have filled : ¬ (run.channel.inputClosed || run.channel.destroyed ||
              chunk.isEmpty) = true := by
            rw [Bool.eq_false_iff.mpr closed, Bool.false_or, List.isEmpty_iff]
            exact empty
          rw [if_neg filled]
          exact List.append_nil chunk
  | closeInput =>
      apply incoming_of_silent
      unfold closeInput
      split <;> rfl
  | fail message => exact incoming_of_silent (traffic_fail run.channel message)
  | report message =>
      apply incoming_of_silent
      unfold Channel.report
      dsimp only
      split <;> rfl
  | destroy => exact incoming_of_silent (traffic_destroy run.channel)
  | failWrites message => rfl
  | expect patterns timeout => rfl
  | send line shown => exact run.incoming_send line shown
  | advance length =>
      rw [perform, advance]
      dsimp only
      split
      · rfl
      · split <;> rfl

/-- Whatever happens on a channel, matches and unread data are all that was delivered. A step
whose waits all fail takes nothing away. -/
theorem bytes_are_conserved (guarded : Bool) (timeout : Number) (steps : List Step) (next : Step) :
    let begun := start guarded timeout
    let run := begun.after steps
    begun.consumed steps ++ run.unread = begun.delivered steps ∧
      incoming (run.step next).2 = run.arrives next ∧
      (Fruitless (run.step next).2 → (run.step next).1.unread = run.unread ++ run.arrives next) := by
  intro begun run
  refine ⟨begun.run_keeps steps, run.incoming_step next, ?_⟩
  intro fruitless
  have kept := run.step_keeps next
  rw [consumed_of_fruitless fruitless, List.nil_append] at kept
  exact kept

/-- A wait that begins while another one is open is turned down and takes nothing away. -/
theorem second_wait_takes_nothing :
    let begun := start true (.finite 1000)
    let steps : List Step := [.push (Bytes.ofNarrow "xaby"), .expect [.text "a"] none,
      .expect [.text "zz"] none]
    let run := begun.after steps
    let next : Step := .expect [.text "b"] none
    Fruitless (run.step next).2 ∧ begun.consumed steps = Bytes.ofNarrow "xa" ∧
      (run.step next).1.unread = Bytes.ofNarrow "by" := by
  intro begun steps run next
  have fruitless : Fruitless (run.step next).2 := by
    unfold Fruitless
    decide +kernel
  have conserved := bytes_are_conserved true (.finite 1000) steps next
  refine ⟨fruitless, by decide +kernel, ?_⟩
  rw [conserved.2.2 fruitless]
  decide +kernel

end Run

end Channel

end ImapDialogue
