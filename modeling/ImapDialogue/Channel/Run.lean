import ImapDialogue.Channel.Basic

/-!
Runs of a channel: a sequence of things that happen on it or are asked of it, each with what
it causes. Requests are known by the number of their step.
-/

namespace ImapDialogue.Channel

inductive Step where
  | push (chunk : Bytes)
  | closeInput
  | fail (message : String)
  | report (message : String)
  | destroy
  | failWrites (message : String)
  | expect (patterns : List Pattern) (timeout : Option Number)
  | send (line : String) (shown : Option String)
  | advance (length : Nat)
deriving DecidableEq, Repr

/-- How a request on a channel ended: a wait with a match, a send with nothing. -/
structure Outcome where
  ticket : Nat
  result : Except Failure (Option Match)

def Outcome.ofSettlement (settlement : Settlement) : Outcome :=
  ⟨settlement.ticket, settlement.result.map some⟩

/-- What a step causes, in order within each part. -/
structure Report where
  settled : List Outcome
  traffic : List Traffic
  written : List Bytes

def Report.ofEffects (effects : Effects) : Report :=
  ⟨effects.settled.map .ofSettlement, effects.traffic, effects.written⟩

/-- A channel under observation: the clock, the timeout of waits that bring none of their own,
and how many steps have been taken. -/
structure Run where
  channel : Channel
  clock : Clock
  timeout : Number
  taken : Nat
deriving DecidableEq, Repr

namespace Run

def start (guarded : Bool) (timeout : Number) : Run := ⟨.fresh guarded, .start, timeout, 0⟩

def onChannel (run : Run) (result : Channel × Effects) : Run × Report :=
  ({ run with channel := result.1 }, .ofEffects result.2)

def advance (run : Run) (length : Nat) : Run × Report :=
  let later := { run with clock := run.clock.advance length }
  match run.channel.intake.wait with
  | none => (later, .ofEffects .none)
  | some wait =>
      if wait.timer.due ≤ later.clock.now then later.onChannel run.channel.expire
      else (later, .ofEffects .none)

/-- Sends a line. How that ended comes in front of the waits that it ends. -/
def send (run : Run) (line : String) (shown : Option String) : Run × Report :=
  let sent := run.channel.send line shown
  let (next, report) := run.onChannel (sent.channel, sent.effects)
  (next, { report with
    settled := ⟨run.taken, sent.result.map fun _ => none⟩ :: report.settled })

def perform (run : Run) : Step → Run × Report
  | .push chunk => run.onChannel (run.channel.receive chunk)
  | .closeInput => run.onChannel run.channel.closeInput
  | .fail message => run.onChannel (run.channel.fail message)
  | .report message => run.onChannel (run.channel.report message)
  | .destroy => run.onChannel run.channel.destroy
  | .failWrites message =>
      run.onChannel ({ run.channel with writeFault := some message }, .none)
  | .expect patterns timeout =>
      let timeout := timeout.getD run.timeout
      run.onChannel (run.channel.await ⟨run.taken, patterns, timeout, run.clock.timer timeout⟩)
  | .send line shown => run.send line shown
  | .advance length => run.advance length

def step (run : Run) (step : Step) : Run × Report :=
  let (next, report) := run.perform step
  ({ next with taken := run.taken + 1 }, report)

def trace (run : Run) : List Step → List (Run × Report)
  | [] => []
  | next :: others =>
      let (behind, report) := run.step next
      (behind, report) :: trace behind others

end Run

end ImapDialogue.Channel
