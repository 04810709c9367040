import ImapDialogue.Intake.Basic
import ImapDialogue.Wire.Utf8

/-!
A two-way byte channel with an intake on its incoming side. Everything that passes is shown
to an observer as traffic; a line may be shown in another form than it is sent in.
-/

namespace ImapDialogue

inductive Direction where
  | incoming
  | outgoing
deriving DecidableEq, Repr

structure Traffic where
  direction : Direction
  bytes : Bytes
deriving DecidableEq, Repr

/-- What an event on a channel causes, in order within each part: waits that end, traffic,
bytes that really go out, and errors that are reported. -/
structure Effects where
  settled : List Settlement
  traffic : List Traffic
  written : List Bytes
  errors : List Failure

namespace Effects

def none : Effects := ⟨[], [], [], []⟩

def ofSettlements (settlements : List Settlement) : Effects := { none with settled := settlements }

def append (first second : Effects) : Effects :=
  ⟨first.settled ++ second.settled, first.traffic ++ second.traffic,
    first.written ++ second.written, first.errors ++ second.errors⟩

end Effects

/-- A channel: its intake, whether its incoming side is closed, whether all of it is, whether
an error was reported on it, and why writes fail if they do. -/
structure Channel where
  intake : Intake
  inputClosed : Bool
  destroyed : Bool
  errorSeen : Bool
  writeFault : Option String
deriving DecidableEq, Repr

namespace Channel

def fresh (guarded : Bool) : Channel := ⟨.empty guarded, false, false, false, none⟩

def withIntake (channel : Channel) (change : Intake → Intake × List Settlement) :
    Channel × Effects :=
  let (intake, settlements) := change channel.intake
  ({ channel with intake := intake }, .ofSettlements settlements)

def receive (channel : Channel) (chunk : Bytes) : Channel × Effects :=
  if channel.inputClosed || channel.destroyed || chunk.isEmpty then (channel, .none)
  else
    let (channel, effects) := channel.withIntake (·.receive chunk)
    (channel, { effects with traffic := [⟨.incoming, chunk⟩] })

def closeInput (channel : Channel) : Channel × Effects :=
  if channel.inputClosed || channel.destroyed then (channel, .none)
  else { channel with inputClosed := true }.withIntake (·.finish none)

/-- An error is reported. Only the first one on a channel tells the intake why it ends. -/
def report (channel : Channel) (message : String) : Channel × Effects :=
  let error := Failure.connection message
  if channel.errorSeen then (channel, { Effects.none with errors := [error] })
  else
    let (channel, effects) :=
      { channel with errorSeen := true }.withIntake (·.finish (some error))
    (channel, { effects with errors := [error] })

def destroy (channel : Channel) : Channel × Effects :=
  if channel.destroyed then (channel, .none)
  else { channel with destroyed := true }.withIntake (·.finish none)

@[simp] theorem destroyed_destroy (channel : Channel) : channel.destroy.1.destroyed = true := by
  unfold destroy
  split
  · assumption
  · rfl

def fail (channel : Channel) (message : String) : Channel × Effects :=
  if channel.destroyed then (channel, .none)
  else
    let (reported, first) := channel.report message
    let (closed, second) := reported.destroy
    (closed, first.append second)

def lineBytes (line : String) : Bytes := Utf8.encode line ++ Bytes.crlf

structure Sent where
  result : Except Failure Unit
  channel : Channel
  effects : Effects

/-- Sends a line, showing another one instead if one is given. The observer sees it before it
is known whether it can be sent. A failing write fails the channel too. -/
def send (channel : Channel) (line : String) (shown : Option String) : Sent :=
  let seen := { Effects.none with traffic := [⟨.outgoing, lineBytes (shown.getD line)⟩] }
  if channel.intake.ended || channel.destroyed then
    ⟨.error (channel.intake.failure.getD .notWritable), channel, seen⟩
  else match channel.writeFault with
    | some message =>
        let (failed, effects) := channel.fail message
        ⟨.error (.connection message), failed, seen.append effects⟩
    | none => ⟨.ok (), channel, { seen with written := [lineBytes line] }⟩

def await (channel : Channel) (wait : Wait) : Channel × Effects :=
  channel.withIntake (·.await wait)

def expire (channel : Channel) : Channel × Effects := channel.withIntake (·.expire)

end Channel

end ImapDialogue
