import ImapDialogue.Notice
import ImapDialogue.Session.Program
import Std.Async.DNS
import Std.Async.TCP
import Std.Async.Timer

/-!
The command line: a session with a real server. Everything that is decided is decided by the
client and its channel; here bytes and time are carried between them and the system.
-/

namespace ImapDialogue.CommandLine

open Std.Async

structure Line where
  socket : TCP.Socket.Client
  started : Nat
  now : Instant

/-- What can come over a connection while a call waits. -/
inductive Arrival where
  | chunk (bytes : Bytes)
  | closed
  | failed (message : String)
  | late

def Line.clock (line : Line) : IO Clock := return ⟨(← IO.monoMsNow) - line.started⟩

def Line.wait (line : Line) (timer : Timer) : IO Arrival := do
  let clock ← line.clock
  if timer.due ≤ clock.now then return .late
  try
    Async.block do
      let sleep ← Selector.sleep (.ofNat (timer.due - clock.now))
      Selectable.one #[
        .case (line.socket.recvSelector 65536) fun data => pure (match data with
          | some data => .chunk data.toList
          | none => .closed),
        .case sleep fun _ => pure .late]
  catch error => return .failed (toString error)

def tell (entry : LogEntry) : IO Unit :=
  match entry.channel with
  | .consoleErrors => IO.eprintln entry.notice.line
  | _ => IO.println entry.notice.line

def showProgress (before after : Client) (logFirst : Bool) : IO Unit := do
  let logged := (after.log.drop before.log.length).forM tell
  let output ← IO.getStdout
  let echoed := do
    output.write (ByteArray.mk (after.echoed.drop before.echoed.length).toArray)
    output.flush
  if logFirst then logged *> echoed else echoed *> logged

def Line.deliver (line : Line) (client : Client) : Arrival → Client.Step
  | .chunk bytes => client.react line.now (·.receive bytes)
  | .closed => client.react line.now Exchange.hangUp
  | .failed message => client.react line.now (·.fail message)
  | .late => client.react line.now Channel.expire

/-- Sends what a step of the client wants to be sent. A write that fails fails the channel. -/
def Line.transmit (line : Line) (step : Client.Step) : IO Client.Step := do
  try
    step.written.forM fun bytes => (line.socket.send (ByteArray.mk bytes.toArray)).block
    return step
  catch error =>
    let failed := line.deliver step.client (.failed (toString error))
    return { failed with completed := step.completed ++ failed.completed }

/-- Goes on behind a step of the client until a call has ended. -/
partial def Line.finish (line : Line) (before : Client) (step : Client.Step) (ticket : Nat)
    (begins : Bool) : IO (Client.Step × Except Failure Answer) := do
  let sent ← line.transmit step
  let (client, readings) := sent.client.readAll
  let sent := { sent with client := client, completed := sent.completed ++ readings }
  showProgress before client begins
  match sent.completed.find? (·.ticket == ticket), client.timer? with
  | some completion, _ => return (sent, completion.result)
  | none, none => return (sent, .error .notConnected)
  | none, some timer =>
      line.finish client (line.deliver client (← line.wait timer)) ticket false

def Line.converse (line : Line) (client : Client) (ticket : Nat) :
    List Call → IO (Client × Except Failure (List Answer))
  | [] => return (client, .ok [])
  | call :: others => do
      let begun := client.begin (← line.clock) line.now ticket call
      let (step, result) ← line.finish client begun ticket true
      match result with
      | .error failure => return (step.client, .error failure)
      | .ok answer =>
          let (last, result) ← line.converse step.client (ticket + 1) others
          return (last, result.map (answer :: ·))

def openLine (settings : Settings) : IO Line := do
  let addresses ← (DNS.getAddrInfo settings.host (toString settings.port)).block
  let address ← match addresses[0]? with
    | some address => pure address
    | none => throw (IO.userError ("no address for " ++ settings.host))
  let port := settings.port.toUInt16
  let socket ← TCP.Socket.Client.mk
  (socket.connect (match address with
    | .v4 address => .v4 ⟨address, port⟩
    | .v6 address => .v6 ⟨address, port⟩)).block
  let time ← Std.Time.Timestamp.now
  return ⟨socket, ← IO.monoMsNow, ⟨time.toMillisecondsSinceUnixEpoch.val⟩⟩

def Line.close (line : Line) (client : Client) : IO Unit := do
  showProgress client (client.close line.now 0).client true
  try line.socket.shutdown.block catch _ => pure ()

def talk (settings : Settings) : IO (Except Failure SessionReport) := do
  let created := Client.create settings
  let client := created.tell (.connecting settings.host settings.port)
  created.log.forM tell
  showProgress created client true
  match ← (openLine settings).toBaseIO with
  | .error error =>
      let failure := Failure.refused (toString error)
      showProgress client (client.refuse 0 (toString error)).client true
      return .error failure
  | .ok line =>
      let (step, greeting) ← line.finish client (client.connect .start line.now 0 none) 0 true
      match greeting with
      | .error failure => return .error failure
      | .ok _ =>
          let (last, result) ← line.converse step.client 1 Session.calls
          line.close last
          return result.map (Session.report last)

def removeLock (settings : Settings) : IO Unit := do
  if let some path := settings.lockFile.path? then
    let notice ← try
        if path.toList.contains '\x00' then throw (IO.userError "null character in a path")
        IO.FS.removeFile path
        pure (Notice.lockRemoved path)
      catch
        | .noFileOrDirectory .. => pure (Notice.lockRemoved path)
        | _ => pure (Notice.lockKept path)
    (settings.logging.entry? notice).toList.forM tell

def environment : IO Environment := do
  let entries ← Environment.names.filterMapM fun name => do
    return (← IO.getEnv name).map fun value => (name, value)
  try
    return Environment.completeFrom ⟨entries⟩ (← IO.FS.readFile ProgramRun.environmentFile)
  catch _ => return ⟨entries⟩

def fail (message : String) : IO UInt32 := do
  tell (ProgramRun.complaint message)
  return 1

end ImapDialogue.CommandLine

open ImapDialogue ImapDialogue.CommandLine in
def main : IO UInt32 := do
  match (← environment).settings with
  | .error error => fail error.message
  | .ok settings => do
      removeLock settings
      match ← talk settings with
      | .error failure => fail failure.message
      | .ok report =>
          (ProgramRun.summary report).forM tell
          return 0
