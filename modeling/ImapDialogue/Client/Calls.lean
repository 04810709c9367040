import ImapDialogue.Client.Conclusion
import ImapDialogue.Command.Argument

/-!
What a client does when something is asked of it or happens on its channel. Each step gives
the client behind it, the bytes that go out and the calls that end.
-/

namespace ImapDialogue.Client

structure Step where
  client : Client
  written : List Bytes
  completed : List Completion

def mask : String := "****"

variable [Mail.Reader]

def react (client : Client) (now : Instant) (change : Channel → Channel × Effects) : Step :=
  match client.channel with
  | none => ⟨client, [], []⟩
  | some channel =>
      let (channel, effects) := change channel
      let (client, completed) := (client.absorb channel effects).settle now effects.settled
      ⟨client, effects.written, completed⟩

/-- Waits for one of several lines, and goes on with a task when it is there, or at once if
the wait ends as it begins. -/
def await (client : Client) (clock : Clock) (now : Instant) (ticket : Nat) (patterns : List Pattern)
    (task : Task) : Step :=
  match client.channel with
  | none => ⟨client, [], [⟨ticket, .error .notConnected⟩]⟩
  | some channel =>
      let (channel, effects) :=
        channel.await ⟨ticket, patterns, client.timeout, clock.timer client.timeout⟩
      let client := client.absorb channel effects
      match effects.settled with
      | [] => ⟨{ client with task := some task }, [], []⟩
      | settlement :: _ =>
          let (client, completed) := client.conclude now ticket task settlement.result
          ⟨client, [], completed⟩

def connect (client : Client) (clock : Clock) (now : Instant) (ticket : Nat)
    (writeFault : Option String) : Step :=
  { client with channel := some { Channel.fresh true with writeFault := writeFault } }.await
    clock now ticket Command.greetings .greeting

def refuse (client : Client) (ticket : Nat) (message : String) : Step :=
  let failure := Failure.refused message
  ⟨client.tell (.connectionFailed failure), [], [⟨ticket, .error failure⟩]⟩

/-- Sends a command under the next tag and waits for its answer. The command is counted and
shown before it is known whether it can be sent. -/
def command (client : Client) (clock : Clock) (now : Instant) (ticket : Nat)
    (verb arguments shownArguments marker : String) (task : String → Task) : Step :=
  match client.channel with
  | none => ⟨client.tell (.noConnection verb), [], [⟨ticket, .error .notConnected⟩]⟩
  | some channel =>
      let tag := toString (client.lastTag + 1)
      let shown := tag ++ " " ++ verb ++ " " ++ shownArguments
      let counted := { client with
        lastTag := client.lastTag + 1
        commands := client.commands ++ [shown] }.tell (.sending shown)
      let sent := channel.send (tag ++ " " ++ verb ++ " " ++ arguments) (some shown)
      let (client, completed) :=
        (counted.absorb sent.channel sent.effects).settle now sent.effects.settled
      match sent.result with
      | .error failure => ⟨client, [], ⟨ticket, .error failure⟩ :: completed⟩
      | .ok () =>
          let step := client.await clock now ticket (Command.answers tag marker) (task tag)
          { step with
            written := sent.effects.written ++ step.written
            completed := completed ++ step.completed }

def loginMarker (client : Client) : String :=
  client.settings.markers.login.getD ("logged in successfully as " ++ client.settings.email)

def selectMarker (client : Client) : String := client.settings.markers.select.getD "successful"

def fetchMarker (client : Client) : String := client.settings.markers.fetch.getD "completed"

def login (client : Client) (clock : Clock) (now : Instant) (ticket : Nat) : Step :=
  let user := Argument.render client.settings.email
  client.command clock now ticket "login"
    (user ++ " " ++ Argument.render client.settings.password) (user ++ " " ++ mask)
    client.loginMarker .login

def select (client : Client) (clock : Clock) (now : Instant) (ticket : Nat)
    (mailbox : Option String) : Step :=
  let mailbox := mailbox.getD client.standardMailbox
  let argument := Argument.render mailbox
  (client.tell (.selecting mailbox)).command clock now ticket "select" argument argument
    client.selectMarker (.select · mailbox)

def fetch (client : Client) (clock : Clock) (now : Instant) (ticket : Nat)
    (sequence item : Option String) : Step :=
  let sequence := sequence.getD (client.settings.fetch.sequence.getD "1:3")
  let item := item.getD (client.settings.fetch.item.getD "BODY.PEEK[]")
  let arguments := sequence ++ " " ++ item
  client.command clock now ticket "fetch" arguments arguments client.fetchMarker .fetch

def close (client : Client) (now : Instant) (ticket : Nat) : Step :=
  let step := (client.tell .closing).react now Channel.destroy
  { step with
    client := step.client.release
    completed := ⟨ticket, .ok .done⟩ :: step.completed }

def begin (client : Client) (clock : Clock) (now : Instant) (ticket : Nat) : Call → Step
  | .login => client.login clock now ticket
  | .select mailbox => client.select clock now ticket mailbox
  | .fetch sequence item => client.fetch clock now ticket sequence item
  | .close => client.close now ticket
  | .listen name =>
      ⟨{ client with listeners := client.listeners.addNew name }, [], [⟨ticket, .ok .done⟩]⟩
  | .unlisten name =>
      ⟨{ client with listeners := client.listeners.removeNewest name }, [],
        [⟨ticket, .ok .done⟩]⟩

def timer? (client : Client) : Option Timer := do
  let channel ← client.channel
  let wait ← channel.intake.wait
  return wait.timer

end ImapDialogue.Client
