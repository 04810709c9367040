import ImapDialogue.Client.Listener
import ImapDialogue.Client.Reading

/-!
The client's side of a dialogue: what it knows, what it has shown and told, and which call
waits for the server. It has at most one open wait, and remembers how to go on behind it.
-/

namespace ImapDialogue

/-- What a caller can ask of a client. A part left open is taken from the settings. -/
inductive Call where
  | login
  | select (mailbox : Option String)
  | fetch (sequence item : Option String)
  | close
  | listen (name : String)
  | unlisten (name : String)
deriving DecidableEq, Repr

inductive Answer where
  | done
  | greeted
  | fetched (records : List Response.Record) (mails : List Mail)
deriving Repr

structure Completion where
  ticket : Nat
  result : Except Failure Answer

/-- How to go on when the open wait ends. -/
inductive Task where
  | greeting
  | login (tag : String)
  | select (tag mailbox : String)
  | fetch (tag : String)
deriving DecidableEq, Repr

/-- A client. The channel is absent before connecting and after closing, which lets go of it. The
fetches that read messages are in the order in which they began to. -/
structure Client where
  settings : Settings
  channel : Option Channel
  released : Option Channel
  task : Option Task
  readings : List Reading
  lastTag : Nat
  greeting : String
  mailbox : Option String
  commands : List String
  transcript : Bytes
  echoed : Bytes
  log : List LogEntry
  listeners : Listeners
  events : List MailEvent
deriving Repr

namespace Client

def standardTimeout : Number := .finite 30000

def timeout (client : Client) : Number := client.settings.timeout.getD standardTimeout

def standardMailbox (client : Client) : String :=
  ((client.settings.mailbox.filter (!·.isEmpty))).getD "INBOX"

def tell (client : Client) (notice : Notice) : Client :=
  { client with log := client.log ++ (client.settings.logging.entry? notice).toList }

def tellAll (client : Client) (notices : List Notice) : Client := notices.foldl tell client

def create (settings : Settings) : Client :=
  tell
    { settings := settings, channel := none, released := none, task := none, readings := []
      lastTag := 0, greeting := "", mailbox := none, commands := [], transcript := [], echoed := []
      log := [], listeners := .none, events := [] }
    (.initialized settings.host settings.port settings.email settings.mailbox)

/-- The connection that the client has made, also when it has let go of it. -/
def connection (client : Client) : Option Channel := client.channel.or client.released

def release (client : Client) : Client :=
  { client with channel := none, released := client.connection }

@[simp] theorem connection_release (client : Client) :
    client.release.connection = client.connection := rfl

def observe (client : Client) (traffic : Traffic) : Client :=
  let seen := { client with
    transcript := client.transcript ++ traffic.bytes
    echoed :=
      if client.settings.echo = .off then client.echoed else client.echoed ++ traffic.bytes }
  if client.settings.logging.traffic then seen.tell (.traffic traffic) else seen

/-- Takes note of an event on the channel: first what passed, then what went wrong. -/
def absorb (client : Client) (channel : Channel) (effects : Effects) : Client :=
  let seen := effects.traffic.foldl observe { client with channel := some channel }
  seen.tellAll (effects.errors.map .socketFailed)

def addListener (client : Client) (listener : Listener) : Client :=
  { client with listeners := client.listeners.add listener }

def removeListener (client : Client) (listener : Listener) : Client :=
  { client with listeners := client.listeners.remove listener }

def announce (client : Client) (mails : List Mail) : Client :=
  { client with events := client.events ++ client.listeners.told mails }

def transcriptText (client : Client) : String := Utf8.decode client.transcript

end Client

end ImapDialogue
