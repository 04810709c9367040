import ImapDialogue.Channel.Basic
import ImapDialogue.Mail.Basic
import ImapDialogue.Response.Scan
import ImapDialogue.Settings.Basic

/-!
What a dialogue tells about itself while it runs: notices for a log, each with a text and the
data it is about. On a console a notice is one line: the text, and behind it the data in a short
form.
-/

namespace ImapDialogue

inductive Detail where
  | text (value : String)
  | number (value : Number)
  | numbers (values : List Number)
deriving Repr

inductive Attachment where
  | fields (fields : List (String × Detail))
  | failure (failure : Failure)
  | malformed (malformed : Response.Malformed)
  | fileFailure
  | text (value : String)
deriving Repr

inductive Notice where
  | lockRemoved (path : String)
  | lockKept (path : String)
  | initialized (host : String) (port : Nat) (email : String) (mailbox : Option String)
  | connecting (host : String) (port : Nat)
  | connectionFailed (failure : Failure)
  | noGreeting (failure : Failure)
  | connected (greeting : String)
  | socketFailed (failure : Failure)
  | traffic (seen : Traffic)
  | noConnection (verb : String)
  | sending (shown : String)
  | commandFailed (tag status response : String)
  | commandCompleted (tag response : String)
  | selecting (mailbox : String)
  | undecodable (fault : Response.Fault)
  | received (sequences : List Number)
  | parsed (shown : Mail)
  | unreadable (sequence : Number) (reason : String)
  | closing
  | summary (records mails : Nat)
  | mail (shown : Mail)
  | sessionFailed (message : String)
deriving Repr

namespace Notice

def trafficText (traffic : Traffic) : String :=
  (match traffic.direction with | .incoming => "<= " | .outgoing => "=> ") ++
    Quoted.render (Utf8.decode traffic.bytes)

def message : Notice → String
  | .lockRemoved path => "Removed lock file " ++ path
  | .lockKept path => "Could not remove lock file " ++ path
  | .initialized _ _ _ _ => "Client initialized with config"
  | .connecting host port => "Connecting to IMAP server " ++ host ++ ":" ++ toString port
  | .connectionFailed _ => "IMAP connection error"
  | .noGreeting _ => "No greeting from IMAP server"
  | .connected _ => "Connected to IMAP server successfully"
  | .socketFailed _ => "IMAP socket error"
  | .traffic seen => "IMAP Connection: " ++ trafficText seen
  | .noConnection verb => "Attempted to send " ++ verb ++ " with no connection"
  | .sending shown => "Sending command: " ++ shown
  | .commandFailed tag _ _ => "Command " ++ tag ++ " failed"
  | .commandCompleted tag _ => "Command " ++ tag ++ " completed"
  | .selecting mailbox => "Selecting mailbox: " ++ mailbox
  | .undecodable fault =>
      "Skipping undecodable FETCH response for message " ++ fault.sequence.text ++ ": " ++
        fault.malformed.message
  | .received sequences => "Received " ++ toString sequences.length ++ " FETCH responses"
  | .parsed _ => "Parsed mail message"
  | .unreadable sequence reason =>
      "Error processing message " ++ sequence.text ++ ": " ++ reason
  | .closing => "Closing IMAP connection"
  | .summary records mails =>
      "\n=== " ++ toString records ++ " FETCH responses, " ++ toString mails ++ " messages ==="
  | .mail shown =>
      "#" ++ shown.sequence.text ++ " From: " ++ shown.senders ++ " Subject: " ++ shown.subject
  | .sessionFailed _ => "\nSession failed:"

def attachments : Notice → List Attachment
  | .lockKept _ => [.fileFailure]
  | .initialized host port email mailbox =>
      [.fields ([("host", .text host), ("port", .number (.finite port)), ("email", .text email)] ++
        (mailbox.map fun name => ("mailbox", Detail.text name)).toList)]
  | .connectionFailed failure => [.failure failure]
  | .noGreeting failure => [.failure failure]
  | .connected greeting => [.fields [("greeting", .text greeting)]]
  | .socketFailed failure => [.failure failure]
  | .commandFailed _ status response =>
      [.fields [("status", .text status), ("response", .text response)]]
  | .commandCompleted _ response => [.fields [("response", .text response)]]
  | .undecodable fault => [.malformed fault.malformed]
  | .received sequences => [.fields [("sequences", .numbers sequences)]]
  | .parsed shown =>
      [.fields [("seq", .number shown.sequence), ("from", .text shown.senders),
        ("subject", .text shown.subject), ("date", .text shown.date.text)]]
  | .unreadable _ reason => [.text reason]
  | .sessionFailed message => [.text message]
  | _ => []

end Notice

def Detail.line : Detail → String
  | .text value => Quoted.render value
  | .number value => value.text
  | .numbers values => "[" ++ ", ".intercalate (values.map Number.text) ++ "]"

def Attachment.line : Attachment → String
  | .fields items => ", ".intercalate (items.map fun (name, value) => name ++ ": " ++ value.line)
  | .failure reason => reason.message
  | .malformed reason => reason.message
  | .fileFailure => "(the file system refused)"
  | .text value => value

def Notice.line (notice : Notice) : String :=
  " ".intercalate (notice.message :: notice.attachments.map Attachment.line)

/-- Where a notice goes: to a logger of the caller's, or to one of the two console streams. -/
inductive LogChannel where
  | ownLogger
  | consoleOutput
  | consoleErrors
deriving DecidableEq, Repr

structure LogEntry where
  channel : LogChannel
  notice : Notice
deriving Repr

namespace Logging

def entry? (logging : Logging) (notice : Notice) : Option LogEntry :=
  if logging.enabled then
    some ⟨if logging.ownLogger then .ownLogger else .consoleOutput, notice⟩
  else none

end Logging

end ImapDialogue
