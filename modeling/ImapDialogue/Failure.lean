import ImapDialogue.Number.Decimal
import ImapDialogue.Pattern.Basic

/-!
Why a wait, a send or a whole dialogue fails, and the text that says so.
-/

namespace ImapDialogue

inductive Failure where
  /-- The connection failed with a text of its own. -/
  | connection (message : String)
  /-- The server refused the connection. -/
  | refused (message : String)
  /-- None of the patterns appeared in time. -/
  | timedOut (patterns : List Pattern) (timeout : Number) (unread : Bytes)
  /-- The connection ended before any of the patterns appeared. -/
  | ended (patterns : List Pattern) (unread : Bytes)
  /-- The server answered a command with something other than success. -/
  | commandFailed (tag status response : String)
  /-- A wait was begun while another one was open. -/
  | alreadyWaiting
  /-- Something was sent after the connection had ended. -/
  | notWritable
  /-- A command was given without a connection. -/
  | notConnected
deriving DecidableEq, Repr

namespace Failure

def unreadLimit : Nat := 200

def tail (unread : Bytes) : Bytes := unread.drop (unread.length - unreadLimit)

/-- A wait that ran out of time, with the end of what was unread. -/
def timeout (patterns : List Pattern) (timeout : Number) (unread : Bytes) : Failure :=
  .timedOut patterns timeout (tail unread)

def endOfStream (patterns : List Pattern) (unread : Bytes) : Failure :=
  .ended patterns (tail unread)

def message : Failure → String
  | .connection text => text
  | .refused text => text
  | .timedOut patterns timeout _ =>
      "Timed out after " ++ timeout.text ++ "ms waiting for " ++ Pattern.shownList patterns
  | .ended patterns _ => "Connection closed while waiting for " ++ Pattern.shownList patterns
  | .commandFailed tag _ response => "Command " ++ tag ++ " failed: " ++ response
  | .alreadyWaiting => "Another expect is already pending"
  | .notWritable => "Cannot send on a closed connection"
  | .notConnected => "Client not connected"

end Failure

end ImapDialogue
