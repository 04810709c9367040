import ImapDialogue.Clock
import ImapDialogue.Wire.Bytes

/-!
A server that follows a script: what it does when a connection is made and what it does for
each line it receives. Actions are done in order; a pause holds back everything behind it.
-/

namespace ImapDialogue

inductive Action where
  | send (chunk : Bytes)
  | hangUp
  | fail (message : String)
  | report (message : String)
  | failWrites (message : String)
  | pause (length : Number)
deriving DecidableEq, Repr

/-- A server's script. The n-th line it receives calls for the n-th reply. A refusal keeps the
connection from being made; a write fault makes every write of the client fail. -/
structure Script where
  greeting : List Action
  replies : List (List Action)
  refusal : Option String
  writeFault : Option String
deriving DecidableEq, Repr

/-- A server at work: actions still to be done, a pause in progress, replies not yet called for
and the lines received. -/
structure Server where
  queue : List Action
  pause : Option Timer
  replies : List (List Action)
  received : List Bytes
deriving DecidableEq, Repr

namespace Server

def start (script : Script) : Server := ⟨[], none, script.replies, []⟩

def receiveLine (server : Server) (line : Bytes) : Server :=
  { server with
    queue := server.queue ++ server.replies.head?.getD []
    replies := server.replies.drop 1
    received := server.received ++ [line] }

def receive (server : Server) (data : List Bytes) : Server :=
  (data.flatMap Bytes.lines).foldl receiveLine server

end Server

end ImapDialogue
