import ImapDialogue.Exchange.Basic

/-!
Dialogues call by call, each with what it gave and what it left to see.
-/

namespace ImapDialogue

structure Request where
  call : Call
  waits : Bool
deriving DecidableEq, Repr

/-- What can be seen of one call: how it ended if that was waited for, the calls begun earlier
that ended meanwhile, and the command lines, received lines and mail events that came with
it. -/
structure CallReport where
  result : Option (Except Failure Answer)
  late : List Completion
  commands : List String
  received : List Bytes
  mailbox : Option String
  events : List MailEvent

/-- What can be seen of a whole dialogue. The greeting is how connecting ended, if that was
tried. -/
structure DialogueReport where
  greeting : Option (Except Failure String)
  calls : List CallReport
  last : Exchange

namespace Exchange

variable [Mail.Reader]

def report (before after : Exchange) (ticket : Nat) (waits : Bool) : CallReport where
  result := if waits then after.result? ticket else none
  late := (after.completed.drop before.completed.length).filter fun completion =>
    !(waits && completion.ticket == ticket)
  commands := after.client.commands.drop before.client.commands.length
  received := after.server.received.drop before.server.received.length
  mailbox := after.client.mailbox
  events := after.client.events.drop before.client.events.length

def perform (exchange : Exchange) (ticket : Nat) (request : Request) : Exchange :=
  let begun := exchange.begin ticket request.call
  if request.waits then (begun.finish ticket).drain else begun.read

/-- Does requests in order, under tickets counted from a number on. -/
def performAll (exchange : Exchange) (ticket : Nat) : List Request → List CallReport × Exchange
  | [] => ([], exchange)
  | request :: others =>
      let after := exchange.perform ticket request
      let (reports, last) := after.performAll (ticket + 1) others
      (exchange.report after ticket request.waits :: reports, last)

/-- A dialogue of calls behind a greeting. Without a greeting no call is made. -/
def dialogue (settings : Settings) (script : Script) (now : Instant) (requests : List Request) :
    DialogueReport :=
  let connected := ((start settings script now).connect script).finish 0
  match connected.result? 0 with
  | some (.error failure) => ⟨some (.error failure), [], connected⟩
  | _ =>
      let ready := connected.drain
      let (reports, last) := ready.performAll 1 requests
      ⟨some (.ok ready.client.greeting), reports, last⟩

def unconnected (settings : Settings) (script : Script) (now : Instant) (requests : List Request) :
    DialogueReport :=
  let (reports, last) := (start settings script now).performAll 1 requests
  ⟨none, reports, last⟩

end Exchange

end ImapDialogue
