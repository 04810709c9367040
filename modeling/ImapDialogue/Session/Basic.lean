import ImapDialogue.Exchange.Report
import ImapDialogue.Session.Lock

/-!
A session: the lock file is removed, the connection is made, and behind the greeting come a
login, a selection and a fetch. The first step that fails ends the session. Once connecting
has succeeded the connection is closed in every case.
-/

namespace ImapDialogue

/-- What a session meets: the files, the directory it runs in, the server and the date. -/
structure Surroundings where
  files : FileTree
  directory : Place
  script : Script
  now : Instant
deriving Repr

structure SessionReport where
  greeting : String
  commands : List String
  transcript : String
  records : List Response.Record
  mails : List Mail
deriving Repr

/-- What a session leaves behind: how it ended, the exchange with the server, the files and
everything that was logged. -/
structure Session where
  result : Except Failure SessionReport
  exchange : Exchange
  files : FileTree
  log : List LogEntry

variable [Mail.Reader]

namespace Exchange

def call (exchange : Exchange) (ticket : Nat) (call : Call) : Exchange :=
  (exchange.begin ticket call).finish ticket

/-- Makes calls in order, under tickets counted from a number on, as long as they succeed.
Tells why one of them failed, or what all of them gave. -/
def converse (exchange : Exchange) (ticket : Nat) :
    List Call → Exchange × Except Failure (List Answer)
  | [] => (exchange, .ok [])
  | call :: others =>
      let after := exchange.call ticket call
      match after.result? ticket with
      | some (.error failure) => (after, .error failure)
      | some (.ok answer) =>
          let (last, result) := after.converse (ticket + 1) others
          (last, result.map (answer :: ·))
      | none => after.converse (ticket + 1) others

end Exchange

namespace Session

def calls : List Call := [.login, .select none, .fetch none none]

def report (client : Client) (answers : List Answer) : SessionReport :=
  let (records, mails) := match answers.getLast? with
    | some (.fetched records mails) => (records, mails)
    | _ => ([], [])
  ⟨client.greeting, client.commands, client.transcriptText, records, mails⟩

def talk (settings : Settings) (script : Script) (now : Instant) :
    Exchange × Except Failure SessionReport :=
  let connected := ((Exchange.start settings script now).connect script).finish 0
  match connected.result? 0 with
  | some (.error failure) => (connected, .error failure)
  | _ =>
      let (last, result) := connected.converse 1 calls
      (last.call (calls.length + 1) .close, result.map (report last.client))

def run (settings : Settings) (surroundings : Surroundings) : Session :=
  let removal := settings.lockFile.path?.map
    (surroundings.files.removeLock surroundings.directory)
  let (exchange, result) := talk settings surroundings.script surroundings.now
  { result := result
    exchange := exchange
    files := (removal.map (·.files)).getD surroundings.files
    log := ((removal.bind fun removal => settings.logging.entry? removal.notice).toList) ++
      exchange.client.log }

end Session

end ImapDialogue
