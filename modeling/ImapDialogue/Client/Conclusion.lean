import ImapDialogue.Client.Basic

/-!
What a client does when its open wait ends: it tells how the call went, keeps what the call
was for, and says how it ended.
-/

namespace ImapDialogue.Client

def responseLine (found : Match) : String := Bytes.toNarrow (Bytes.trim found.text)

def failedCommand (found : Match) : Failure :=
  let line := Bytes.trim found.text
  match Bytes.splitSpaces line with
  | tag :: status :: _ =>
      .commandFailed (Bytes.toNarrow tag) (Bytes.toNarrow status) (Bytes.toNarrow line)
  | tag :: [] => .commandFailed (Bytes.toNarrow tag) "" (Bytes.toNarrow line)
  | [] => .commandFailed "" "" (Bytes.toNarrow line)

def hangUp (client : Client) : Client :=
  { client with channel := client.channel.map fun channel => channel.destroy.1 }

def concludeGreeting (client : Client) : Except Failure Match → Client × Except Failure Answer
  | .error failure => ((client.tell (.noGreeting failure)).hangUp, .error failure)
  | .ok found =>
      if found.index = 0 then
        let line := responseLine found
        ({ client with greeting := line }.tell (.connected line), .ok .greeted)
      else (client.hangUp, .error (.commandFailed "*" "BYE" (responseLine found)))

def concludeCommand (client : Client) (tag : String) :
    Except Failure Match → Client × Except Failure Match
  | .error failure => (client, .error failure)
  | .ok found =>
      if found.index = 0 then
        (client.tell (.commandCompleted tag (responseLine found)), .ok found)
      else
        let failure := failedCommand found
        let notices := match failure with
          | .commandFailed _ status response => [Notice.commandFailed tag status response]
          | _ => []
        (client.tellAll notices, .error failure)

variable [Mail.Reader]

/-- A fetch has its answer: the records in front of its completion are decoded, and what cannot
be decoded is told and left out. If records carry messages, these are read before the fetch
ends. -/
def decodeFetch (client : Client) (now : Instant) (ticket : Nat) (before : Bytes) :
    Client × List Completion :=
  let (records, faults) := Response.collect before
  let told := (client.tellAll (faults.map .undecodable)).tell (.received (records.map (·.sequence)))
  match records.filterMap (Unread.ofRecord? now) with
  | [] => (told, [⟨ticket, .ok (.fetched records [])⟩])
  | unread => ({ told with readings := told.readings ++ [⟨ticket, records, [], unread⟩] }, [])

/-- A turn for each of some fetches that read messages. What became of a message is told.
Behind the last one the listeners learn of all of them, and the fetch ends. -/
def readOn (client : Client) : List Reading → Client × List Completion
  | [] => ({ client with readings := [] }, [])
  | reading :: others =>
      let (reading, done) := reading.turn
      let told := client.tellAll (done.toList.map Unread.notice)
      if reading.unread.isEmpty then
        let (client, completed) := (told.announce reading.mails).readOn others
        (client, ⟨reading.ticket, .ok (.fetched reading.records reading.mails)⟩ :: completed)
      else
        let (client, completed) := told.readOn others
        ({ client with readings := reading :: client.readings }, completed)

def read (client : Client) : Nat → Client × List Completion
  | 0 => (client, [])
  | turns + 1 =>
      let (client, first) := client.readOn client.readings
      let (client, later) := client.read turns
      (client, first ++ later)

def readAll (client : Client) : Client × List Completion :=
  client.read (client.readings.foldl (fun turns reading => max turns reading.turnsLeft) 0)

def conclude (client : Client) (now : Instant) (ticket : Nat) (task : Task)
    (result : Except Failure Match) : Client × List Completion :=
  match task with
  | .greeting =>
      let (client, result) := client.concludeGreeting result
      (client, [⟨ticket, result⟩])
  | .login tag =>
      let (client, result) := client.concludeCommand tag result
      (client, [⟨ticket, result.map fun _ => .done⟩])
  | .select tag mailbox =>
      match client.concludeCommand tag result with
      | (client, .ok _) => ({ client with mailbox := some mailbox }, [⟨ticket, .ok .done⟩])
      | (client, .error failure) => (client, [⟨ticket, .error failure⟩])
  | .fetch tag =>
      match client.concludeCommand tag result with
      | (client, .ok found) => client.decodeFetch now ticket found.before
      | (client, .error failure) => (client, [⟨ticket, .error failure⟩])

def settle (client : Client) (now : Instant) : List Settlement → Client × List Completion
  | [] => (client, [])
  | settlement :: others =>
      match client.task with
      | none => settle client now others
      | some task =>
          let (client, first) :=
            { client with task := none }.conclude now settlement.ticket task settlement.result
          let (client, second) := settle client now others
          (client, first ++ second)

end ImapDialogue.Client
