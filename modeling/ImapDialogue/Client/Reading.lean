import ImapDialogue.Notice

/-!
Reading the messages of a fetch. It takes turns, the more the longer a message is, and so other
things can happen before it is done.
-/

namespace ImapDialogue

/-- A message still to be read, under the number of its record: what will become of it, and for
how many more turns it is read. -/
structure Unread where
  sequence : Number
  outcome : Except String Mail
  turns : Nat
deriving Repr

namespace Unread

def ofRecord? [Mail.Reader] (now : Instant) (record : Response.Record) : Option Unread :=
  record.attributes.source?.map fun source =>
    ⟨record.sequence, Mail.ofSource now record source, Mail.Reader.turns source⟩

def mail? (message : Unread) : Option Mail := message.outcome.toOption

def notice (message : Unread) : Notice :=
  match message.outcome with
  | .ok mail => .parsed mail
  | .error reason => .unreadable message.sequence reason

end Unread

/-- A fetch whose answer has come and whose messages are read one by one: the mails that have come
of it, and the messages that have not been read. -/
structure Reading where
  ticket : Nat
  records : List Response.Record
  mails : List Mail
  unread : List Unread
deriving Repr

namespace Reading

/-- One more turn of reading, and the message that it finishes. One that cannot be read is left
out. -/
def turn (reading : Reading) : Reading × Option Unread :=
  match reading.unread with
  | [] => (reading, none)
  | next :: others =>
      if next.turns ≤ 1 then
        ({ reading with mails := reading.mails ++ next.mail?.toList, unread := others }, some next)
      else ({ reading with unread := { next with turns := next.turns - 1 } :: others }, none)

def turnsLeft (reading : Reading) : Nat :=
  reading.unread.foldl (fun turns next => turns + max 1 next.turns) 0

end Reading

end ImapDialogue
