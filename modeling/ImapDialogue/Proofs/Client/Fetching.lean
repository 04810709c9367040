import ImapDialogue.Proofs.Client.Turns
import ImapDialogue.Proofs.Client.Waiting
import ImapDialogue.Proofs.Response.Passing

/-!
A fetch from end to end. What a server sends comes back as the records it means, however the
data is cut and whatever bytes its literals hold.
-/

namespace ImapDialogue.Client

open Response (Reply)

variable {client : Client} {channel : Channel}

/-- The line that completes a command: its tag, and a text behind its success. -/
def completion (tag : String) (text : Bytes) : Bytes :=
  Bytes.ofNarrow tag ++ (Bytes.ofNarrow " OK " ++ text)

theorem answer?_completion (number : Nat) {marker text : Bytes} (marked : marker <:+: text) :
    Command.answer? (Bytes.digits number) marker (completion (toString number) text) = some 0 := by
  have space : Bytes.ofNarrow " OK " = Bytes.ofNarrow " OK" ++ [Byte.space] := by rfl
  have parts : completion (toString number) text =
      (Bytes.digits number ++ Bytes.ofNarrow " OK") ++ (Byte.space :: text) := by
    rw [completion, space, Bytes.digits]
    simp only [List.append_assoc, List.singleton_append]
  have behind : Line.behind? (Bytes.digits number ++ Bytes.ofNarrow " OK")
      (completion (toString number) text) = some (Byte.space :: text) := by
    rw [parts, Line.behind?, Bytes.after?_append]
    rfl
  have holds : marker <:+: Byte.space :: text := marked.trans (List.suffix_cons _ _).isInfix
  have completes : Command.completes (Bytes.digits number) marker
      (completion (toString number) text) = true := by
    rw [Command.completes, behind]
    exact decide_eq_true holds
  rw [Command.answer?, if_pos completes]

theorem plain_completion (number : Nat) {text : Bytes} (plain : Line.Plain text) :
    Line.Plain (completion (toString number) text) := by
  apply Line.plain_append (Command.plain_digits number)
  exact Line.plain_append (by decide) plain

theorem read_replies (number : Nat) (replies : List Reply) {marker text : Bytes}
    (plain : Line.Plain text) (marked : marker <:+: text) :
    LineReader.read (Command.answer? (Bytes.ofNarrow (toString number)) marker)
        (replies.flatMap Reply.bytes ++ (completion (toString number) text ++ Bytes.crlf)) =
      some (⟨0, replies.flatMap Reply.bytes, completion (toString number) text ++ Bytes.crlf⟩,
        []) := by
  have read := LineReader.read_behind_replies (LineReader.quiet_answer number marker) replies
    (plain_completion number plain) .both (answer?_completion number marked) []
  rw [List.append_nil] at read
  exact read

section Reader

variable [Mail.Reader]

/-- The messages that a fetch gives along with its records. -/
def mailsOf (now : Instant) (records : List Response.Record) : List Mail :=
  records.filterMap (Mail.ofRecord? now)

theorem mails_unread (now : Instant) (records : List Response.Record) :
    (records.filterMap (Unread.ofRecord? now)).filterMap (·.mail?) = mailsOf now records := by
  rw [mailsOf, List.filterMap_filterMap]
  congr 1
  funext record
  simp only [Unread.ofRecord?, Mail.ofRecord?]
  cases record.attributes.source? <;> rfl

/-- How a fetch ends whose answer came behind some responses: at once, or when the messages have
been read. -/
theorem ends_with_replies (now : Instant) (ticket : Nat) (tag : String) (replies : List Reply)
    (text : Bytes) {before after : Client}
    (rested : before.readings = [])
    (behind : after.readings = before.readings ++
      begins now ticket (.ok ⟨0, replies.flatMap Reply.bytes, text⟩) (.fetch tag)) :
    ends now ticket (.ok ⟨0, replies.flatMap Reply.bytes, text⟩) (.fetch tag) ++
        after.readAll.2 =
      [⟨ticket, .ok (.fetched (replies.map Reply.record)
        (mailsOf now (replies.map Reply.record)))⟩] ∧
      after.readAll.1.channel = after.channel ∧ after.readAll.1.readings = [] := by
  have collected := Response.collect_replies replies
  have mails := mails_unread now (replies.map Reply.record)
  have waiting : unread now (replies.flatMap Reply.bytes) =
      (replies.map Reply.record).filterMap (Unread.ofRecord? now) := by
    rw [unread, collected]
  rw [rested, List.nil_append] at behind
  simp only [ends, begins, verdict, if_true, waiting, collected] at behind ⊢
  by_cases none : (replies.map Reply.record).filterMap (Unread.ofRecord? now) = []
  · rw [if_pos none] at behind ⊢
    rw [readAll_none behind, ← mails, none]
    exact ⟨rfl, rfl, behind⟩
  · rw [if_neg none] at behind ⊢
    obtain ⟨ended, events, core⟩ := readAll_one behind none
    rw [ended, Reading.finished, ← mails]
    have kept := channel_of_core core
    have rested := readings_of_core core
    exact ⟨rfl, kept, rested⟩

/-- A fetch gives exactly what the server sent, record by record, and leaves nothing unread. -/
theorem fetch_gives_replies (ready : client.Ready channel) (nothing : channel.intake.unread = [])
    (rested : client.readings = []) (unbroken : Utf8.Unbroken client.fetchMarker) (clock : Clock)
    (now : Instant) (ticket : Nat) (sequence item : Option String) (replies : List Reply)
    {text : Bytes} (plain : Line.Plain text) (marked : Utf8.encode client.fetchMarker <:+: text)
    {early late : List Bytes}
    (cut : (early ++ late).flatten = replies.flatMap Reply.bytes ++
      (completion (toString (client.lastTag + 1)) text ++ Bytes.crlf)) :
    let records := replies.map Reply.record
    let begun := (client.hear now early).1.fetch clock now ticket sequence item
    let heard := begun.client.hear now late
    let last := heard.1.readAll
    begun.completed ++ heard.2 ++ last.2 =
        [⟨ticket, .ok (.fetched records (mailsOf now records))⟩] ∧
      (Response.collect (replies.flatMap Reply.bytes)).2 = [] ∧
      last.1.channel = some (channel.holding [] none) ∧ last.1.readings = [] := by
  intro records begun heard last
  have same := (ready.hear now early).2
  have marker : (client.hear now early).1.fetchMarker = client.fetchMarker := by
    rw [fetchMarker, fetchMarker, settings_of_core same]
  let settings := (client.hear now early).1.settings
  let arguments := sequence.getD (settings.fetch.sequence.getD "1:3") ++ " " ++
    item.getD (settings.fetch.item.getD "BODY.PEEK[]")
  have sent : begun = (client.hear now early).1.command clock now ticket "fetch" arguments
      arguments client.fetchMarker .fetch := by
    simp only [begun, fetch, marker]
    rfl
  have command : ∀ tag, Task.fetch tag ≠ .greeting := by simp
  have stands := (ready.command_stands unbroken command clock now ticket "fetch" arguments
    arguments early late).2
  have reads := read_replies (client.lastTag + 1) replies plain marked
  rw [nothing, List.nil_append, List.nil_append, cut, reads, ← sent] at stands
  obtain ⟨ended, greeting, mailbox, behind⟩ := stands
  rw [left_command (command _)] at behind
  have read := ends_with_replies now ticket (toString (client.lastTag + 1)) replies
    (completion (toString (client.lastTag + 1)) text ++ Bytes.crlf) rested
    (readings_of_core behind)
  refine ⟨?_, ?_, ?_, read.2.2⟩
  · rw [ended]
    exact read.1
  · rw [Response.collect_replies]
  · exact read.2.1.trans (channel_of_core behind)

end Reader

def quotingReply : Reply where
  sequence := ⟨1, by decide⟩
  attributes := [
    (⟨Bytes.ofNarrow "UID", none, by decide, Bytes.forall_of_all (by decide), by simp⟩,
      .number ⟨7, by decide⟩),
    (⟨Bytes.ofNarrow "BODY", some (Bytes.ofNarrow "TEXT"), by decide,
        Bytes.forall_of_all (by decide), by
          rintro _ ⟨⟩
          exact Bytes.forall_of_all (by decide)⟩,
      .literal ⟨Bytes.ofNarrow "1 OK completed\r\n", by decide⟩)]
  distinct := by decide

/-- The line in the literal does not end the fetch, the one behind the response does. -/
theorem fetch_gives_quoting_reply :
    connected.Ready (.fresh true) ∧ Utf8.Unbroken connected.fetchMarker ∧
      Line.Plain (Bytes.ofNarrow "fetch completed") ∧
      Utf8.encode connected.fetchMarker <:+: Bytes.ofNarrow "fetch completed" ∧
      let begun := (connected.hear ⟨0⟩
        [Bytes.ofNarrow "* 1 FETCH (UID 7 BODY[TEXT] \x7b16\x7d\r\n1 OK com"]).1.fetch
          .start ⟨0⟩ 7 none none
      let heard := begun.client.hear ⟨0⟩
        [Bytes.ofNarrow "pleted\r\n)\r", Bytes.ofNarrow "\n1 OK fetch completed\r\n"]
      begun.completed ++ heard.2 ++ heard.1.readAll.2 =
        [⟨7, .ok (.fetched [⟨.finite 1, ⟨[("UID", .number (.finite 7)),
          ("BODY[TEXT]", .bytes (Bytes.ofNarrow "1 OK completed\r\n"))]⟩⟩] [])⟩] := by
  have marked : Utf8.encode connected.fetchMarker <:+: Bytes.ofNarrow "fetch completed" :=
    ⟨Bytes.ofNarrow "fetch ", [], by decide⟩
  refine ⟨ready_connected, by decide, by decide, marked, ?_⟩
  have gives := @fetch_gives_replies connected (.fresh true) _ ready_connected rfl rfl (by decide)
    .start ⟨0⟩ 7 none none [quotingReply] (Bytes.ofNarrow "fetch completed") (by decide) marked
    [Bytes.ofNarrow "* 1 FETCH (UID 7 BODY[TEXT] \x7b16\x7d\r\n1 OK com"]
    [Bytes.ofNarrow "pleted\r\n)\r", Bytes.ofNarrow "\n1 OK fetch completed\r\n"] (by decide)
  exact gives.1

end ImapDialogue.Client
