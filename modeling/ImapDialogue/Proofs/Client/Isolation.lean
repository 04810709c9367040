import ImapDialogue.Proofs.Client.Fetching
import ImapDialogue.Proofs.Client.Listening
import ImapDialogue.Proofs.Client.Moves

/-!
A fetch whose answer cannot be decoded in places, or holds messages that cannot be read. What fails
is told and left out, piece by piece; the rest comes back in order, and the listeners learn of it
when everything has been read.
-/

namespace ImapDialogue

def Notice.skipped? : Notice → Option Response.Fault
  | .undecodable fault => some fault
  | _ => none

theorem Unread.skipped?_notice (message : Unread) : message.notice.skipped? = none := by
  unfold notice
  split <;> rfl

namespace Client

variable {client : Client}

/-! ## What the log tells to be left out -/

/-- The responses that the log tells to be left out. -/
def skipped (client : Client) : List Response.Fault := client.log.filterMap (·.notice.skipped?)

theorem skipped_tell (client : Client) (notice : Notice) :
    (client.tell notice).skipped = client.skipped ++
      if client.settings.logging.enabled then notice.skipped?.toList else [] :=
  client.shown_tell notice Notice.skipped?

theorem skipped_tellAll (client : Client) (notices : List Notice) :
    (client.tellAll notices).skipped = client.skipped ++
      if client.settings.logging.enabled then notices.filterMap Notice.skipped? else [] := by
  induction notices generalizing client with
  | nil => simp [tellAll]
  | cons notice notices induction =>
      have first := client.skipped_tell notice
      have later := induction (client.tell notice)
      rw [first, show (client.tell notice).settings = client.settings from rfl] at later
      rw [tellAll, List.foldl_cons, ← tellAll, later, List.append_assoc]
      cases client.settings.logging.enabled with
      | false => simp
      | true => cases skips : notice.skipped? <;> simp [skips]

theorem skipped_tellAll_others (client : Client) {notices : List Notice}
    (others : ∀ notice ∈ notices, notice.skipped? = none) :
    (client.tellAll notices).skipped = client.skipped := by
  rw [skipped_tellAll, List.filterMap_eq_nil_iff.mpr others, ite_self, List.append_nil]

theorem skipped_observe (client : Client) (traffic : Traffic) :
    (client.observe traffic).skipped = client.skipped := by
  unfold observe
  dsimp only
  split
  · rw [skipped_tell]
    simp [Notice.skipped?, skipped]
  · rfl

theorem skipped_absorb (client : Client) (channel : Channel) (effects : Effects) :
    (client.absorb channel effects).skipped = client.skipped := by
  have seen : ∀ (traffic : List Traffic) (client : Client),
      (traffic.foldl observe client).skipped = client.skipped := by
    intro traffic
    induction traffic with
    | nil => intro client; rfl
    | cons first others induction =>
        intro client
        rw [List.foldl_cons, induction, skipped_observe]
  rw [absorb, skipped_tellAll_others, seen]
  · rfl
  · intro notice member
    obtain ⟨failure, _, rfl⟩ := List.mem_map.mp member
    rfl

theorem skipped_readOn (client : Client) (readings : List Reading) :
    (client.readOn readings).1.skipped = client.skipped := by
  induction readings generalizing client with
  | nil => rfl
  | cons reading others induction =>
      have told : (client.tellAll (reading.turn.2.toList.map Unread.notice)).skipped =
          client.skipped := by
        apply skipped_tellAll_others
        intro notice member
        obtain ⟨message, _, rfl⟩ := List.mem_map.mp member
        exact message.skipped?_notice
      rw [readOn]
      dsimp only
      split
      · exact (induction _).trans told
      · exact (induction _).trans told

/-- A client later on that has begun to read nothing more and told nothing to be left out. -/
structure Noted (client later : Client) : Prop where
  settings : later.settings = client.settings
  readings : later.readings = client.readings
  listeners : later.listeners = client.listeners
  events : later.events = client.events
  skipped : later.skipped = client.skipped

theorem Noted.trans {later last : Client} (noted : client.Noted later) (noted' : later.Noted last) :
    client.Noted last :=
  ⟨noted'.settings.trans noted.settings, noted'.readings.trans noted.readings,
    noted'.listeners.trans noted.listeners, noted'.events.trans noted.events,
    noted'.skipped.trans noted.skipped⟩

theorem Noted.tell {later : Client} (noted : client.Noted later) {notice : Notice}
    (other : notice.skipped? = none) : client.Noted (later.tell notice) := by
  refine ⟨noted.settings, noted.readings, noted.listeners, noted.events, ?_⟩
  rw [skipped_tell, other, noted.skipped]
  simp

theorem noted_absorb (client : Client) (channel : Channel) (effects : Effects) :
    client.Noted (client.absorb channel effects) := by
  have core := core_absorb client channel effects
  have settings := settings_of_core core
  have readings := readings_of_core core
  have listeners := listeners_of_core core
  have events := events_of_core core
  exact ⟨settings, readings, listeners, events, client.skipped_absorb channel effects⟩

/-! ## The answer of a fetch -/

section Answer

variable [Mail.Reader]

theorem skipped_decodeFetch (client : Client) (now : Instant) (ticket : Nat) (before : Bytes) :
    (client.decodeFetch now ticket before).1.skipped = client.skipped ++
      if client.settings.logging.enabled then (Response.collect before).2 else [] := by
  have faults : ((Response.collect before).2.map Notice.undecodable).filterMap Notice.skipped? =
      (Response.collect before).2 := by
    rw [List.filterMap_map]
    exact List.filterMap_some
  have told : ((client.tellAll ((Response.collect before).2.map .undecodable)).tell
      (.received ((Response.collect before).1.map (·.sequence)))).skipped = client.skipped ++
        if client.settings.logging.enabled then (Response.collect before).2 else [] := by
    rw [skipped_tell, skipped_tellAll, faults]
    simp [Notice.skipped?]
  unfold decodeFetch
  dsimp only
  split <;> exact told

theorem await_settled {channel : Channel} (has : client.channel = some channel) (clock : Clock)
    (now : Instant) (ticket : Nat) (patterns : List Pattern) (task : Task) {settlement : Settlement}
    (settled : (channel.await ⟨ticket, patterns, client.timeout,
      clock.timer client.timeout⟩).2.settled = [settlement]) :
    ∃ seen : Client, client.Noted seen ∧
      client.await clock now ticket patterns task =
        ⟨(seen.conclude now ticket task settlement.result).1, [],
          (seen.conclude now ticket task settlement.result).2⟩ := by
  let began := channel.await ⟨ticket, patterns, client.timeout, clock.timer client.timeout⟩
  refine ⟨client.absorb began.1 began.2, client.noted_absorb _ _, ?_⟩
  simp only [await, has, settled, began]

/-- A step with which a fetch gets its answer: the line that completes it comes, behind some
data. -/
inductive Answered (client : Client) (now : Instant) (ticket : Nat) (before : Bytes) : Step → Prop
  /-- The fetch waits for the line, and the line arrives. -/
  | arrives {channel : Channel} {tag : String} {line : Bytes} (change : Channel → Channel × Effects)
      (has : client.channel = some channel) (waits : client.task = some (.fetch tag))
      (settled : (change channel).2.settled = [⟨ticket, .ok ⟨0, before, line⟩⟩]) :
      Answered client now ticket before (client.react now change)
  /-- The line is there when the fetch begins. -/
  | lies {channel : Channel} {line : Bytes} (clock : Clock) (sequence item : Option String)
      (has : client.channel = some channel) (flows : channel.intake.ended = false)
      (alive : channel.destroyed = false) (writable : channel.writeFault = none)
      (settled : (channel.await ⟨ticket,
        Command.answers (toString (client.lastTag + 1)) client.fetchMarker, client.timeout,
        clock.timer client.timeout⟩).2.settled = [⟨ticket, .ok ⟨0, before, line⟩⟩]) :
      Answered client now ticket before (client.fetch clock now ticket sequence item)

theorem Answered.concluded {now : Instant} {ticket : Nat} {before : Bytes} {step : Step}
    (answered : client.Answered now ticket before step) :
    ∃ (seen : Client) (tag : String) (line : Bytes), client.Noted seen ∧
      (step.client, step.completed) =
        seen.conclude now ticket (.fetch tag) (.ok ⟨0, before, line⟩) := by
  cases answered with
  | @arrives channel tag line change has waits settled =>
      let seen := client.absorb (change channel).1 (change channel).2
      have noted : client.Noted seen := client.noted_absorb _ _
      have core : seen.core = { client with channel := some (change channel).1 }.core :=
        core_absorb client _ _
      have waits' := (task_of_core core).trans waits
      refine ⟨{ seen with task := none }, tag, line,
        ⟨noted.settings, noted.readings, noted.listeners, noted.events, noted.skipped⟩, ?_⟩
      simp only [react, has, settled, settle, seen, waits', List.append_nil]
  -- The command is counted and goes out before it is known that the line is there already.
  | @lies channel line clock sequence item has flows alive writable settled =>
      let arguments := sequence.getD (client.settings.fetch.sequence.getD "1:3") ++ " " ++
        item.getD (client.settings.fetch.item.getD "BODY.PEEK[]")
      let tag := toString (client.lastTag + 1)
      let shown := tag ++ " " ++ "fetch" ++ " " ++ arguments
      let effects : Effects := { Effects.none with
        traffic := [⟨.outgoing, Channel.lineBytes shown⟩]
        written := [Channel.lineBytes shown] }
      let asked := (client.counting shown).absorb channel effects
      have sent : channel.send shown (some shown) = ⟨.ok (), channel, effects⟩ := by
        simp only [Channel.send, flows, alive, writable, Bool.or_self, Bool.false_eq_true, if_false]
        rfl
      have still : client.Noted { client with
          lastTag := client.lastTag + 1
          commands := client.commands ++ [shown] } := ⟨rfl, rfl, rfl, rfl, rfl⟩
      have counted : client.Noted (client.counting shown) := still.tell rfl
      have noted : client.Noted asked := counted.trans (noted_absorb _ channel effects)
      have patient : asked.timeout = client.timeout := by rw [timeout, timeout, noted.settings]
      rw [← patient] at settled
      have has' := channel_of_core (core_absorb (client.counting shown) channel effects)
      obtain ⟨seen, later, awaited⟩ :=
        await_settled has' clock now ticket _ (.fetch tag) settled
      refine ⟨seen, tag, line, noted.trans later, ?_⟩
      have begun : client.fetch clock now ticket sequence item =
          (client.counting shown).goOn clock now ticket (Command.answers tag client.fetchMarker)
            (.fetch tag) (channel.send shown (some shown)) := command_eq has _ _ _ _ _ _ _ _
      rw [begun, sent, goOn_sent _ clock now ticket _ _ channel rfl, awaited]

theorem sources_unread (now : Instant) (records : List Response.Record) :
    records.filterMap (Unread.ofRecord? now) = [] ↔
      records.filterMap (·.attributes.source?) = [] := by
  simp only [List.filterMap_eq_nil_iff, Unread.ofRecord?, Option.map_eq_none_iff]

theorem turnsLeft_unread (now : Instant) (ticket : Nat) (records : List Response.Record) :
    (Reading.mk ticket records [] (records.filterMap (Unread.ofRecord? now))).turnsLeft =
      (records.filterMap (·.attributes.source?)).foldl
        (fun turns source => turns + max 1 (Mail.Reader.turns source)) 0 := by
  rw [Reading.turnsLeft, List.foldl_filterMap, List.foldl_filterMap]
  congr 1
  funext turns record
  rw [Unread.ofRecord?]
  cases record.attributes.source? <;> rfl

theorem Answered.outcome {now : Instant} {ticket : Nat} {before : Bytes} {step : Step}
    (answered : client.Answered now ticket before step) :
    let records := (Response.collect before).1
    let messages := records.filterMap (Unread.ofRecord? now)
    step.completed = (if messages = [] then [⟨ticket, .ok (.fetched records [])⟩] else []) ∧
      step.client.readings = client.readings ++
        (if messages = [] then [] else [⟨ticket, records, [], messages⟩]) ∧
      step.client.listeners = client.listeners ∧ step.client.events = client.events ∧
      step.client.skipped = client.skipped ++
        if client.settings.logging.enabled then (Response.collect before).2 else [] := by
  intro records messages
  obtain ⟨seen, tag, line, noted, outcome⟩ := answered.concluded
  obtain ⟨behind, ended⟩ := Prod.ext_iff.mp outcome
  dsimp only at behind ended
  obtain ⟨greeting, mailbox, core⟩ :=
    seen.conclude_core now ticket (.fetch tag) (.ok ⟨0, before, line⟩)
  rw [behind, ended]
  refine ⟨?_, ?_, ?_, ?_, ?_⟩
  · exact conclude_completed seen now ticket (.fetch tag) (.ok ⟨0, before, line⟩)
  · rw [← noted.readings]
    exact readings_of_core core
  · exact (listeners_of_core core).trans noted.listeners
  · exact (events_of_core core).trans noted.events
  · have told : client.Noted
        (seen.tell (.commandCompleted tag (responseLine ⟨0, before, line⟩))) := noted.tell rfl
    have decoded := skipped_decodeFetch
      (seen.tell (.commandCompleted tag (responseLine ⟨0, before, line⟩))) now ticket before
    rw [told.skipped, told.settings] at decoded
    exact decoded

theorem ofRecord?_eq_some {now : Instant} {record : Response.Record} {mail : Mail} :
    Mail.ofRecord? now record = some mail ↔ ∃ source message,
      record.attributes.source? = some source ∧ Mail.Reader.read source = .ok message ∧
        mail = Mail.ofMessage now record source message := by
  rw [Mail.ofRecord?, Option.bind_eq_some_iff]
  constructor
  · rintro ⟨source, has, made⟩
    rw [Mail.ofSource] at made
    cases reads : Mail.Reader.read source with
    | error reason =>
        rw [reads] at made
        cases made
    | ok message =>
        rw [reads] at made
        cases made
        exact ⟨source, message, has, reads, rfl⟩
  · rintro ⟨source, message, has, reads, rfl⟩
    refine ⟨source, has, ?_⟩
    rw [Mail.ofSource, reads]
    rfl

/-- A fetch leaves out what fails, and nothing else. Whatever came in front of its completion, the
records are those that can be decoded, and each of the others is told once. The mails are those of
the records that carry a message which can be read. The fetch ends with them when every message
has had its turns, whatever happens in between, and then the listeners that are there learn of
them, each as often as it was added and not taken off again. -/
theorem fetch_leaves_out_what_fails {now : Instant} {ticket : Nat} {before : Bytes} {step : Step}
    (answered : client.Answered now ticket before step) :
    let records := (Response.collect before).1
    let faults := (Response.collect before).2
    let sources := records.filterMap (·.attributes.source?)
    let turns := sources.foldl (fun turns source => turns + max 1 (Mail.Reader.turns source)) 0
    let mails := mailsOf now records
    let ended : Completion := ⟨ticket, .ok (.fetched records mails)⟩
    (∀ record mail, Mail.ofRecord? now record = some mail ↔ ∃ source message,
        record.attributes.source? = some source ∧ Mail.Reader.read source = .ok message ∧
          mail = {
            sequence := record.sequence, uid := Mail.uidOf record.attributes
            sender := message.sender, recipients := message.recipients, subject := message.subject
            date := message.date.getD now, size := source.length
            plain := message.plain, html := message.html }) ∧
      (∀ fault, (Notice.undecodable fault).message =
        "Skipping undecodable FETCH response for message " ++ fault.sequence.text ++ ": " ++
          fault.malformed.message) ∧
      step.client.skipped = client.skipped ++
        (if client.settings.logging.enabled then faults else []) ∧
      step.client.events = client.events ∧
      (sources = [] → step.completed = [ended] ∧ step.client.readings = client.readings) ∧
      (sources ≠ [] → step.completed = [] ∧
        step.client.readings = client.readings ++
          [⟨ticket, records, [], records.filterMap (Unread.ofRecord? now)⟩] ∧
        ∀ moves : List Move, moves.countP Move.isTurn < turns →
          let last := (step.client.run moves).1
          let next := last.readOn last.readings
          let heard := last.listeners.told mails
          last.listeners = moves.foldl Move.listening client.listeners ∧
            (∀ move : Move, move.isTurn = false → (last.move move).1.events = last.events) ∧
            next.1.skipped = last.skipped ∧
            (∀ history, last.listeners.registered = (Listeners.after history).registered →
              ∀ listener, (heard.filter (·.hearer = listener)).map (·.mail) =
                mails.flatMap (List.replicate (Listeners.times history listener))) ∧
            ∃ ahead ours behind, last.readings = ahead ++ ours :: behind ∧
              next.2 = ahead.filterMap Reading.ending? ++
                (if moves.countP Move.isTurn + 1 = turns then [ended] else []) ++
                behind.filterMap Reading.ending? ∧
              next.1.readings = ahead.filterMap Reading.left? ++
                (if moves.countP Move.isTurn + 1 = turns then [] else [ours.turn.1]) ++
                behind.filterMap Reading.left? ∧
              next.1.events = last.events ++ (ahead.flatMap (Reading.telling last.listeners) ++
                (if moves.countP Move.isTurn + 1 = turns then heard else []) ++
                behind.flatMap (Reading.telling last.listeners))) := by
  intro records faults sources turns mails ended
  let messages := records.filterMap (Unread.ofRecord? now)
  have made : messages.filterMap (·.mail?) = mails := mails_unread now records
  obtain ⟨completed, readings, listeners, events, skipped⟩ := answered.outcome
  refine ⟨fun record mail => ofRecord?_eq_some, fun fault => rfl, skipped, events, ?_, ?_⟩
  · intro none
    have none' : messages = [] := (sources_unread now records).mpr none
    have no_mails : mails = [] := by rw [← made, none', List.filterMap_nil]
    rw [if_pos none'] at completed
    rw [if_pos none', List.append_nil] at readings
    refine ⟨?_, readings⟩
    rw [completed, show ended = ⟨ticket, .ok (.fetched records mails)⟩ from rfl, no_mails]
  · intro some
    have filled : messages ≠ [] := mt (sources_unread now records).mp some
    rw [if_neg filled] at completed
    rw [if_neg filled] at readings
    refine ⟨completed, readings, ?_⟩
    intro moves short last next heard
    -- The reading is the last one that began, so nothing stands behind it yet.
    let begun : Reading := ⟨ticket, records, [], messages⟩
    have all : begun.turnsLeft = turns := turnsLeft_unread now ticket records
    obtain ⟨ahead, ours, behind, holds, filled', count, alike⟩ :=
      run_keeps readings filled (short.trans_eq all.symm)
    rw [show Reading.turnsLeft _ = turns from all] at count
    obtain ⟨ends, left, tells⟩ := readOn_among holds filled'
    -- One more turn is its last one just when the turns of all sources are used up with it.
    have final : ours.turnsLeft = 1 ↔ moves.countP Move.isTurn + 1 = turns := by omega
    have same : ours.finished = ended := by
      rw [alike, Reading.finished, List.nil_append, made]
    have theirs : ours.mails ++ ours.unread.filterMap (·.mail?) = mails := by
      have results := congrArg Completion.result same
      simp only [Reading.finished, ended, Except.ok.injEq, Answer.fetched.injEq] at results
      exact results.2
    simp only [final, same, theirs] at ends left tells
    refine ⟨?_, ?_, last.skipped_readOn last.readings, ?_,
      ahead, ours, behind, holds, ends, left, tells⟩
    · rw [← listeners]
      exact step.client.listeners_run moves
    · intro move still
      exact (last.move_still still).2.1
    · intro history registered listener
      rw [last.listeners.told_to mails listener, registered, Listeners.count_after]

end Answer

@[reducible]
def titleReader : Mail.Reader where
  read source :=
    if source.isEmpty then .error "no message"
    else .ok ⟨[], [], Bytes.toNarrow source, none, "", none⟩
  turns _ := 1

/-- A response that cannot be decoded, one without a message, one with an empty message, and one
whose first source is none. -/
def mixedAnswer : Bytes :=
  Bytes.ofNarrow "* 1 FETCH (FLAGS (\\Seen)\r\n* 2 FETCH (UID 8)\r\n" ++
    Bytes.ofNarrow "* 3 FETCH (RFC822 \x7b0\x7d\r\n)\r\n* 4 FETCH (BODY[] NIL RFC822 hi UID 9)\r\n"

def firstListener : Listener := ⟨"first", 0⟩

def secondListener : Listener := ⟨"second", 1⟩

def fetchWait : Wait :=
  ⟨7, Command.answers (toString 1) "completed", standardTimeout, Clock.start.timer standardTimeout⟩

/-- A client that tells what it does and waits for the answer to a fetch. One of its two listeners
was added twice and taken off once. -/
def fetching : Client := { connected with
  settings := { openSettings with logging := { openSettings.logging with enabled := true } }
  channel := some ((Channel.fresh true).holding [] (some fetchWait))
  task := some (.fetch (toString 1))
  lastTag := 1
  listeners := Listeners.after [.addition firstListener, .addition secondListener,
    .addition firstListener, .removal firstListener] }

def answered : Step :=
  @react titleReader fetching ⟨0⟩
    (·.receive (mixedAnswer ++ Bytes.ofNarrow "1 OK completed\r\n"))

theorem fetching_answered : @Answered titleReader fetching ⟨0⟩ 7 mixedAnswer answered := by
  have known : List.Forall₂ Command.Recognizes fetchWait.patterns
      [Command.completes (Bytes.digits 1) (Utf8.encode "completed"),
        Command.refuses (Bytes.digits 1), Command.parts] :=
    Command.recognizes_tagged 1 (by decide)
  have opened : (Channel.fresh true).Open := ⟨rfl, rfl, rfl, rfl⟩
  have nothing : LineReader.read (Command.numbered 0
      [Command.completes (Bytes.digits 1) (Utf8.encode "completed"),
        Command.refuses (Bytes.digits 1), Command.parts]) [] = none := by decide
  have settled := (Channel.receive_standing opened known nothing
    (mixedAnswer ++ Bytes.ofNarrow "1 OK completed\r\n")).2
  have read : LineReader.read (Command.numbered 0
      [Command.completes (Bytes.digits 1) (Utf8.encode "completed"),
        Command.refuses (Bytes.digits 1), Command.parts])
      (mixedAnswer ++ Bytes.ofNarrow "1 OK completed\r\n") =
        some (⟨0, mixedAnswer, Bytes.ofNarrow "1 OK completed\r\n"⟩, []) := by decide +kernel
  rw [List.nil_append, read] at settled
  have has : fetching.channel = some ((Channel.fresh true).holding [] (some fetchWait)) := rfl
  have waits : fetching.task = some (.fetch (toString 1)) := rfl
  exact @Answered.arrives titleReader fetching ⟨0⟩ 7 mixedAnswer _ _ _ _ has waits settled

/-- The broken response is told, the empty message is left out, and the fetch ends with the other
one behind two turns. In between the second listener is added again, and so it is told twice. -/
theorem fetch_leaves_out_broken_pieces :
    @Answered titleReader fetching ⟨0⟩ 7 mixedAnswer answered ∧
      let records := (Response.collect mixedAnswer).1
      let mails := @mailsOf titleReader ⟨0⟩ records
      let moves : List Move := [.listen secondListener, .turn]
      let last := (@run titleReader answered.client moves).1
      let heard := last.listeners.told mails
      records.map (·.sequence) = [.finite 2, .finite 3, .finite 4] ∧
        mails.map (fun mail => (mail.sequence, mail.uid, mail.subject, mail.size)) =
          [(.finite 4, .finite 9, "hi", 2)] ∧
        answered.client.skipped = [⟨.finite 1, ⟨.attributeName, 24⟩⟩] ∧
        answered.completed = [] ∧ answered.client.events = [] ∧
        (heard.filter (·.hearer = secondListener)).map (·.mail) =
          mails.flatMap (List.replicate 2) ∧
        ∃ ahead behind : List Reading, (last.readOn last.readings).2 =
          ahead.filterMap Reading.ending? ++ [⟨7, .ok (.fetched records mails)⟩] ++
            behind.filterMap Reading.ending? := by
  refine ⟨fetching_answered, ?_⟩
  intro records mails moves last heard
  obtain ⟨_, _, skipped, silent, _, reads⟩ := @fetch_leaves_out_what_fails fetching titleReader
    ⟨0⟩ 7 mixedAnswer answered fetching_answered
  have sources : records.filterMap (·.attributes.source?) = [[], Bytes.ofNarrow "hi"] := by
    decide +kernel
  have turns : (records.filterMap (·.attributes.source?)).foldl
      (fun turns source => turns + max 1 (titleReader.turns source)) 0 = 2 := by
    rw [sources]
    rfl
  obtain ⟨completed, _, ends⟩ := reads (by rw [sources]; simp)
  obtain ⟨there, _, _, told, ahead, _, behind, _, ended, _⟩ := ends moves (by rw [turns]; decide)
  refine ⟨by decide +kernel, by decide +kernel, ?_, completed, silent, ?_, ahead, behind, ?_⟩
  · have faults : (Response.collect mixedAnswer).2 = [⟨.finite 1, ⟨.attributeName, 24⟩⟩] := by
      decide +kernel
    rw [skipped, faults]
    rfl
  · have history : last.listeners.registered = (Listeners.after [.addition firstListener,
        .addition secondListener, .addition firstListener, .removal firstListener,
        .addition secondListener]).registered := by
      rw [there]
      rfl
    exact told _ history secondListener
  · rw [ended, if_pos (by rw [turns]; rfl)]

end Client

end ImapDialogue
