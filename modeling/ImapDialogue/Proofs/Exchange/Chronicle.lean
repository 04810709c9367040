import ImapDialogue.Proofs.Exchange.Ledger

/-!
How true a client's records are. Its transcript and its list of commands show, in the order in which
it happened, all that came in and every command that was asked for. A command whose line could not
be sent is among them, in the transcript and in the list, as if it had been sent: it is noted before
it is known whether it can be. Behind it nothing is sent any more.
-/

namespace ImapDialogue

/-- Something that a client notes: data that came in, or a command under a number, sent or not. -/
inductive Happening where
  | heard (chunk : Bytes)
  | said (number : Nat) (asking : Asking) (sent : Bool)

namespace Happening

def shown : Happening → Bytes
  | heard chunk => chunk
  | said number asking _ => Channel.lineBytes (asking.shownLine number)

def carried? : Happening → Option Traffic
  | heard chunk => some ⟨.incoming, chunk⟩
  | said number asking true => some ⟨.outgoing, Channel.lineBytes (asking.line number)⟩
  | said _ _ false => none

def number? : Happening → Option Nat
  | heard _ => none
  | said number _ _ => some number

def asking? : Happening → Option Asking
  | heard _ => none
  | said _ asking _ => some asking

def shownLine? : Happening → Option String
  | heard _ => none
  | said number asking _ => some (asking.shownLine number)

def sent : Happening → Bool
  | said _ _ sent => sent
  | heard _ => false

def lost : Happening → Bool
  | said _ _ sent => !sent
  | heard _ => false

def ofTraffic (traffic : Traffic) : Happening := heard traffic.bytes

end Happening

def Passage.traffic? : Passage → Option Traffic
  | .received chunk => some ⟨.incoming, chunk⟩
  | .written data => some ⟨.outgoing, data⟩
  | .ended _ => none

namespace History

def carried (passed : List Passage) : List Traffic := passed.filterMap Passage.traffic?

@[simp] theorem carried_append (passed more : List Passage) :
    carried (passed ++ more) = carried passed ++ carried more := List.filterMap_append

@[simp] theorem carried_ended (completed : List Completion) :
    carried (completed.map .ended) = [] := by
  rw [carried, List.filterMap_map, List.filterMap_eq_nil_iff]
  intro completion _
  rfl

end History

open History

theorem Traffic.filterMap_incoming {seen : List Traffic}
    (all : ∀ traffic ∈ seen, traffic.direction = .incoming) :
    (seen.filterMap fun traffic => some (⟨.incoming, traffic.bytes⟩ : Traffic)) = seen := by
  refine (List.filterMap_congr ?_).trans List.filterMap_some
  intro traffic member
  have incoming := all traffic member
  obtain ⟨direction, bytes⟩ := traffic
  cases incoming
  rfl

namespace Exchange

/-- What passes on the channel when a call is begun is what the call writes. -/
theorem carried_begin [Mail.Reader] (exchange : Exchange) (ticket : Nat) (call : Call) :
    carried (exchange.begin ticket call).passed = carried exchange.passed ++
      (exchange.client.begin exchange.clock exchange.now ticket call).written.map
        (⟨.outgoing, ·⟩) := by
  have wrote : ∀ lines : List Bytes,
      carried (lines.map .written) = lines.map (⟨.outgoing, ·⟩) := by
    intro lines
    rw [carried, List.filterMap_map]
    exact congrFun List.filterMap_eq_map lines
  simp [Exchange.begin, absorb, ← wrote]

structure Chronicle (settings : Settings) (calls : List Call) (happenings : List Happening)
    (exchange : Exchange) : Prop where
  configured : exchange.client.settings = settings
  within : happenings.filterMap (·.asking?) <+: calls.filterMap (Call.asking? settings)
  whole : exchange.client.channel.isSome = true →
    happenings.filterMap (·.asking?) = calls.filterMap (Call.asking? settings)
  numbered : happenings.filterMap (·.number?) = List.range' 1 exchange.client.lastTag
  commands : exchange.client.commands = happenings.filterMap (·.shownLine?)
  transcript : exchange.client.transcript = happenings.flatMap (·.shown)
  carried : carried exchange.passed = happenings.filterMap (·.carried?)
  final : happenings.Pairwise fun first later => first.lost = true → later.sent = false
  shut : (∃ happening ∈ happenings, happening.lost = true) → exchange.client.Shut

variable {settings : Settings} {calls : List Call} {happenings : List Happening}
  {exchange later : Exchange}

theorem chronicle_start (settings : Settings) (script : Script) (now : Instant) :
    Chronicle settings [] [] (start settings script now) where
  configured := rfl
  within := List.prefix_rfl
  whole := fun _ => rfl
  numbered := rfl
  commands := rfl
  transcript := rfl
  carried := rfl
  final := .nil
  shut := by simp

namespace Chronicle

theorem follow (chronicle : Chronicle settings calls happenings exchange) {seen : List Traffic}
    (follows : exchange.client.Follows seen later.client)
    (all : ∀ traffic ∈ seen, traffic.direction = .incoming)
    (arrived : History.carried later.passed = History.carried exchange.passed ++ seen) :
    Chronicle settings calls (happenings ++ seen.map .ofTraffic) later := by
  have silent : ∀ {α : Type} (read : Happening → Option α),
      (∀ chunk, read (.heard chunk) = none) →
        (seen.map Happening.ofTraffic).filterMap read = [] := by
    intro α read deaf
    rw [List.filterMap_map, List.filterMap_eq_nil_iff]
    intro traffic _
    exact deaf traffic.bytes
  have heard : (seen.map Happening.ofTraffic).filterMap (·.carried?) = seen := by
    rw [List.filterMap_map]
    exact Traffic.filterMap_incoming all
  exact {
    configured := follows.settings.trans chronicle.configured
    within := by
      rw [List.filterMap_append, silent _ fun _ => rfl, List.append_nil]
      exact chronicle.within
    whole := by
      rw [List.filterMap_append, silent _ fun _ => rfl, List.append_nil, follows.connected]
      exact chronicle.whole
    numbered := by
      rw [List.filterMap_append, silent _ fun _ => rfl, List.append_nil, follows.counted]
      exact chronicle.numbered
    commands := by
      rw [List.filterMap_append, silent _ fun _ => rfl, List.append_nil, follows.commands]
      exact chronicle.commands
    transcript := by
      rw [follows.transcript, chronicle.transcript, List.flatMap_append, List.flatMap_map]
      rfl
    carried := by rw [arrived, chronicle.carried, List.filterMap_append, heard]
    final := by
      rw [List.pairwise_append]
      refine ⟨chronicle.final, ?_, ?_⟩
      · rw [List.pairwise_map]
        exact List.pairwise_of_forall fun _ _ lost => nomatch lost
      · intro first _ later member _
        obtain ⟨traffic, _, rfl⟩ := List.mem_map.mp member
        rfl
    shut := by
      rintro ⟨happening, member, lost⟩
      apply follows.shut
      rcases List.mem_append.mp member with before | new
      · exact chronicle.shut ⟨happening, before, lost⟩
      · obtain ⟨traffic, _, rfl⟩ := List.mem_map.mp new
        cases lost }

theorem absorbReading (chronicle : Chronicle settings calls happenings exchange) {client : Client}
    (follows : exchange.client.Follows [] client) (completed : List Completion) :
    Chronicle settings calls happenings (exchange.absorbReading (client, completed)) := by
  have kept : Chronicle settings calls (happenings ++ [].map .ofTraffic)
      (exchange.absorbReading (client, completed)) :=
    chronicle.follow follows (by rintro traffic ⟨⟩) (by simp [Exchange.absorbReading])
  rwa [List.map_nil, List.append_nil] at kept

theorem more (chronicle : Chronicle settings calls happenings exchange) {call : Call}
    (nothing : exchange.client.issues? call = none) :
    Chronicle settings (calls ++ [call]) happenings exchange where
  __ := chronicle
  within := by
    rw [List.filterMap_append]
    exact chronicle.within.trans (List.prefix_append _ _)
  whole := by
    intro connected
    rw [Client.issues?, if_pos connected, chronicle.configured] at nothing
    rw [List.filterMap_append, List.filterMap_cons_none nothing, List.filterMap_nil, List.append_nil]
    exact chronicle.whole connected

theorem disconnect (chronicle : Chronicle settings calls happenings exchange) :
    Chronicle settings calls happenings
      { exchange with client := exchange.client.release } where
  __ := chronicle
  whole := by rintro ⟨⟩
  shut := by rintro _ channel ⟨⟩

/-- A command is noted under the next number, sent if anything can be sent, and behind one that was
not sent there is none that is. -/
theorem note (chronicle : Chronicle settings calls happenings exchange) {call : Call}
    {asking : Asking} (asks : call.asking? settings = some asking)
    (connected : exchange.client.channel.isSome = true) {number : Nat}
    (next : number = exchange.client.lastTag + 1)
    (follows : (exchange.client.counting (asking.shownLine number)).Follows
      [⟨.outgoing, Channel.lineBytes (asking.shownLine number)⟩] later.client) {sent : Bool}
    (passed : History.carried later.passed =
      History.carried exchange.passed ++ (Happening.said number asking sent).carried?.toList)
    (free : sent = true → ¬exchange.client.Shut) (shut : sent = false → later.client.Shut) :
    Chronicle settings (calls ++ [call]) (happenings ++ [.said number asking sent]) later := by
  have same : (happenings ++ [Happening.said number asking sent]).filterMap (·.asking?) =
      (calls ++ [call]).filterMap (Call.asking? settings) := by
    rw [List.filterMap_append, List.filterMap_append, List.filterMap_cons_some asks,
      chronicle.whole connected]
    rfl
  exact {
    configured := follows.settings.trans chronicle.configured
    within := same ▸ List.prefix_rfl
    whole := fun _ => same
    numbered := by
      have counted : later.client.lastTag = exchange.client.lastTag + 1 := follows.counted
      rw [List.filterMap_append, chronicle.numbered, counted, List.range'_concat, Nat.one_mul,
        Nat.add_comm 1, ← next]
      rfl
    commands := by
      rw [List.filterMap_append, ← chronicle.commands]
      exact follows.commands
    transcript := by
      rw [List.flatMap_append, ← chronicle.transcript]
      exact follows.transcript
    carried := by
      rw [passed, chronicle.carried, List.filterMap_append]
      cases sent <;> rfl
    final := by
      rw [List.pairwise_append]
      refine ⟨chronicle.final, List.pairwise_singleton _ _, ?_⟩
      intro first member last member' lost
      rw [List.mem_singleton.mp member', Happening.sent, ← Bool.not_eq_true]
      exact fun sends => free sends (chronicle.shut ⟨first, member, lost⟩)
    shut := by
      rintro ⟨happening, member, lost⟩
      rcases List.mem_append.mp member with old | new
      · exact follows.shut (chronicle.shut ⟨happening, old, lost⟩)
      · rw [List.mem_singleton.mp new, Happening.lost, Bool.not_eq_true'] at lost
        exact shut lost }

variable [Mail.Reader]

theorem react (chronicle : Chronicle settings calls happenings exchange)
    {change : Channel → Channel × Effects} (event : Event change) :
    ∃ happenings', Chronicle settings calls happenings' (exchange.react change) := by
  have incident := event.incident
  rw [exchange.react_eq fun channel => (incident channel).written]
  cases has : exchange.client.channel with
  | none =>
      have nothing : exchange.noting change = exchange := by
        rw [noting, arrivals, has, List.append_nil]
      rw [nothing, Client.react_unconnected has]
      exact ⟨happenings, chronicle.absorbReading (.refl exchange.client) []⟩
  | some channel =>
      have follows := Client.follows_react has exchange.now (incident channel)
      have arrived : History.carried (exchange.arrivals change) = (change channel).2.traffic := by
        have all : (change channel).2.traffic.filter (·.direction = .incoming) =
            (change channel).2.traffic := by
          rw [List.filter_eq_self]
          intro traffic member
          rw [(incident channel).incoming traffic member]
          rfl
        rw [arrivals, has, History.carried]
        dsimp only
        rw [all, List.filterMap_map]
        exact Traffic.filterMap_incoming (incident channel).incoming
      refine ⟨_, chronicle.follow follows (incident channel).incoming ?_⟩
      simp [Exchange.absorbReading, noting, arrived]

theorem going (chronicle : Chronicle settings calls happenings exchange)
    (going : Going exchange later) :
    ∃ happenings', Chronicle settings calls happenings' later := by
  apply going.keeps
  · rintro exchange change event ⟨happenings', before⟩
    exact before.react event
  · rintro exchange clock ⟨happenings', before⟩
    exact ⟨happenings', { before with }⟩
  · rintro exchange pause queue ⟨happenings', before⟩
    exact ⟨happenings', { before with }⟩
  · rintro exchange turns ⟨happenings', before⟩
    exact ⟨happenings', before.absorbReading (Client.follows_read _ turns) _⟩
  · exact ⟨happenings, chronicle⟩

theorem ask (chronicle : Chronicle settings calls happenings exchange) {call : Call}
    {asking : Asking} (asks : call.asking? settings = some asking) {channel : Channel}
    (has : exchange.client.channel = some channel) (ticket : Nat) :
    ∃ happenings', Chronicle settings (calls ++ [call]) happenings' (exchange.begin ticket call) := by
  have asks' : call.asking? exchange.client.settings = some asking := by
    rw [chronicle.configured]
    exact asks
  obtain ⟨told, before, asked⟩ := Client.asks_begin has exchange.clock exchange.now ticket asks'
  have connected : told.channel.isSome = true :=
    before.connected.trans (Option.isSome_of_eq_some has)
  have prepared := chronicle.absorbReading before []
  let number := told.lastTag + 1
  have follows : (told.counting (asking.shownLine number)).Follows
      [⟨.outgoing, Channel.lineBytes (asking.shownLine number)⟩]
      (exchange.begin ticket call).client := asked.follows
  have noted : ∀ sent, (exchange.client.begin exchange.clock exchange.now ticket call).written.map
        (⟨.outgoing, ·⟩) = (Happening.said number asking sent).carried?.toList →
      (sent = true → ¬told.Shut) → (sent = false → (exchange.begin ticket call).client.Shut) →
      Chronicle settings (calls ++ [call]) (happenings ++ [.said number asking sent])
        (exchange.begin ticket call) := by
    intro sent wrote
    refine prepared.note asks connected rfl follows ?_
    rw [exchange.carried_begin ticket call, wrote]
    simp [Exchange.absorbReading, number]
  rcases asked.sends with ⟨free, wrote⟩ | ⟨shut, wrote⟩
  · refine ⟨_, noted true ?_ (fun _ => free) (by rintro ⟨⟩)⟩
    rw [wrote]
    rfl
  · refine ⟨_, noted false ?_ (by rintro ⟨⟩) fun _ => shut⟩
    rw [wrote]
    rfl

theorem begun (chronicle : Chronicle settings calls happenings exchange) (ticket : Nat)
    (call : Call) :
    ∃ happenings', Chronicle settings (calls ++ [call]) happenings' (exchange.begin ticket call) := by
  rcases exchange.begin_cases ticket call with ⟨channel, asking, has, asks, _⟩ |
    ⟨nothing, client, completed, follows, begun⟩ | ⟨nothing, client, completed, follows, _, begun⟩
  · rw [chronicle.configured] at asks
    exact chronicle.ask asks has ticket
  · rw [begun]
    exact ⟨happenings, (chronicle.more nothing).absorbReading follows completed⟩
  · rw [begun]
    exact ⟨happenings, ((chronicle.more nothing).absorbReading follows completed).disconnect⟩

end Chronicle

theorem written_eq_carried (passed : List Passage) :
    written passed = ((History.carried passed).filter (·.direction = .outgoing)).map (·.bytes) := by
  induction passed with
  | nil => rfl
  | cons passage passed induction =>
      cases passage with
      | received chunk => exact induction
      | written data => exact congrArg (List.cons data) induction
      | ended completion => exact induction

theorem count_lost (happenings : List Happening) :
    ((happenings.filterMap (·.carried?)).filter (·.direction = .outgoing)).length +
        happenings.countP (·.lost) = (happenings.filterMap (·.shownLine?)).length := by
  induction happenings with
  | nil => rfl
  | cons happening happenings induction =>
      rw [List.countP_cons]
      cases happening with
      | heard chunk => exact induction
      | said number asking sent =>
          cases sent with
          | false => exact congrArg (· + 1) induction
          | true => exact (Nat.succ_add _ _).trans (congrArg (· + 1) induction)

section Reader

variable [Mail.Reader]

theorem chronicle_connect (settings : Settings) (script : Script) (now : Instant) :
    Chronicle settings [] [] ((start settings script now).connect script) := by
  have started := chronicle_start settings script now
  let told := (Client.create settings).tell (.connecting settings.host settings.port)
  have connecting : (Client.create settings).Follows [] told := Client.follows_tell _ ⟨rfl, rfl⟩
  unfold connect
  dsimp only
  cases script.refusal with
  | some message =>
      dsimp only
      rw [absorb_silent _ rfl]
      exact started.absorbReading (connecting.silent (Client.follows_tell _ ⟨rfl, rfl⟩)) _
  | none =>
      let channel : Channel := { Channel.fresh true with writeFault := script.writeFault }
      let opened : Client := { told with channel := some channel }
      have unasked : Chronicle settings [] [] { start settings script now with client := opened } := {
        started with
        whole := fun _ => rfl
        shut := by simp }
      have waits := opened.follows_await (start settings script now).clock now 0 Command.greetings
        .greeting
      have begun := unasked.absorbReading waits (opened.await (start settings script now).clock now 0
        Command.greetings .greeting).completed
      have silent : (told.connect (start settings script now).clock now 0 script.writeFault).written =
          [] := Client.await_written _ _ _ _
      change Chronicle settings [] [] (((start settings script now).absorb
        (told.connect (start settings script now).clock now 0 script.writeFault)).withQueue none
          script.greeting)
      rw [absorb_silent _ silent]
      exact { begun with }

theorem Reached.chronicle (reached : Reached settings calls exchange) :
    ∃ happenings, Chronicle settings calls happenings exchange := by
  apply reached.keeps
  · exact fun script now => ⟨[], chronicle_start settings script now⟩
  · exact fun script now => ⟨[], chronicle_connect settings script now⟩
  · rintro calls exchange ticket call ⟨happenings, chronicle⟩
    exact chronicle.begun ticket call
  · rintro calls exchange later going ⟨happenings, chronicle⟩
    exact chronicle.going going

/-! ## What the records are worth -/

/-- What the records of a client are worth on which calls were made. They show what came in and the
commands that the calls asked for, in order; what passed is the same without the commands that were
not sent, and with every line as it is. So the list is that of the lines that went out exactly if
every command on it could be sent. -/
def Recorded (settings : Settings) (calls : List Call) (exchange : Exchange) : Prop :=
  ∃ happenings : List Happening,
    happenings.filterMap (·.asking?) <+: calls.filterMap (Call.asking? settings) ∧
      happenings.filterMap (·.number?) = List.range' 1 exchange.client.lastTag ∧
      exchange.client.commands = happenings.filterMap (·.shownLine?) ∧
      exchange.client.transcript = happenings.flatMap (·.shown) ∧
      History.carried exchange.passed = happenings.filterMap (·.carried?) ∧
      (happenings.Pairwise fun first later => first.lost = true → later.sent = false) ∧
      ((written exchange.passed).length = exchange.client.commands.length ↔
        ∀ happening ∈ happenings, happening.lost = false)

theorem Reached.recorded {made : List Call} (reached : Reached settings made exchange)
    (first : made.filterMap (Call.asking? settings) <+: calls.filterMap (Call.asking? settings)) :
    Recorded settings calls exchange := by
  obtain ⟨happenings, records⟩ := reached.chronicle
  refine ⟨happenings, records.within.trans first, records.numbered, records.commands,
    records.transcript, records.carried, records.final, ?_⟩
  have count := count_lost happenings
  rw [written_eq_carried, List.length_map, records.carried, records.commands, ← count]
  have lossless : happenings.countP (·.lost) = 0 ↔
      ∀ happening ∈ happenings, happening.lost = false := by
    rw [List.countP_eq_zero]
    simp only [Bool.not_eq_true]
  rw [← lossless]
  omega

/-- In every dialogue and every session, with any settings, calls and server, the transcript and the
list of commands show what was heard and what was asked for, whether or not it was sent. -/
theorem records_show_lines_unsent_too (settings : Settings) (script : Script) (now : Instant)
    (requests : List Request) (surroundings : Surroundings) :
    Recorded settings (requests.map (·.call)) (dialogue settings script now requests).last ∧
      Recorded settings (requests.map (·.call)) (unconnected settings script now requests).last ∧
      Recorded settings Session.calls (Session.run settings surroundings).exchange := by
  obtain ⟨made, reached, first⟩ := dialogue_asks settings script now requests
  obtain ⟨made', reached', first'⟩ := run_asks settings surroundings
  exact ⟨reached.recorded first,
    (reached_unconnected settings script now requests).recorded List.prefix_rfl,
    reached'.recorded first'⟩

end Reader

def plainSettings : Settings :=
  ⟨"127.0.0.1", 10000, "reader", "secret", none, .skip, default, default, none, .off, default⟩

def briefServer : Script where
  greeting := [.send (Bytes.ofNarrow "* OK hi\r\n"), .hangUp]
  replies := []
  refusal := none
  writeFault := none

/-- A login that is never written is on the list of commands and in the transcript. -/
theorem unsent_login_is_recorded :
    let last := (dialogue plainSettings briefServer ⟨0⟩ [⟨.login, true⟩]).last
    written last.passed = [] ∧ received last.passed = Bytes.ofNarrow "* OK hi\r\n" ∧
      last.client.commands = ["1 login reader ****"] ∧
      last.client.transcript = Bytes.ofNarrow "* OK hi\r\n1 login reader ****\r\n" := by
  decide +kernel

end Exchange

end ImapDialogue
