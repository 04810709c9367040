import ImapDialogue.Proofs.Client.Books
import ImapDialogue.Proofs.Exchange.Events

/-!
What a client has asked for and shown since it was made. Its commands are numbered from one on in
the order of the calls that asked for them, they go out in that order until nothing can be sent any
more, and what is shown is what has passed, with every command in the form in which it is shown.
-/

namespace ImapDialogue

open History

namespace Exchange

/-- The books of an exchange that calls led to: the commands that they asked for while there was a
channel, and the traffic that the client saw. -/
structure Ledger (settings : Settings) (calls : List Call) (asked : List Asking)
    (seen : List Traffic) (exchange : Exchange) : Prop where
  books : exchange.client.Books settings asked seen
  within : asked <+: calls.filterMap (Call.asking? settings)
  whole : exchange.client.channel.isSome = true → asked = calls.filterMap (Call.asking? settings)
  heard : Traffic.incoming seen = received exchange.passed
  wrote : written exchange.passed <+: (Asking.lines asked).map Channel.lineBytes
  sent : ¬exchange.client.Shut →
    written exchange.passed = (Asking.lines asked).map Channel.lineBytes
  lines : exchange.server.received = (written exchange.passed).flatMap Bytes.lines

variable {settings : Settings} {calls : List Call} {asked : List Asking} {seen seen' : List Traffic}
  {exchange later : Exchange}

theorem ledger_start (settings : Settings) (script : Script) (now : Instant) :
    Ledger settings [] [] [] (start settings script now) where
  books := Client.books_create settings
  within := List.prefix_rfl
  whole := fun _ => rfl
  heard := rfl
  wrote := List.prefix_rfl
  sent := fun _ => rfl
  lines := rfl

namespace Ledger

theorem follow (ledger : Ledger settings calls asked seen exchange)
    (follows : exchange.client.Follows seen' later.client)
    (all : ∀ traffic ∈ seen', traffic.direction = .incoming)
    (arrived : received later.passed = received exchange.passed ++ Traffic.incoming seen')
    (silent : written later.passed = written exchange.passed)
    (server : later.server.received = exchange.server.received) :
    Ledger settings calls asked (seen ++ seen') later where
  books := ledger.books.follow follows all
  within := ledger.within
  whole := by
    rw [follows.connected]
    exact ledger.whole
  heard := by rw [Traffic.incoming_append, ledger.heard, arrived]
  wrote := silent ▸ ledger.wrote
  sent := fun free => silent.trans (ledger.sent fun shut => free (follows.shut shut))
  lines := by rw [server, silent, ledger.lines]

theorem absorbReading (ledger : Ledger settings calls asked seen exchange) {client : Client}
    (follows : exchange.client.Follows [] client) (completed : List Completion) :
    Ledger settings calls asked seen (exchange.absorbReading (client, completed)) := by
  have kept : Ledger settings calls asked (seen ++ []) (exchange.absorbReading (client, completed)) :=
    ledger.follow follows (by rintro traffic ⟨⟩)
      (by simp [Exchange.absorbReading, Traffic.incoming]) (by simp [Exchange.absorbReading]) rfl
  rwa [List.append_nil] at kept

theorem more (ledger : Ledger settings calls asked seen exchange) {call : Call}
    (nothing : exchange.client.issues? call = none) :
    Ledger settings (calls ++ [call]) asked seen exchange where
  __ := ledger
  within := by
    rw [List.filterMap_append]
    exact ledger.within.trans (List.prefix_append _ _)
  whole := by
    intro connected
    rw [Client.issues?, if_pos connected, ledger.books.configured] at nothing
    rw [List.filterMap_append, List.filterMap_cons_none nothing, List.filterMap_nil, List.append_nil]
    exact ledger.whole connected

theorem disconnect (ledger : Ledger settings calls asked seen exchange) :
    Ledger settings calls asked seen
      { exchange with client := exchange.client.release } where
  __ := ledger
  books := { ledger.books with }
  whole := by rintro ⟨⟩
  sent := by
    intro free
    exact absurd (by rintro channel ⟨⟩) free

/-- What could be sent before has all been sent, so a new line comes right behind it. -/
theorem sends (ledger : Ledger settings calls asked seen exchange) {told : Client} {asking : Asking}
    {step : Client.Step} (before : exchange.client.Follows [] told) (asks : told.Asks asking step) :
    written exchange.passed ++ step.written =
        (Asking.lines (asked ++ [asking])).map Channel.lineBytes ∨
      (step.client.Shut ∧ step.written = []) := by
  rcases asks.sends with ⟨free, sent⟩ | shut
  · left
    rw [(ledger.books.silent before).counted] at sent
    rw [Asking.lines_concat, List.map_append, ledger.sent fun shut => free (before.shut shut), sent]
    rfl
  · exact .inr shut

variable [Mail.Reader]

theorem react (ledger : Ledger settings calls asked seen exchange)
    {change : Channel → Channel × Effects} (event : Event change) :
    ∃ seen', Ledger settings calls asked seen' (exchange.react change) := by
  have incident := event.incident
  rw [exchange.react_eq fun channel => (incident channel).written]
  cases has : exchange.client.channel with
  | none =>
      have nothing : exchange.noting change = exchange := by
        rw [noting, arrivals, has, List.append_nil]
      rw [nothing, Client.react_unconnected has]
      exact ⟨seen, ledger.absorbReading (.refl exchange.client) []⟩
  | some channel =>
      have follows := Client.follows_react has exchange.now (incident channel)
      have arrived : received (exchange.arrivals change) =
          Traffic.incoming (change channel).2.traffic := by
        rw [arrivals, has, received, List.flatMap_map]
        rfl
      refine ⟨seen ++ (change channel).2.traffic, ledger.follow follows (incident channel).incoming
        ?_ ?_ rfl⟩
      · simp [Exchange.absorbReading, noting, arrived]
      · simp [Exchange.absorbReading, noting, written_arrivals]

theorem going (ledger : Ledger settings calls asked seen exchange) (going : Going exchange later) :
    ∃ seen', Ledger settings calls asked seen' later := by
  apply going.keeps
  · rintro exchange change event ⟨seen', before⟩
    exact before.react event
  · rintro exchange clock ⟨seen', before⟩
    exact ⟨seen', { before with }⟩
  · rintro exchange pause queue ⟨seen', before⟩
    exact ⟨seen', { before with }⟩
  · rintro exchange turns ⟨seen', before⟩
    exact ⟨seen', before.absorbReading (Client.follows_read _ turns) _⟩
  · exact ⟨seen, ledger⟩

/-- A command is asked for. Its line goes out behind all others or not at all. -/
theorem ask (ledger : Ledger settings calls asked seen exchange) {call : Call} {asking : Asking}
    (asks : call.asking? settings = some asking) {channel : Channel}
    (has : exchange.client.channel = some channel) (ticket : Nat) :
    ∃ seen', Ledger settings (calls ++ [call]) (asked ++ [asking]) seen'
      (exchange.begin ticket call) := by
  let step := exchange.client.begin exchange.clock exchange.now ticket call
  have asks' : call.asking? exchange.client.settings = some asking := by
    rw [ledger.books.configured]
    exact asks
  obtain ⟨told, before, asks'⟩ := Client.asks_begin has exchange.clock exchange.now ticket asks'
  have all : asked ++ [asking] = (calls ++ [call]).filterMap (Call.asking? settings) := by
    rw [List.filterMap_append, List.filterMap_cons_some asks, List.filterMap_nil,
      ← ledger.whole (Option.isSome_of_eq_some has)]
  have passed : written (exchange.begin ticket call).passed =
      written exchange.passed ++ step.written := by
    simp [Exchange.begin, absorb, step]
  have went := ledger.sends before asks'
  refine ⟨_, (ledger.books.silent before).ask asks', all ▸ List.prefix_rfl, fun _ => all, ?_, ?_, ?_,
    ?_⟩
  · rw [Traffic.incoming_append, ledger.heard]
    simp [Traffic.incoming, Exchange.begin, absorb]
  · rw [passed]
    rcases went with all | ⟨_, silent⟩
    · exact all ▸ List.prefix_rfl
    · rw [show step.written = [] from silent, List.append_nil, Asking.lines_concat, List.map_append]
      exact ledger.wrote.trans (List.prefix_append _ _)
  · intro free
    rcases went with all | ⟨shut, _⟩
    · exact passed.trans all
    · exact absurd shut free
  · rw [passed, List.flatMap_append, ← ledger.lines]
    exact Server.received_receive _ _

theorem begun (ledger : Ledger settings calls asked seen exchange) (ticket : Nat) (call : Call) :
    ∃ seen', Ledger settings (calls ++ [call])
      (asked ++ (exchange.client.issues? call).toList) seen' (exchange.begin ticket call) := by
  rcases exchange.begin_cases ticket call with ⟨channel, asking, has, asks, issues⟩ |
    ⟨nothing, client, completed, follows, begun⟩ | ⟨nothing, client, completed, follows, _, begun⟩
  · rw [ledger.books.configured] at asks
    rw [issues]
    exact ledger.ask asks has ticket
  · rw [nothing, Option.toList_none, List.append_nil, begun]
    exact ⟨seen, (ledger.more nothing).absorbReading follows completed⟩
  · rw [nothing, Option.toList_none, List.append_nil, begun]
    exact ⟨seen, ((ledger.more nothing).absorbReading follows completed).disconnect⟩

end Ledger

variable [Mail.Reader]

theorem ledger_connect (settings : Settings) (script : Script) (now : Instant) :
    ∃ seen, Ledger settings [] [] seen ((start settings script now).connect script) := by
  have started := ledger_start settings script now
  let told := (Client.create settings).tell (.connecting settings.host settings.port)
  have connecting : (Client.create settings).Follows [] told := Client.follows_tell _ ⟨rfl, rfl⟩
  unfold connect
  dsimp only
  cases script.refusal with
  | some message =>
      dsimp only
      rw [absorb_silent _ rfl]
      exact ⟨[], started.absorbReading (connecting.silent (Client.follows_tell _ ⟨rfl, rfl⟩)) _⟩
  | none =>
      let channel : Channel := { Channel.fresh true with writeFault := script.writeFault }
      let opened : Client := { told with channel := some channel }
      have told' := started.books.silent connecting
      have unasked : Ledger settings [] [] [] { start settings script now with client := opened } := {
        started with
        books := { told' with }
        whole := fun _ => rfl
        sent := fun _ => rfl }
      have waits := opened.follows_await (start settings script now).clock now 0 Command.greetings
        .greeting
      have begun := unasked.absorbReading waits (opened.await (start settings script now).clock now 0
        Command.greetings .greeting).completed
      have silent : (told.connect (start settings script now).clock now 0 script.writeFault).written =
          [] := Client.await_written _ _ _ _
      change ∃ seen, Ledger settings [] [] seen (((start settings script now).absorb
        (told.connect (start settings script now).clock now 0 script.writeFault)).withQueue none
          script.greeting)
      rw [absorb_silent _ silent]
      exact ⟨[], { begun with }⟩

theorem Reached.ledger (reached : Reached settings calls exchange) :
    ∃ asked seen, Ledger settings calls asked seen exchange := by
  apply reached.keeps
  · exact fun script now => ⟨[], [], ledger_start settings script now⟩
  · exact fun script now => ⟨[], ledger_connect settings script now⟩
  · rintro calls exchange ticket call ⟨asked, seen, ledger⟩
    exact ⟨_, ledger.begun ticket call⟩
  · rintro calls exchange later going ⟨asked, seen, ledger⟩
    exact ⟨asked, ledger.going going⟩

/-! ## What dialogues and sessions ask for -/

theorem dialogue_asks (settings : Settings) (script : Script) (now : Instant)
    (requests : List Request) :
    ∃ made, Reached settings made (dialogue settings script now requests).last ∧
      made.filterMap (Call.asking? settings) <+:
        (requests.map (·.call)).filterMap (Call.asking? settings) := by
  obtain ⟨made, first, reached⟩ := reached_dialogue settings script now requests
  exact ⟨made, reached, first.filterMap _⟩

/-- A session asks for nothing but what its calls ask for. To close the connection asks for
nothing. -/
theorem run_asks (settings : Settings) (surroundings : Surroundings) :
    ∃ made, Reached settings made (Session.run settings surroundings).exchange ∧
      made.filterMap (Call.asking? settings) <+:
        Session.calls.filterMap (Call.asking? settings) := by
  obtain ⟨made, first, closing, last, reached⟩ := Session.reached_run settings surroundings
  have silent : closing.filterMap (Call.asking? settings) = [] :=
    List.prefix_nil.mp (last.filterMap (Call.asking? settings))
  refine ⟨made ++ closing, reached, ?_⟩
  rw [List.filterMap_append, silent, List.append_nil]
  exact first.filterMap _

end Exchange

end ImapDialogue
