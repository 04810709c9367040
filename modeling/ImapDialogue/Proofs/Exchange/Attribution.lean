import ImapDialogue.Proofs.Client.Account
import ImapDialogue.Proofs.Client.Waiting
import ImapDialogue.Proofs.Exchange.Ledger

/-!
Which line of the server ends which command, over a whole dialogue. However late a reply comes, it
ends the command whose tag it bears or none: the lines that were taken lie apart in what was
received, one for a call at most, and none was taken for a command that failed without an answer.
-/

namespace ImapDialogue

open History

/-- Without a channel a command fails, and to close succeeds. Nothing changes but the log. -/
theorem Client.begin_in_vain [Mail.Reader] {client : Client} (free : client.channel = none)
    (clock : Clock) (now : Instant) (ticket : Nat) {call : Call}
    (kind : (call.asking? client.settings).isSome ∨ call = .close) :
    ∃ log, client.begin clock now ticket call = ⟨{ client with log := log }, [],
      [⟨ticket, if call = .close then .ok .done else .error .notConnected⟩]⟩ := by
  cases call with
  | login =>
      rw [Client.begin, login, command_unconnected free]
      exact ⟨_, rfl⟩
  | select mailbox =>
      have free' : (client.tell (.selecting (mailbox.getD client.standardMailbox))).channel = none :=
        free
      rw [Client.begin, select, command_unconnected free']
      exact ⟨_, rfl⟩
  | fetch sequence item =>
      rw [Client.begin, fetch, command_unconnected free]
      exact ⟨_, rfl⟩
  | close =>
      have free' : (client.tell .closing).channel = none := free
      rw [Client.begin, close, react_unconnected free', release_unconnected free']
      exact ⟨_, rfl⟩
  | listen | unlisten => simp [Call.asking?] at kind

namespace Exchange

structure Docket (settings : Settings) (next : Nat) (issued : List Issue) (taken : List Taking)
    (exchange : Exchange) : Prop where
  ledger : ∃ calls seen, Ledger settings calls (issued.map (·.asking)) seen exchange
  account : exchange.client.Account settings next issued taken exchange.completed
    (received exchange.passed)

structure Register (settings : Settings) (next : Nat) (issued : List Issue) (taken : List Taking)
    (exchange : Exchange) : Prop extends Docket settings next issued taken exchange where
  answers : ∀ taking ∈ taken, taking.Answers settings issued

/-- The commands that requests issue, one after the other, under the tickets of their calls. -/
def issuing [Mail.Reader] (exchange : Exchange) (ticket : Nat) : List Request → List Issue
  | [] => []
  | request :: others =>
      (exchange.client.issues? request.call).toList.map (⟨ticket, ·⟩) ++
        (exchange.perform ticket request).issuing (ticket + 1) others

/-- What is known of the commands that were issued, which are numbered from one on, and of the lines
that were taken for calls. A call's ticket is its place among the calls, that of the greeting is
zero. -/
structure Attributed (settings : Settings) (issued : List Issue) (taken : List Taking)
    (exchange : Exchange) : Prop where
  counted : exchange.client.lastTag = issued.length
  commands : exchange.client.commands = Asking.shownLines (issued.map (·.asking))
  /-- What goes out is what was issued, in order, as long as anything can be sent. -/
  wrote : written exchange.passed <+:
    (Asking.lines (issued.map (·.asking))).map Channel.lineBytes
  /-- What was taken lies apart in what was received, one piece behind the other. -/
  apart : ∃ rest, received exchange.passed = consumed taken ++ rest
  /-- For a call one line is taken at most. -/
  single : (taken.map (·.ticket)).Nodup
  /-- It is the first one that the call waits for. -/
  answers : ∀ taking ∈ taken, taking.Answers settings issued
  ends : ∀ (place : Nat) (issue : Issue), issued[place]? = some issue →
    ∀ completion ∈ exchange.completed, completion.ticket = issue.ticket →
      issue.Ends settings taken (place + 1) completion.result
  mailbox : exchange.client.mailbox = lastSelected issued exchange.completed

variable {settings : Settings} {next : Nat} {issued : List Issue} {taken : List Taking}
  {exchange later : Exchange}

theorem docket_start (settings : Settings) (script : Script) (now : Instant) :
    Docket settings 1 [] [] (start settings script now) where
  ledger := ⟨[], [], ledger_start settings script now⟩
  account := Client.account_create settings

theorem register_start (settings : Settings) (script : Script) (now : Instant) :
    Register settings 1 [] [] (start settings script now) where
  __ := docket_start settings script now
  answers := by rintro taking ⟨⟩

theorem Docket.register (unbroken : ∀ asking : Asking, Utf8.Unbroken (asking.marker settings))
    (docket : Docket settings next issued taken exchange) :
    Register settings next issued taken exchange where
  __ := docket
  answers := docket.account.tally.answers unbroken

theorem Register.attributed (register : Register settings next issued taken exchange) :
    Attributed settings issued taken exchange := by
  obtain ⟨calls, seen, ledger⟩ := register.ledger
  obtain ⟨rest, heard, _⟩ := register.account.heard
  have tally := register.account.tally
  exact {
    counted := ledger.books.counted.trans (List.length_map _)
    commands := ledger.books.commands
    wrote := ledger.wrote
    apart := ⟨rest, heard⟩
    single := tally.single
    answers := register.answers
    ends := fun _ _ issues _ ended same => tally.ends issues register.answers ended same
    mailbox := register.account.mailbox }

section Reader

variable [Mail.Reader]

theorem docket_connect (script : Script) (now : Instant) :
    ∃ taken, Docket settings 1 [] taken ((start settings script now).connect script) := by
  obtain ⟨seen, ledger⟩ := ledger_connect settings script now
  suffices account : ∃ taken, ((start settings script now).connect script).client.Account settings 1
      [] taken ((start settings script now).connect script).completed
      (received ((start settings script now).connect script).passed) by
    obtain ⟨taken, account⟩ := account
    exact ⟨taken, ⟨[], seen, ledger⟩, account⟩
  let told := (Client.create settings).tell (.connecting settings.host settings.port)
  unfold connect
  dsimp only
  cases script.refusal with
  | some message =>
      let refusing := told.tell (.connectionFailed (.refused message))
      have account : refusing.Account settings 1 [] [] [] [] :=
        (Client.account_create settings).of_core rfl
      have refused := account.finish (Nat.zero_lt_one : (Completion.mk 0 _).ticket < 1)
        (.silence (rfl : (Failure.refused message).isAnswer = false) (by rintro taking ⟨⟩)) rfl
        (by rintro wait ⟨⟩)
      exact ⟨[], refused⟩
  | none =>
      let step := told.connect (start settings script now).clock now 0 script.writeFault
      obtain ⟨taken, account⟩ := Client.account_connect (start settings script now).clock now
        (Client.core_tell _ _ : told.core = _) script.writeFault
      have silent : step.written = [] := Client.await_written _ _ _ _
      have nothing : received (step.completed.map .ended) = [] := received_ended _
      change ∃ taken, Client.Account settings 1 [] taken
        ((start settings script now).absorb step).completed
        (received ((start settings script now).absorb step).passed) step.client
      rw [absorb_silent _ silent]
      rw [← nothing] at account
      exact ⟨taken, account⟩

namespace Docket

variable (docket : Docket settings next issued taken exchange)

include docket

theorem react {change : Channel → Channel × Effects} (event : Event change) :
    ∃ taken', Docket settings next issued taken' (exchange.react change) := by
  obtain ⟨calls, seen, ledger⟩ := docket.ledger
  have ledger' := ledger.react event
  have account := docket.account
  rw [exchange.react_eq fun channel => (event.incident channel).written] at ledger' ⊢
  cases has : exchange.client.channel with
  | none =>
      refine ⟨taken, ⟨calls, ledger'⟩, ?_⟩
      have nothing : exchange.noting change = exchange := by
        rw [noting, arrivals, has, List.append_nil]
      rw [nothing, Client.react_unconnected has]
      simpa [absorbReading] using account
  | some channel =>
      obtain ⟨taken', come⟩ := account.come has
        (event.brings channel (account.fit channel has)) exchange.now
      have arrived : received (exchange.arrivals change) =
          Traffic.incoming (change channel).2.traffic := by
        rw [arrivals, has, received, List.flatMap_map]
        rfl
      refine ⟨taken', ⟨calls, ledger'⟩, ?_⟩
      rw [← arrived, ← received_append] at come
      simpa [absorbReading, noting, Client.react, has] using come

/-- Whatever comes while a dialogue goes on is taken for the calls that wait for it. -/
theorem going (going : Going exchange later) :
    ∃ taken', Docket settings next issued taken' later := by
  apply going.keeps
  · rintro exchange change event ⟨taken', before⟩
    exact before.react event
  · rintro exchange clock ⟨taken', ⟨calls, seen, ledger⟩, account⟩
    exact ⟨taken', ⟨calls, seen, { ledger with }⟩, account⟩
  · rintro exchange pause queue ⟨taken', ⟨calls, seen, ledger⟩, account⟩
    exact ⟨taken', ⟨calls, seen, { ledger with }⟩, account⟩
  · rintro exchange turns ⟨taken', ⟨calls, seen, ledger⟩, account⟩
    refine ⟨taken', ⟨calls, ledger.going (Going.here.turned turns)⟩, ?_⟩
    have read := account.read turns
    simpa [absorbReading] using read
  · exact ⟨taken, docket⟩

theorem begin (call : Call) :
    ∃ taken', Docket settings (next + 1)
      (issued ++ (exchange.client.issues? call).toList.map (⟨next, ·⟩)) taken'
      (exchange.begin next call) := by
  obtain ⟨calls, seen, ledger⟩ := docket.ledger
  have counted : exchange.client.lastTag = issued.length :=
    ledger.books.counted.trans (List.length_map _)
  obtain ⟨taken', account⟩ := docket.account.begin ledger.books.configured counted
    exchange.clock exchange.now call
  refine ⟨taken', ⟨calls ++ [call], ?_⟩, ?_⟩
  · have begun := ledger.begun next call
    rw [List.map_append, List.map_map]
    simpa [Function.comp_def] using begun
  · simpa [Exchange.begin, absorb] using account

theorem performAll (requests : List Request) :
    ∃ taken', Docket settings (next + requests.length) (issued ++ exchange.issuing next requests)
      taken' (exchange.performAll next requests).2 := by
  induction requests generalizing exchange next issued taken with
  | nil =>
      rw [issuing, List.append_nil]
      exact ⟨taken, docket⟩
  | cons request others induction =>
      obtain ⟨taken', begun⟩ := docket.begin request.call
      obtain ⟨_, performed⟩ := begun.going (.perform exchange next request)
      obtain ⟨taken'', last⟩ := induction performed
      rw [issuing, ← List.append_assoc, List.length_cons, Nat.add_comm others.length, ← Nat.add_assoc]
      exact ⟨taken'', last⟩

end Docket

section Unbroken

variable (unbroken : ∀ asking : Asking, Utf8.Unbroken (asking.marker settings))

include unbroken

theorem register_connect (script : Script) (now : Instant) :
    ∃ taken, Register settings 1 [] taken ((start settings script now).connect script) :=
  (docket_connect script now).imp fun _ => Docket.register unbroken

theorem Register.going (register : Register settings next issued taken exchange)
    (going : Going exchange later) : ∃ taken', Register settings next issued taken' later :=
  (register.toDocket.going going).imp fun _ => Docket.register unbroken

theorem Register.performAll (register : Register settings next issued taken exchange)
    (requests : List Request) :
    ∃ taken', Register settings (next + requests.length) (issued ++ exchange.issuing next requests)
      taken' (exchange.performAll next requests).2 :=
  (register.toDocket.performAll requests).imp fun _ => Docket.register unbroken

end Unbroken

/-- Whatever calls are made, waited for or not, and whatever the server does, a command is ended by
its own reply, by a farewell or without one. This holds of a client that has tried to connect,
whatever came of that, and of one that has not, and it goes on to hold while no further call is made.
Without a connection, and so behind closing, nothing changes any more but the log: to close succeeds,
and commands fail. -/
theorem commands_end_by_their_own_replies
    (unbroken : ∀ asking : Asking, Utf8.Unbroken (asking.marker settings)) (script : Script)
    (now : Instant) (requests : List Request) :
    let started := start settings script now
    let connected := ((started.connect script).finish 0).drain
    (∀ later, Going (connected.performAll 1 requests).2 later →
      ∃ taken, Attributed settings (connected.issuing 1 requests) taken later) ∧
    (∀ later, Going (started.performAll 1 requests).2 later →
      ∃ taken, Attributed settings (started.issuing 1 requests) taken later) ∧
    ∀ (client : Client) (clock : Clock) (ticket : Nat) (call : Call),
      (client.begin clock now ticket .close).client.channel = none ∧
      (client.channel = none → (call.asking? client.settings).isSome ∨ call = .close →
        ∃ log, client.begin clock now ticket call = ⟨{ client with log := log }, [],
          [⟨ticket, if call = .close then .ok .done else .error .notConnected⟩]⟩) := by
  intro started connected
  refine ⟨?_, ?_, ?_⟩
  · intro later going
    obtain ⟨_, register⟩ := register_connect unbroken script now
    obtain ⟨_, register⟩ := register.going unbroken (Going.here.finish 0).drain
    obtain ⟨_, register⟩ := register.performAll unbroken requests
    obtain ⟨taken, register⟩ := register.going unbroken going
    exact ⟨taken, register.attributed⟩
  · intro later going
    obtain ⟨_, register⟩ := (register_start settings script now).performAll unbroken requests
    obtain ⟨taken, register⟩ := register.going unbroken going
    exact ⟨taken, register.attributed⟩
  · intro client clock ticket call
    exact ⟨rfl, fun free kind => Client.begin_in_vain free clock now ticket kind⟩

end Reader

def tardyServer : Script where
  greeting := [.send (Bytes.ofNarrow "* OK hi\r\n")]
  replies := [
    [.pause (.finite 40000), .send (Bytes.ofNarrow "1 OK successful\r\n")],
    [.send (Bytes.ofNarrow "2 OK successful\r\n")]]
  refusal := none
  writeFault := none

/-- The late reply to the first selection is passed over, and the second one ends by its own. -/
theorem late_reply_is_passed_over :
    let requests : List Request := [⟨.select (some "a"), true⟩, ⟨.select (some "b"), true⟩]
    let started := start Client.openSettings tardyServer ⟨0⟩
    let connected := ((started.connect tardyServer).finish 0).drain
    let last := (connected.performAll 1 requests).2
    (∀ asking : Asking, Utf8.Unbroken (asking.marker Client.openSettings)) ∧
      (∃ taken, Attributed Client.openSettings (connected.issuing 1 requests) taken last) ∧
      last.completed.map (fun completion => (completion.ticket, completion.result.isOk)) =
        [(0, true), (1, false), (2, true)] ∧ last.client.mailbox = some "b" ∧
      received last.passed =
        Bytes.ofNarrow "* OK hi\r\n1 OK successful\r\n2 OK successful\r\n" := by
  intro requests started connected last
  have unbroken : ∀ asking : Asking, Utf8.Unbroken (asking.marker Client.openSettings) := by
    intro asking
    cases asking with
    | login => exact (by decide : Utf8.Unbroken (Client.create Client.openSettings).loginMarker)
    | select => exact (by decide : Utf8.Unbroken (Client.create Client.openSettings).selectMarker)
    | fetch => exact (by decide : Utf8.Unbroken (Client.create Client.openSettings).fetchMarker)
  refine ⟨unbroken, ?_, ?_⟩
  · exact (commands_end_by_their_own_replies unbroken tardyServer ⟨0⟩ requests).1 last .here
  · decide +kernel

/-- Not every call fails on a client that has never connected: to close succeeds. -/
theorem closing_succeeds_unconnected :
    (start Client.openSettings tardyServer ⟨0⟩).client.channel = none ∧
      (unconnected Client.openSettings tardyServer ⟨0⟩ [⟨.close, true⟩]).calls.map
        (fun report => report.result.map (·.isOk)) = [some true] := by
  decide +kernel

end Exchange

end ImapDialogue
