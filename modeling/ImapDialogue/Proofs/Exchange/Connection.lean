import ImapDialogue.Proofs.Exchange.Events

/-!
The connection of a client. Once it is made nothing makes it disappear, and when the client lets go
of it it is closed.
-/

namespace ImapDialogue

namespace Client

def Released (client : Client) : Prop :=
  ∀ channel, client.released = some channel → channel.destroyed = true

theorem released_of_none {client : Client} (none : client.released = none) : client.Released := by
  intro channel has
  rw [none] at has
  cases has

/-- A client later on. It has a connection if it had one. -/
structure Retains (client later : Client) : Prop where
  made : later.connection.isSome = client.connection.isSome
  released : client.Released → later.Released

variable {client later last : Client} {seen : List Traffic}

theorem Retains.refl (client : Client) : client.Retains client := ⟨rfl, id⟩

theorem Retains.trans (first : client.Retains later) (second : later.Retains last) :
    client.Retains last where
  made := second.made.trans first.made
  released := fun released => second.released (first.released released)

theorem Follows.retains (follows : client.Follows seen later) : client.Retains later where
  made := by
    rw [connection, connection, Option.isSome_or, Option.isSome_or, follows.connected,
      follows.released]
  released := by
    intro released channel has
    rw [follows.released] at has
    exact released channel has

theorem Released.closed (released : client.Released) (closed : client.Closed) (channel : Channel)
    (has : client.connection = some channel) : channel.destroyed = true := by
  rcases Option.or_eq_some_iff.mp has with held | ⟨_, before⟩
  · exact closed channel held
  · exact released channel before

theorem retains_release (closed : client.Closed) : client.Retains client.release where
  made := by rw [connection_release]
  released := fun released => released.closed closed

end Client

namespace Exchange

variable [Mail.Reader] {exchange later : Exchange}

theorem Going.retains (going : Going exchange later) : exchange.client.Retains later.client := by
  -- Events change the channel, and reading leaves it alone.
  apply going.keeps (motive := fun later => exchange.client.Retains later.client)
  · intro later change event before
    cases has : later.client.channel with
    | none =>
        have same : (later.react change).client = later.client := by
          rw [react, absorb, Client.react_unconnected has]
        rw [same]
        exact before
    | some channel =>
        exact before.trans (Client.follows_react has later.now (event.incident channel)).retains
  · intro later clock before
    exact before
  · intro later pause queue before
    exact before
  · intro later turns before
    exact before.trans (later.client.follows_read turns).retains
  · exact .refl exchange.client

theorem retains_begin (exchange : Exchange) (ticket : Nat) (call : Call) :
    exchange.client.Retains (exchange.begin ticket call).client := by
  rcases exchange.begin_cases ticket call with ⟨channel, asking, has, asks, _⟩ |
    ⟨_, client, completed, follows, begun⟩ | ⟨_, client, completed, follows, closed, begun⟩
  · obtain ⟨told, before, asked⟩ := Client.asks_begin has exchange.clock exchange.now ticket asks
    have counted : told.Retains (told.counting (asking.shownLine (told.lastTag + 1))) := ⟨rfl, id⟩
    exact (before.retains.trans counted).trans asked.follows.retains
  · rw [begun]
    exact follows.retains
  · rw [begun]
    exact follows.retains.trans (Client.retains_release closed)

theorem retains_call (exchange : Exchange) (ticket : Nat) (call : Call) :
    exchange.client.Retains (exchange.call ticket call).client :=
  (exchange.retains_begin ticket call).trans (Going.here.finish ticket).retains

theorem retains_converse (exchange : Exchange) (ticket : Nat) (calls : List Call) :
    exchange.client.Retains (exchange.converse ticket calls).1.client := by
  induction calls generalizing exchange ticket with
  | nil => exact .refl exchange.client
  | cons call others induction =>
      have called := exchange.retains_call ticket call
      have further := called.trans (induction (exchange.call ticket call) (ticket + 1))
      rw [converse]
      dsimp only
      split
      · exact called
      · exact further
      · exact further

theorem connection_connect (settings : Settings) (script : Script) (now : Instant) :
    let client := ((start settings script now).connect script).client
    client.connection.isSome = script.refusal.isNone ∧ client.Released := by
  intro client
  let told := (Client.create settings).tell (.connecting settings.host settings.port)
  cases refused : script.refusal with
  | some message =>
      have same : client = told.tell (.connectionFailed (.refused message)) := by
        dsimp only [client]
        rw [connect, refused]
        rfl
      rw [same]
      exact ⟨rfl, Client.released_of_none rfl⟩
  | none =>
      let channel : Channel := { Channel.fresh true with writeFault := script.writeFault }
      let opened : Client := { told with channel := some channel }
      have awaits := (opened.follows_await (start settings script now).clock now 0 Command.greetings
        .greeting).retains
      have same : client = (opened.await (start settings script now).clock now 0 Command.greetings
          .greeting).client := by
        dsimp only [client]
        rw [connect, refused]
        rfl
      rw [same]
      exact ⟨awaits.made, awaits.released (Client.released_of_none rfl)⟩

end Exchange

theorem Session.connection_talk [Mail.Reader] (settings : Settings) (script : Script)
    (now : Instant) :
    let client := (talk settings script now).1.client
    client.connection.isSome = script.refusal.isNone ∧ client.Released := by
  intro client
  obtain ⟨made, released⟩ := Exchange.connection_connect settings script now
  let opened := (Exchange.start settings script now).connect script
  have going : Exchange.Going opened (opened.finish 0) := Exchange.Going.here.finish 0
  have connected := going.retains
  have retains : opened.client.Retains client := by
    dsimp only [client, talk]
    split
    · exact connected
    · exact (connected.trans (Exchange.retains_converse _ 1 calls)).trans
        (Exchange.retains_call _ _ .close)
  exact ⟨retains.made.trans made, retains.released released⟩

end ImapDialogue
