import ImapDialogue.Proofs.Exchange.Twins

/-!
The password is told to the server and to nobody else. A dialogue or a session with another password
looks the same in everything but the data that goes out: commands, transcript, echo, log, results,
mails, failures, and the times at which calls end.
-/

namespace ImapDialogue

open History

/-! ## Lines that are shown -/

def Masked (line : String) : Prop :=
  ∀ (number : Nat) (rest : String), line = toString number ++ " " ++ "login" ++ " " ++ rest →
    ∃ user, rest = user ++ " " ++ Client.mask

namespace Asking

theorem masked_shownLine (asking : Asking) (number : Nat) : Masked (asking.shownLine number) := by
  intro number' rest same
  have words : asking.verb ++ (" " ++ asking.shown) = "login" ++ (" " ++ rest) := by
    simp only [shownLine, String.append_assoc] at same
    exact (number_unique (by simpa only [String.append_assoc] using same)).2
  have letters := congrArg String.toList words
  simp only [String.toList_append] at letters
  cases asking with
  | login user password =>
      have rests := List.append_cancel_left (List.append_cancel_left letters)
      exact ⟨Argument.render user, (String.toList_inj.mp rests).symm⟩
  | select mailbox => simp [verb] at letters
  | fetch sequence item => simp [verb] at letters

end Asking

namespace Exchange

/-- What a client shows of the calls that are made on it: the commands that they ask for, from the
first on, each login among them with the mask at its end; what has passed, as data that came in and
commands as they are shown; and a time for each call that has ended. -/
structure Shows (settings : Settings) (calls : List Call) (exchange : Exchange) : Prop where
  commands : ∃ asked, asked <+: calls.filterMap (Call.asking? settings) ∧
    exchange.client.commands = Asking.shownLines asked
  masked : ∀ line ∈ exchange.client.commands, Masked line
  told : exchange.client.told =
    if settings.logging.enabled then exchange.client.commands else []
  seen : ∃ seen,
    Traffic.incoming seen = received exchange.passed ∧
      Traffic.outgoing seen = exchange.client.commands.map Channel.lineBytes ∧
      exchange.client.transcript = seen.flatMap (·.bytes) ∧
      exchange.client.echoed = Client.echoes settings seen ∧
      exchange.client.watched = Client.watches settings seen
  timed : exchange.Timed

variable {settings : Settings} {made calls : List Call} {exchange : Exchange}

theorem Reached.shows [Mail.Reader] (reached : Reached settings made exchange)
    (first : made.filterMap (Call.asking? settings) <+: calls.filterMap (Call.asking? settings)) :
    Shows settings calls exchange := by
  obtain ⟨asked, seen, ledger⟩ := reached.ledger
  have books := ledger.books
  have heard := ledger.heard
  have shown := books.shown
  rw [← books.commands] at shown
  exact {
    commands := ⟨asked, ledger.within.trans first, books.commands⟩
    masked := by
      intro line member
      rw [books.commands] at member
      obtain ⟨place, within, rfl⟩ := List.mem_mapIdx.mp member
      exact Asking.masked_shownLine _ _
    told := by rw [books.told, books.commands]
    seen := ⟨seen, heard, shown, books.transcript, books.echoed, books.watched⟩
    timed := reached.timed }

/-! ## Another password -/

/-- Whatever the settings, the calls and the server are, another password makes no difference that
can be seen, neither in a dialogue, with a connection or without, nor in a session; and every login
that is shown ends in the mask. -/
theorem password_is_never_seen [Mail.Reader] (settings : Settings) {secret secret' : String}
    (unbroken : Utf8.Unbroken secret) (unbroken' : Utf8.Unbroken secret') (script : Script)
    (now : Instant) (requests : List Request) (surroundings : Surroundings) :
    let first := { settings with password := secret }
    let second := { settings with password := secret' }
    let asked := requests.map (·.call)
    ((dialogue first script now requests).veiled = (dialogue second script now requests).veiled ∧
        Shows first asked (dialogue first script now requests).last) ∧
      ((unconnected first script now requests).veiled =
          (unconnected second script now requests).veiled ∧
        Shows first asked (unconnected first script now requests).last) ∧
      ((Session.run first surroundings).veiled = (Session.run second surroundings).veiled ∧
        Shows first Session.calls (Session.run first surroundings).exchange) := by
  intro first second asked
  have same : first.veiled = second.veiled := rfl
  obtain ⟨made, reached, within⟩ := dialogue_asks first script now requests
  obtain ⟨made', reached', within'⟩ := run_asks first surroundings
  have unreached := reached_unconnected first script now requests
  exact ⟨⟨veiled_dialogue same unbroken unbroken' script now requests, reached.shows within⟩,
    ⟨veiled_unconnected same unbroken unbroken' script now requests,
      unreached.shows List.prefix_rfl⟩,
    ⟨Session.veiled_run same unbroken unbroken' surroundings, reached'.shows within'⟩⟩

def openSettings : Settings :=
  ⟨"127.0.0.1", 10000, "reader", "", none, .skip, default, default, none, .standardOutput,
    ⟨true, true, true⟩⟩

def strictServer : Script where
  greeting := [.send (Bytes.ofNarrow "* OK ready\r\n")]
  replies := [[.send (Bytes.ofNarrow "1 NO not you\r\n")]]
  refusal := none
  writeFault := none

/-- A refused login shows the mask, whether the password is a word or has to be quoted. -/
theorem refused_login_shows_mask :
    Utf8.Unbroken "secret" ∧ Utf8.Unbroken "let \"me\" in" ∧
      let surroundings : Surroundings := ⟨⟨[]⟩, [], strictServer, ⟨0⟩⟩
      let first := Session.run { openSettings with password := "secret" } surroundings
      let second := Session.run { openSettings with password := "let \"me\" in" } surroundings
      first.veiled = second.veiled ∧ second.exchange.client.commands = ["1 login reader ****"] ∧
        second.exchange.server.received =
          [Bytes.ofNarrow "1 login reader \"let \\\"me\\\" in\""] := by
  have unbroken : Utf8.Unbroken "secret" := by decide
  have unbroken' : Utf8.Unbroken "let \"me\" in" := by decide
  refine ⟨unbroken, unbroken', ?_⟩
  intro surroundings first second
  obtain ⟨_, _, same, _⟩ := password_is_never_seen openSettings unbroken unbroken' strictServer ⟨0⟩ []
    surroundings
  exact ⟨same, by decide +kernel⟩

end Exchange

end ImapDialogue
