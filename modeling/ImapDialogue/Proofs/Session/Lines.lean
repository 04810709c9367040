import ImapDialogue.Proofs.Exchange.Ledger

/-!
The command lines that a server receives. Whatever a client is told by its settings and its callers,
it issues no other commands than logins, selections and fetches, numbers them from one on and sends
each behind the one in front of it. But nothing is done about line ends in the texts that it is told,
so a command arrives as one line only if its texts have none.
-/

namespace ImapDialogue

open History

namespace Exchange

/-- What a server gets from a client on which calls were made: the lines of so many of the commands
that the calls ask for, from the first on. They arrive as one line each exactly if no text in them
has a line end. -/
def Speaks (settings : Settings) (calls : List Call) (exchange : Exchange) : Prop :=
  ∃ sent, sent <+: calls.filterMap (Call.asking? settings) ∧
    written exchange.passed = (Asking.lines sent).map Channel.lineBytes ∧
    exchange.server.received = (written exchange.passed).flatMap Bytes.lines ∧
    (exchange.server.received = (Asking.lines sent).map Utf8.encode ↔
      ∀ asking ∈ sent, ∀ text ∈ asking.texts, Utf8.Uncut text)

variable {settings : Settings} {made calls : List Call} {exchange : Exchange}

theorem Reached.speaks [Mail.Reader] (reached : Reached settings made exchange)
    (first : made.filterMap (Call.asking? settings) <+: calls.filterMap (Call.asking? settings)) :
    Speaks settings calls exchange := by
  obtain ⟨asked, seen, ledger⟩ := reached.ledger
  let count := (written exchange.passed).length
  have sent : written exchange.passed = (Asking.lines (asked.take count)).map Channel.lineBytes := by
    rw [← Asking.lines_take, List.map_take]
    exact List.prefix_iff_eq_take.mp ledger.wrote
  refine ⟨asked.take count, ?_, sent, ledger.lines, ?_⟩
  · exact (List.take_prefix count asked).trans (ledger.within.trans first)
  · rw [ledger.lines, sent, Bytes.flatMap_lines_iff, Asking.uncut_lines]

/-- In every dialogue and every session, with any settings, calls and server, the server gets the
lines of the commands that were asked for, and each as one line unless a text has a line end. -/
theorem commands_arrive_as_lines_unless_cut [Mail.Reader] (settings : Settings) (script : Script)
    (now : Instant) (requests : List Request) (surroundings : Surroundings) :
    Speaks settings (requests.map (·.call)) (dialogue settings script now requests).last ∧
      Speaks settings (requests.map (·.call)) (unconnected settings script now requests).last ∧
      Speaks settings Session.calls (Session.run settings surroundings).exchange := by
  obtain ⟨made, reached, first⟩ := dialogue_asks settings script now requests
  obtain ⟨made', reached', first'⟩ := run_asks settings surroundings
  exact ⟨reached.speaks first,
    (reached_unconnected settings script now requests).speaks List.prefix_rfl,
    reached'.speaks first'⟩

def cutSettings : Settings :=
  ⟨"127.0.0.1", 10000, "reader", "secret", none, .skip, ⟨some "1", some "UID\r\n2 logout"⟩, default,
    none, .off, default⟩

def patientServer : Script where
  greeting := [.send (Bytes.ofNarrow "* OK ready\r\n")]
  replies := [[.send (Bytes.ofNarrow "1 OK completed\r\n")]]
  refusal := none
  writeFault := none

/-- One call sends two commands, and the second is none that a call asks for. -/
theorem fetch_sends_logout :
    (dialogue cutSettings patientServer ⟨0⟩ [⟨.fetch none none, true⟩]).last.server.received =
      [Bytes.ofNarrow "1 fetch 1 UID", Bytes.ofNarrow "2 logout"] := by
  decide +kernel

end Exchange

end ImapDialogue
