import ImapDialogue.Proofs.Exchange.Ledger
import ImapDialogue.Proofs.Exchange.Veil

/-!
Two clients that differ in nothing but their passwords, with servers that follow one script. The
same calls keep their exchanges alike in everything but the data that goes out.
-/

namespace ImapDialogue

def CallReport.veiled (report : CallReport) : CallReport :=
  { report with received := report.received.map fun _ => [] }

/-- What can be seen of a dialogue, apart from the password and the data sent. -/
def DialogueReport.veiled (report : DialogueReport) : DialogueReport :=
  { report with calls := report.calls.map CallReport.veiled, last := report.last.veiled }

/-- What can be seen of a session, apart from the password and the data sent. -/
def Session.veiled (session : Session) : Session :=
  { session with exchange := session.exchange.veiled }

namespace Exchange

variable {settings settings' : Settings} {calls : List Call}
  {exchange exchange' later later' : Exchange}

theorem veiled_report (before after : Exchange) (ticket : Nat) (waits : Bool) :
    (before.veiled.report after.veiled ticket waits).veiled =
      (before.report after ticket waits).veiled := by
  simp [report, CallReport.veiled, veiled, Server.veiled, Client.veiled, result?, List.map_drop]

variable [Mail.Reader]

theorem Reached.configured (reached : Reached settings calls exchange) :
    exchange.client.settings = settings := by
  obtain ⟨asked, seen, ledger⟩ := reached.ledger
  exact ledger.books.configured

/-- Two exchanges, each of a client with settings of its own, alike in everything but the passwords
and the data sent. -/
structure Twins (settings settings' : Settings) (exchange exchange' : Exchange) : Prop where
  reached : ∃ calls, Reached settings calls exchange
  reached' : ∃ calls, Reached settings' calls exchange'
  same : exchange.veiled = exchange'.veiled

namespace Twins

theorem result? (twins : Twins settings settings' exchange exchange') (ticket : Nat) :
    exchange.result? ticket = exchange'.result? ticket := by
  rw [← result?_veiled, twins.same, result?_veiled]

theorem report (twins : Twins settings settings' exchange exchange')
    (twins' : Twins settings settings' later later') (ticket : Nat) (waits : Bool) :
    (exchange.report later ticket waits).veiled = (exchange'.report later' ticket waits).veiled := by
  rw [← veiled_report, twins.same, twins'.same, veiled_report]

/-- Two exchanges stay alike when both go on in a way that does not depend on what is taken away. -/
theorem goOn (twins : Twins settings settings' exchange exchange') {move : Exchange → Exchange}
    (reaches : ∀ {settings : Settings} {calls : List Call} {exchange : Exchange},
      Reached settings calls exchange → Reached settings calls (move exchange))
    (veils : ∀ exchange : Exchange, move exchange.veiled = (move exchange).veiled) :
    Twins settings settings' (move exchange) (move exchange') where
  reached := twins.reached.imp fun _ => reaches
  reached' := twins.reached'.imp fun _ => reaches
  same := by rw [← veils, twins.same, veils]

theorem read (twins : Twins settings settings' exchange exchange') :
    Twins settings settings' exchange.read exchange'.read :=
  twins.goOn (fun reached => reached.going Going.here.read) veiled_read

theorem drain (twins : Twins settings settings' exchange exchange') :
    Twins settings settings' exchange.drain exchange'.drain :=
  twins.goOn Reached.drain fun exchange => exchange.veiled_drain

theorem finish (twins : Twins settings settings' exchange exchange') (ticket : Nat) :
    Twins settings settings' (exchange.finish ticket) (exchange'.finish ticket) :=
  twins.goOn (fun reached => reached.finish ticket) fun exchange => exchange.veiled_finish ticket

section Calls

variable (unbroken : Utf8.Unbroken settings.password) (unbroken' : Utf8.Unbroken settings'.password)

include unbroken unbroken'

theorem begun (twins : Twins settings settings' exchange exchange') (ticket : Nat) (call : Call) :
    Twins settings settings' (exchange.begin ticket call) (exchange'.begin ticket call) where
  reached := by
    obtain ⟨calls, reached⟩ := twins.reached
    exact ⟨_, reached.begun ticket call⟩
  reached' := by
    obtain ⟨calls, reached⟩ := twins.reached'
    exact ⟨_, reached.begun ticket call⟩
  same := by
    obtain ⟨calls, reached⟩ := twins.reached
    obtain ⟨calls', reached'⟩ := twins.reached'
    have plain : Utf8.Unbroken exchange.client.settings.password := by rwa [reached.configured]
    have plain' : Utf8.Unbroken exchange'.client.settings.password := by rwa [reached'.configured]
    rw [← veiled_begin _ plain, twins.same, veiled_begin _ plain']

theorem perform (twins : Twins settings settings' exchange exchange') (ticket : Nat)
    (request : Request) :
    Twins settings settings' (exchange.perform ticket request) (exchange'.perform ticket request) := by
  have begun := twins.begun unbroken unbroken' ticket request.call
  unfold Exchange.perform
  dsimp only
  split
  · exact (begun.finish ticket).drain
  · exact begun.read

theorem performAll (twins : Twins settings settings' exchange exchange') (ticket : Nat)
    (requests : List Request) :
    (exchange.performAll ticket requests).1.map CallReport.veiled =
        (exchange'.performAll ticket requests).1.map CallReport.veiled ∧
      Twins settings settings' (exchange.performAll ticket requests).2
        (exchange'.performAll ticket requests).2 := by
  induction requests generalizing exchange exchange' ticket with
  | nil => exact ⟨rfl, twins⟩
  | cons request others induction =>
      have performed := twins.perform unbroken unbroken' ticket request
      obtain ⟨reports, last⟩ := induction performed (ticket + 1)
      have first := twins.report performed ticket request.waits
      exact ⟨List.cons_eq_cons.mpr ⟨first, reports⟩, last⟩

theorem call (twins : Twins settings settings' exchange exchange') (ticket : Nat) (call : Call) :
    Twins settings settings' (exchange.call ticket call) (exchange'.call ticket call) :=
  (twins.begun unbroken unbroken' ticket call).finish ticket

theorem converse (twins : Twins settings settings' exchange exchange') (ticket : Nat)
    (others : List Call) :
    (exchange.converse ticket others).2 = (exchange'.converse ticket others).2 ∧
      Twins settings settings' (exchange.converse ticket others).1
        (exchange'.converse ticket others).1 := by
  induction others generalizing exchange exchange' ticket with
  | nil => exact ⟨rfl, twins⟩
  | cons call others induction =>
      have after := twins.call unbroken unbroken' ticket call
      obtain ⟨result, last⟩ := induction after (ticket + 1)
      rw [Exchange.converse, Exchange.converse]
      dsimp only
      rw [after.result?]
      split
      · exact ⟨rfl, after⟩
      · exact ⟨by rw [result], last⟩
      · exact ⟨result, last⟩

end Calls

end Twins

/-! ## Whole dialogues and sessions -/

section Whole

variable (same : settings.veiled = settings'.veiled) (unbroken : Utf8.Unbroken settings.password)
  (unbroken' : Utf8.Unbroken settings'.password)

include same

theorem twins_start (script : Script) (now : Instant) :
    Twins settings settings' (start settings script now) (start settings' script now) where
  reached := ⟨[], .start script now⟩
  reached' := ⟨[], .start script now⟩
  same := by
    change start settings.veiled script now = start settings'.veiled script now
    rw [same]

theorem twins_connect (script : Script) (now : Instant) :
    Twins settings settings' ((start settings script now).connect script)
      ((start settings' script now).connect script) where
  reached := ⟨[], .connected script now⟩
  reached' := ⟨[], .connected script now⟩
  same := by rw [← veiled_connect, (twins_start same script now).same, veiled_connect]

include unbroken unbroken'

theorem veiled_dialogue (script : Script) (now : Instant) (requests : List Request) :
    (dialogue settings script now requests).veiled =
      (dialogue settings' script now requests).veiled := by
  have connected := (twins_connect same script now).finish 0
  unfold dialogue
  dsimp only
  rw [connected.result?]
  split
  · simp only [DialogueReport.veiled, connected.same]
  · obtain ⟨reports, last⟩ := connected.drain.performAll unbroken unbroken' 1 requests
    have greeting := congrArg (·.client.greeting) connected.drain.same
    simp only [DialogueReport.veiled, reports, last.same]
    simp only [veiled, Client.veiled] at greeting
    rw [greeting]

theorem veiled_unconnected (script : Script) (now : Instant) (requests : List Request) :
    (unconnected settings script now requests).veiled =
      (unconnected settings' script now requests).veiled := by
  obtain ⟨reports, last⟩ := (twins_start same script now).performAll unbroken unbroken' 1 requests
  simp only [unconnected, DialogueReport.veiled, reports, last.same]

end Whole

end Exchange

namespace Session

open Exchange (Twins)

variable {settings settings' : Settings}

theorem report_veiled (exchange : Exchange) :
    report exchange.veiled.client = report exchange.client := rfl

variable [Mail.Reader]

/-- Two sessions alike in everything but their passwords end alike and close alike. -/
theorem twins_talk (same : settings.veiled = settings'.veiled)
    (unbroken : Utf8.Unbroken settings.password) (unbroken' : Utf8.Unbroken settings'.password)
    (script : Script) (now : Instant) :
    (talk settings script now).2 = (talk settings' script now).2 ∧
      Twins settings settings' (talk settings script now).1 (talk settings' script now).1 := by
  have connected := (Exchange.twins_connect same script now).finish 0
  unfold talk
  dsimp only
  rw [connected.result?]
  split
  · exact ⟨rfl, connected⟩
  · obtain ⟨result, last⟩ := connected.converse unbroken unbroken' 1 calls
    refine ⟨?_, last.call unbroken unbroken' _ _⟩
    rw [result, ← report_veiled, last.same, report_veiled]

/-- The lock file and all that is told about it have nothing to do with the password. -/
theorem veiled_run (same : settings.veiled = settings'.veiled)
    (unbroken : Utf8.Unbroken settings.password) (unbroken' : Utf8.Unbroken settings'.password)
    (surroundings : Surroundings) :
    (run settings surroundings).veiled = (run settings' surroundings).veiled := by
  obtain ⟨result, last⟩ := twins_talk same unbroken unbroken' surroundings.script surroundings.now
  have lockFile : settings.lockFile = settings'.lockFile := by
    change settings.veiled.lockFile = settings'.veiled.lockFile
    rw [same]
  have logging : settings.logging = settings'.logging := by
    change settings.veiled.logging = settings'.veiled.logging
    rw [same]
  have log := congrArg (fun exchange : Exchange => exchange.client.log) last.same
  simp only [Exchange.veiled, Client.veiled] at log
  unfold run
  dsimp only
  rw [Session.veiled, Session.veiled]
  dsimp only
  rw [result, last.same, log, lockFile, logging]

end Session

end ImapDialogue
