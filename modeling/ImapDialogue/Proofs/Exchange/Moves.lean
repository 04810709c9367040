import ImapDialogue.Proofs.Session.History

/-!
The moves of an exchange, apart: data that goes out, data that comes in, and what the client makes
of it. An event on the channel lets nothing out, and a call may let a line out.
-/

namespace ImapDialogue

open History

theorem Client.written_react [Mail.Reader] (client : Client) (now : Instant)
    {change : Channel → Channel × Effects} (silent : ∀ channel, (change channel).2.written = []) :
    (client.react now change).written = [] := by
  unfold react
  split
  · rfl
  · exact silent _

theorem Server.received_receive (server : Server) (data : List Bytes) :
    (server.receive data).received = server.received ++ data.flatMap Bytes.lines := by
  have each : ∀ (lines : List Bytes) (server : Server),
      (lines.foldl Server.receiveLine server).received = server.received ++ lines := by
    intro lines
    induction lines with
    | nil => simp
    | cons line lines induction =>
        intro server
        rw [List.foldl_cons, induction, Server.receiveLine, List.append_assoc]
        rfl
  exact each _ server

namespace Exchange

def sending (exchange : Exchange) (data : List Bytes) : Exchange :=
  { exchange with
    server := exchange.server.receive data
    passed := exchange.passed ++ data.map .written }

theorem absorb_eq (exchange : Exchange) (step : Client.Step) : exchange.absorb step =
    (exchange.sending step.written).absorbReading (step.client, step.completed) := by
  simp [absorb, sending, absorbReading]

theorem absorb_silent (exchange : Exchange) {step : Client.Step} (silent : step.written = []) :
    exchange.absorb step = exchange.absorbReading (step.client, step.completed) := by
  rw [absorb_eq, silent, sending, List.map_nil, List.append_nil]
  rfl

theorem written_arrivals (exchange : Exchange) (change : Channel → Channel × Effects) :
    written (exchange.arrivals change) = [] := by
  unfold arrivals
  split
  · rfl
  · rw [written, List.flatMap_map]
    exact List.flatMap_eq_nil_iff.mpr fun _ _ => rfl

theorem ended_arrivals (exchange : Exchange) (change : Channel → Channel × Effects) :
    ended (exchange.arrivals change) = [] := by
  unfold arrivals
  split
  · rfl
  · rw [ended, List.flatMap_map]
    exact List.flatMap_eq_nil_iff.mpr fun _ _ => rfl

theorem failed_arrivals (exchange : Exchange) (change : Channel → Channel × Effects) :
    failed (exchange.arrivals change) = false := by
  unfold arrivals
  split
  · rfl
  · rw [failed, List.any_map]
    exact List.any_eq_false.mpr fun _ _ => Bool.false_ne_true

def noting (exchange : Exchange) (change : Channel → Channel × Effects) : Exchange :=
  { exchange with passed := exchange.passed ++ exchange.arrivals change }

theorem react_eq [Mail.Reader] (exchange : Exchange) {change : Channel → Channel × Effects}
    (silent : ∀ channel, (change channel).2.written = []) :
    exchange.react change = (exchange.noting change).absorbReading
      ((exchange.client.react exchange.now change).client,
        (exchange.client.react exchange.now change).completed) := by
  rw [react, absorb, Client.written_react _ _ silent]
  rfl

end Exchange

end ImapDialogue
