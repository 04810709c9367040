import ImapDialogue.Proofs.Client.Refusal
import ImapDialogue.Proofs.Exchange.Attribution
import ImapDialogue.Proofs.Literal.Between

/-!
What the failures of commands tell, over a whole dialogue. A command that fails by an answer tells a
line that the server sent outside of literals, with the tag of the command or that of a farewell. It
tells the word of this line for its status unless the line goes on right behind the word.
-/

namespace ImapDialogue

/-- How a failure tells a line in what the server sent. The line stands behind what earlier waits
have taken, and behind what was passed over before it: it is made of a tag, a word and a tail. -/
structure Tells (stream : Bytes) (number : Nat) (tag word status response : String)
    (earlier before tail : Bytes) : Prop where
  denial : Denial number tag word
  sent : ∃ ending later, Line.Ending ending ∧
    stream = earlier ++ before ++ (Denial.lead tag word ++ tail) ++ ending ++ later
  plain : Line.Plain (Denial.lead tag word ++ tail)
  begins : Line.BeginsBehind (earlier ++ before)
  ended : tail.head?.any Byte.isWord = false
  /-- The line begins outside of the literals that follow what was taken before. -/
  outside : Literal.inside (Literal.regions (stream.drop earlier.length)) before.length = false
  /-- These are the literals of the whole stream, unless what was taken ends within one. -/
  apart : Literal.Between stream earlier.length →
    Literal.inside (Literal.regions stream) (earlier ++ before).length = false
  whole : response = Bytes.toNarrow (Bytes.trim (Denial.lead tag word ++ tail))
  spelled : ∃ more, response = tag ++ " " ++ status ++ more
  reaches : status = word ++ Bytes.toNarrow ((Bytes.trimEnd tail).takeWhile (· != Byte.space))
  /-- The status is the word if only white space follows that, or first of all a space. -/
  exact : status = word ↔ (Bytes.trimEnd tail).head?.all (· == Byte.space) = true

theorem tells_failedCommand {number : Nat} {marker : String} {data rest : Bytes} {found : Match}
    (comes : Comes (Command.answers (toString number) marker) data (.ok found) rest)
    (fails : found.index ≠ 0) {earlier : Bytes} (begins : Line.BeginsBehind earlier)
    (later : Bytes) {tag status response : String}
    (told : Client.failedCommand found = .commandFailed tag status response) :
    ∃ word tail, Tells (earlier ++ (found.before ++ found.text) ++ later) number tag word status
      response earlier found.before tail := by
  obtain ⟨begins', line, ending, plain, ends, text, refuses⟩ := comes.refusal fails
  obtain ⟨tag', word, tail, denial, rfl, ended⟩ := Command.denial_of_fails refuses
  rw [Client.failedCommand_of_denial denial ends text] at told
  cases told
  have outside : Literal.inside (Literal.regions
      ((earlier ++ (found.before ++ found.text) ++ later).drop earlier.length))
        found.before.length = false := by
    rw [List.append_assoc, List.drop_left]
    exact comes.outside later
  have parts : Bytes.toNarrow (Bytes.trimEnd tail) =
      Bytes.toNarrow ((Bytes.trimEnd tail).takeWhile (· != Byte.space)) ++
        Bytes.toNarrow ((Bytes.trimEnd tail).dropWhile (· != Byte.space)) := by
    rw [← Bytes.toNarrow_append, List.takeWhile_append_dropWhile]
  exact ⟨word, tail, {
    denial
    sent := ⟨ending, later, ends, by rw [text]; simp only [List.append_assoc]⟩
    plain
    begins := Line.beginsBehind_append begins begins'
    ended
    outside
    apart := by
      intro between
      rw [List.length_append, Literal.inside_regions_behind between]
      exact outside
    whole := by rw [denial.trim, denial.narrow]
    spelled := ⟨_, by rw [parts]; simp only [String.append_assoc]; rfl⟩
    reaches := rfl
    exact := status_is_word_iff word _ }⟩

namespace Exchange

open History

variable {settings : Settings} {next : Nat} {issued : List Issue} {taken : List Taking}
  {exchange : Exchange}

/-- Commands go out under their numbers, and each that fails by an answer tells a line which the
server has sent. -/
structure Reports (issued : List Issue) (exchange : Exchange) : Prop where
  wrote : written exchange.passed <+:
    (Asking.lines (issued.map (·.asking))).map Channel.lineBytes
  tells : ∀ (place : Nat) (issue : Issue), issued[place]? = some issue →
    ∀ completion ∈ exchange.completed, completion.ticket = issue.ticket →
      ∀ tag status response, completion.result = .error (.commandFailed tag status response) →
        ∃ word earlier before tail, Tells (received exchange.passed) (place + 1) tag word status
          response earlier before tail

theorem Docket.reports (docket : Docket settings next issued taken exchange) :
    Reports issued exchange where
  wrote := by
    obtain ⟨calls, seen, ledger⟩ := docket.ledger
    exact ledger.wrote
  tells := by
    intro place issue issues completion ended same tag status response fails
    have tally := docket.account.tally
    obtain ⟨rest, heard, _⟩ := docket.account.heard
    obtain ⟨found, took, refuses, told⟩ := tally.refused issues ended same fails rfl
    obtain ⟨data, left, comes⟩ := tally.leads_taken issues took
    obtain ⟨earlier, later, parts⟩ := List.append_of_mem took
    have begins : Line.BeginsBehind (consumed earlier) := by
      apply beginsBehind_consumed
      intro taking member
      exact tally.leads taking (parts ▸ List.mem_append_left _ member)
    obtain ⟨word, tail, tells⟩ := tells_failedCommand comes refuses begins
      (consumed later ++ rest) told.symm
    have here : consumed (⟨issue.ticket, found⟩ :: later) =
        found.before ++ found.text ++ consumed later := List.flatMap_cons
    have stream : received exchange.passed =
        consumed earlier ++ (found.before ++ found.text) ++ (consumed later ++ rest) := by
      rw [heard, parts, consumed_append, here]
      simp only [List.append_assoc]
    exact ⟨word, consumed earlier, found.before, tail, stream ▸ tells⟩

/-- Whatever the server sends and whatever markers are waited for, a command that fails by an answer
tells a line of the server's: one that begins with the command's own tag and a refusal, or with a
farewell, and begins outside of literals. What it tells for the status is the refusing word if
nothing but white space comes behind this, or first of all a space; otherwise it is the word with all
that follows it up to the next space. A client without a channel gives no command, and none fails by
an answer. -/
theorem failures_tell_their_word_unless_it_runs_on [Mail.Reader] (script : Script) (now : Instant)
    (requests : List Request) :
    let started := start settings script now
    let connected := ((started.connect script).finish 0).drain
    (∀ later, Going (connected.performAll 1 requests).2 later →
      Reports (connected.issuing 1 requests) later) ∧
    (∀ later, Going (started.performAll 1 requests).2 later →
      Reports (started.issuing 1 requests) later) ∧
    ∀ (client : Client) (clock : Clock) (ticket : Nat) (call : Call), client.channel = none →
      (call.asking? client.settings).isSome →
        (client.begin clock now ticket call).completed = [⟨ticket, .error .notConnected⟩] := by
  intro started connected
  refine ⟨?_, ?_, ?_⟩
  · intro later going
    have begun : ∃ taken, Docket settings 1 [] taken (started.connect script) :=
      docket_connect script now
    obtain ⟨_, docket⟩ := begun
    obtain ⟨_, docket⟩ := docket.going (Going.here.finish 0).drain
    obtain ⟨_, docket⟩ := docket.performAll requests
    obtain ⟨_, docket⟩ := docket.going going
    exact docket.reports
  · intro later going
    obtain ⟨_, docket⟩ := (docket_start settings script now).performAll requests
    obtain ⟨_, docket⟩ := docket.going going
    exact docket.reports
  · intro client clock ticket call free asks
    obtain ⟨_, begun⟩ := client.begin_in_vain free clock now ticket (.inl asks)
    rw [begun]
    cases call with
    | close => cases asks
    | _ => rfl

def answeringServer (line : String) : Script where
  greeting := [.send (Bytes.ofNarrow "* OK hi\r\n")]
  replies := [[.send (Bytes.ofNarrow line)]]
  refusal := none
  writeFault := none

def failures (exchange : Exchange) : List (Nat × Failure) :=
  exchange.completed.filterMap fun completion =>
    match completion.result with
    | .ok _ => none
    | .error failure => some (completion.ticket, failure)

/-- A refusal is told by its word. -/
theorem refused_login_tells_its_word :
    let server := answeringServer "1 NO denied\r\n"
    let requests : List Request := [⟨.login, true⟩]
    let connected := (((start Client.openSettings server ⟨0⟩).connect server).finish 0).drain
    let last := (connected.performAll 1 requests).2
    Reports (connected.issuing 1 requests) last ∧
      last.failures = [(1, .commandFailed "1" "NO" "1 NO denied")] := by
  intro server requests connected last
  refine ⟨?_, by decide +kernel⟩
  exact (failures_tell_their_word_unless_it_runs_on server ⟨0⟩ requests).1 last .here

/-- A code right behind the word of a refusal is told as part of the status. -/
theorem code_behind_word_is_told_as_status :
    let server := answeringServer "1 NO[ALERT] x\r\n"
    let connected := (((start Client.openSettings server ⟨0⟩).connect server).finish 0).drain
    let last := (connected.performAll 1 [⟨.login, true⟩]).2
    last.failures = [(1, .commandFailed "1" "NO[ALERT]" "1 NO[ALERT] x")] ∧
      "NO[ALERT]" ∉ ["NO", "BAD", "BYE"] := by
  decide +kernel

end Exchange

end ImapDialogue
