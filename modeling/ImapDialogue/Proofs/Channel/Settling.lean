import ImapDialogue.Proofs.Channel.Ending
import Mathlib.Data.Rat.Floor

/-!
How waits come to their ends in a run. What one step does to the open wait is known beforehand, and
so, step by step, when and how each wait of a run ends.
-/

namespace ImapDialogue

theorem Clock.one_le_delay (length : Number) : 1 ≤ delay length := by
  unfold delay
  split
  · exact Nat.le_refl 1
  · next length =>
      split
      · next fits =>
          simp only [Bool.and_eq_true, decide_eq_true_eq] at fits
          have whole : 1 ≤ length.floor := Int.le_floor.mpr (by exact_mod_cast fits.1)
          omega
      · exact Nat.le_refl 1

namespace Channel.Run

/-- The run's channel is sound, and the wait that is open, if there is one, was asked for by an
earlier step and is not due yet. -/
structure Sound (run : Run) : Prop where
  channel : run.channel.Sound
  earlier : ∀ wait, run.channel.intake.wait = some wait → wait.ticket < run.taken
  ahead : ∀ wait, run.channel.intake.wait = some wait → run.clock.now < wait.timer.due

/-- How a step ends a wait that is open. -/
def ending? (run : Run) : Step → Ending
  | .push chunk => fun wait => (run.channel.intake.found? chunk wait.patterns).map .ok
  | .closeInput | .destroy => fun wait => some (run.channel.intake.cutOff none wait)
  | .fail message | .report message =>
      fun wait => some (run.channel.intake.cutOff (some (.connection message)) wait)
  | .send _ _ => fun wait => run.channel.writeFault.map fun message =>
      run.channel.intake.cutOff (some (.connection message)) wait
  | .advance length => fun wait =>
      if wait.timer.due ≤ run.clock.now + length then some (run.channel.intake.timeUp wait)
      else none
  | .expect _ _ | .failWrites _ => fun _ => none

def fault? (run : Run) : Step → Option Failure
  | .report message => some (.connection message)
  | .fail message => if run.channel.destroyed then none else some (.connection message)
  | .send _ _ => if run.channel.intake.ended then none else run.channel.writeFault.map .connection
  | _ => none

def asked (run : Run) (patterns : List Pattern) (timeout : Option Number) : Wait :=
  ⟨run.taken, patterns, timeout.getD run.timeout, run.clock.timer (timeout.getD run.timeout)⟩

def opened? (run : Run) : Step → Option Wait
  | .expect patterns timeout =>
      if (run.channel.intake.answer? patterns).isNone then some (run.asked patterns timeout)
      else none
  | _ => none

def reply? (run : Run) : Step → Option Outcome
  | .expect patterns _ =>
      (run.channel.intake.answer? patterns).map fun result => ⟨run.taken, result.map some⟩
  | .send line shown =>
      some ⟨run.taken, (run.channel.send line shown).result.map fun _ => none⟩
  | _ => none

def closing? (run : Run) (step : Step) : Option Outcome :=
  run.channel.intake.wait.bind fun wait =>
    (run.ending? step wait).map fun result => ⟨wait.ticket, result.map some⟩

structure Goes (run : Run) (step : Step) (result : Run × Report) : Prop where
  channel : result.1.channel.Sound
  settled : result.2.settled = (run.reply? step).toList ++ (run.closing? step).toList
  wait : result.1.channel.intake.wait =
    (run.channel.intake.wait.filter fun wait => (run.ending? step wait).isNone).or
      (run.opened? step)
  failure : result.1.channel.intake.failure = run.channel.intake.failure.or (run.fault? step)
  final : run.channel.intake.ended = true → result.1.channel.intake.ended = true

variable {run : Run}

theorem settled_onChannel {ending : Ending} {fault : Option Failure} {result : Channel × Effects}
    (ends : run.channel.Ends ending fault result) :
    (run.onChannel result).2.settled =
      (run.channel.intake.wait.bind fun wait =>
        (ending wait).map fun result => (⟨wait.ticket, result.map some⟩ : Outcome)).toList := by
  rw [onChannel, Report.ofEffects, ends.settled]
  cases run.channel.intake.wait with
  | none => rfl
  | some wait =>
      simp only [Option.bind_some]
      cases ending wait <;> rfl

theorem Goes.of_ends {step : Step} {result : Channel × Effects}
    (ends : run.channel.Ends (run.ending? step) (run.fault? step) result)
    (silent : run.reply? step = none) (closed : run.opened? step = none) :
    run.Goes step (run.onChannel result) where
  channel := ends.sound
  settled := by
    rw [silent, settled_onChannel ends]
    rfl
  wait := by
    rw [closed, Option.or_none]
    exact ends.wait
  failure := ends.failure
  final := ends.final

theorem Goes.of_nothing {step : Step} {result : Run × Report} (sound : run.Sound)
    (same : result.1.channel = run.channel) (settled : result.2.settled = [])
    (no_end : ∀ wait, run.channel.intake.wait = some wait → run.ending? step wait = none)
    (faultless : run.fault? step = none) (silent : run.reply? step = none)
    (closed : run.opened? step = none) : run.Goes step result where
  channel := by
    rw [same]
    exact sound.channel
  settled := by
    rw [settled, silent, closing?]
    cases waits : run.channel.intake.wait with
    | none => rfl
    | some wait =>
        rw [Option.bind_some, no_end wait waits]
        rfl
  wait := by
    rw [same, closed, Option.or_none]
    cases waits : run.channel.intake.wait with
    | none => rfl
    | some wait =>
        rw [Option.filter_some, no_end wait waits]
        rfl
  failure := by rw [same, faultless, Option.or_none]
  final := by rw [same]; exact id

theorem goes_advance (sound : run.Sound) (length : Nat) :
    run.Goes (.advance length) (run.advance length) := by
  unfold advance
  dsimp only
  split
  · next idle =>
      refine .of_nothing sound rfl rfl ?_ rfl rfl rfl
      intro wait waits
      rw [idle] at waits
      cases waits
  · next wait waits =>
      have only : ∀ other, run.channel.intake.wait = some other → other = wait := by
        intro other same
        exact Option.some.inj (same.symm.trans waits)
      split
      · next due =>
          have ends := ends_expire sound.channel
          have settled := settled_onChannel ends
          have ending : run.ending? (.advance length) wait =
              some (run.channel.intake.timeUp wait) := if_pos due
          refine ⟨ends.sound, ?_, ?_, ends.failure, ends.final⟩
          · rw [closing?, waits, Option.bind_some, ending]
            rw [waits] at settled
            exact settled
          · rw [waits, Option.filter_some, ending]
            have idle := ends.wait
            rw [waits] at idle
            exact idle
      · next early =>
          refine .of_nothing sound rfl rfl ?_ rfl rfl rfl
          intro other same
          rw [only other same]
          exact if_neg early

theorem goes_expect (sound : run.Sound) (patterns : List Pattern) (timeout : Option Number) :
    run.Goes (.expect patterns timeout) (run.perform (.expect patterns timeout)) := by
  have begins := begins_await sound.channel (run.asked patterns timeout)
  have settled : (run.perform (.expect patterns timeout)).2.settled =
      ((run.channel.await (run.asked patterns timeout)).2.settled).map .ofSettlement := rfl
  refine ⟨begins.sound, ?_, ?_, begins.failure.trans Option.or_none.symm, begins.ended.trans⟩
  · have still : run.closing? (.expect patterns timeout) = none := by
      rw [closing?]
      cases run.channel.intake.wait <;> rfl
    have own := begins.begins.settled
    dsimp only at own
    rw [settled, own, still, reply?]
    cases answer : run.channel.intake.answer? patterns with
    | none => simp [asked, answer]
    | some result => simp [asked, answer, Outcome.ofSettlement]
  · have kept : (run.channel.intake.wait.filter fun wait =>
        (run.ending? (.expect patterns timeout) wait).isNone) = run.channel.intake.wait := by
      cases run.channel.intake.wait <;> rfl
    rw [kept]
    exact begins.begins.wait

theorem goes_send (sound : run.Sound) (line : String) (shown : Option String) :
    run.Goes (.send line shown) (run.send line shown) := by
  have ends := ends_send sound.channel line shown
  refine ⟨ends.sound, ?_, ?_, ends.failure, ends.final⟩
  · exact congrArg (List.cons _) (settled_onChannel ends)
  · exact ends.wait.trans Option.or_none.symm

theorem step_goes (sound : run.Sound) (step : Step) : run.Goes step (run.step step) := by
  have performed : run.Goes step (run.perform step) := by
    cases step with
    | push chunk => exact .of_ends (ends_receive sound.channel chunk) rfl rfl
    | closeInput => exact .of_ends (ends_closeInput sound.channel) rfl rfl
    | fail message => exact .of_ends (ends_fail sound.channel message) rfl rfl
    | report message => exact .of_ends (ends_report sound.channel message) rfl rfl
    | destroy => exact .of_ends (ends_destroy sound.channel) rfl rfl
    | failWrites message => exact .of_ends (ends_failWrites sound.channel message) rfl rfl
    | expect patterns timeout => exact goes_expect sound patterns timeout
    | send line shown => exact goes_send sound line shown
    | advance length => exact goes_advance sound length
  exact ⟨performed.channel, performed.settled, performed.wait, performed.failure, performed.final⟩

/-! ## Runs -/

def passing : Step → Nat
  | .advance length => length
  | _ => 0

theorem now_step (run : Run) (step : Step) :
    (run.step step).1.clock.now = run.clock.now + passing step := by
  cases step with
  | advance length =>
      show (run.advance length).1.clock.now = run.clock.now + length
      unfold advance
      dsimp only
      split
      · rfl
      · split <;> rfl
  | _ => rfl

theorem taken_step (run : Run) (step : Step) : (run.step step).1.taken = run.taken + 1 := rfl

theorem wait_step (sound : run.Sound) {step : Step} {wait : Wait}
    (waits : (run.step step).1.channel.intake.wait = some wait) :
    (run.channel.intake.wait = some wait ∧ run.ending? step wait = none) ∨
      run.opened? step = some wait := by
  rw [(step_goes sound step).wait, Option.or_eq_some_iff] at waits
  rcases waits with kept | ⟨_, opened⟩
  · left
    obtain ⟨waits, open_⟩ := Option.filter_eq_some_iff.mp kept
    exact ⟨waits, Option.isNone_iff_eq_none.mp open_⟩
  · exact .inr opened

theorem opened_eq {step : Step} {wait : Wait} (opened : run.opened? step = some wait) :
    wait.ticket = run.taken ∧ run.clock.now < wait.timer.due ∧ passing step = 0 := by
  cases step with
  | expect patterns timeout =>
      simp only [opened?] at opened
      split at opened
      · cases opened
        have := Clock.one_le_delay (timeout.getD run.timeout)
        refine ⟨rfl, ?_, rfl⟩
        show run.clock.now < run.clock.now + Clock.delay (timeout.getD run.timeout)
        omega
      · cases opened
  | _ => cases opened

theorem sound_start (guarded : Bool) (timeout : Number) : (start guarded timeout).Sound where
  channel := sound_fresh guarded
  earlier := by rintro wait ⟨⟩
  ahead := by rintro wait ⟨⟩

theorem sound_step (sound : run.Sound) (step : Step) : (run.step step).1.Sound where
  channel := (step_goes sound step).channel
  earlier := by
    intro wait waits
    rw [taken_step]
    rcases wait_step sound waits with ⟨waits, _⟩ | opened
    · exact Nat.lt_succ_of_lt (sound.earlier wait waits)
    · rw [(opened_eq opened).1]
      exact Nat.lt_succ_self _
  ahead := by
    intro wait waits
    rw [now_step]
    rcases wait_step sound waits with ⟨waits, still⟩ | opened
    · have ahead := sound.ahead wait waits
      cases step with
      | advance length =>
          simp only [ending?, ite_eq_right_iff, reduceCtorEq, imp_false, Nat.not_le] at still
          exact still
      | _ => exact ahead
    · obtain ⟨_, ahead, instant⟩ := opened_eq opened
      rw [instant]
      exact ahead

theorem sound_after (sound : run.Sound) (steps : List Step) : (run.after steps).Sound := by
  induction steps generalizing run with
  | nil => exact sound
  | cons step others induction =>
      rw [after_cons]
      exact induction (sound_step sound step)

/-- The ends of the request under a ticket, each with how many steps had been taken then. -/
def endsOf (run : Run) (ticket : Nat) (steps : List Step) :
    List (Nat × Except Failure (Option Match)) :=
  (run.trace steps).flatMap fun entry =>
    (entry.2.settled.filter (·.ticket = ticket)).map fun outcome =>
      (entry.1.taken, outcome.result)

def life? (run : Run) (wait : Wait) : List Step → Option (Nat × Except Failure Match)
  | [] => none
  | step :: others =>
      match run.ending? step wait with
      | some result => some (run.taken + 1, result)
      | none => (run.step step).1.life? wait others

/-- When and how a wait ends that a run is asked for. -/
def fate? (run : Run) (patterns : List Pattern) (timeout : Option Number) (later : List Step) :
    Option (Nat × Except Failure Match) :=
  match run.channel.intake.answer? patterns with
  | some result => some (run.taken + 1, result)
  | none => (run.step (.expect patterns timeout)).1.life? (run.asked patterns timeout) later

theorem endsOf_cons (run : Run) (ticket : Nat) (step : Step) (others : List Step) :
    run.endsOf ticket (step :: others) =
      (((run.step step).2.settled.filter (·.ticket = ticket)).map fun outcome =>
        (run.taken + 1, outcome.result)) ++ (run.step step).1.endsOf ticket others := rfl

theorem reply_ticket {step : Step} {outcome : Outcome} (reply : run.reply? step = some outcome) :
    outcome.ticket = run.taken := by
  cases step with
  | expect patterns timeout =>
      obtain ⟨_, _, rfl⟩ := Option.map_eq_some_iff.mp reply
      rfl
  | send line shown =>
      cases reply
      rfl
  | _ => cases reply

theorem closing_ticket {step : Step} {outcome : Outcome} (closing : run.closing? step = some outcome) :
    ∃ wait, run.channel.intake.wait = some wait ∧ outcome.ticket = wait.ticket := by
  obtain ⟨wait, waits, ends⟩ := Option.bind_eq_some_iff.mp closing
  obtain ⟨_, _, rfl⟩ := Option.map_eq_some_iff.mp ends
  exact ⟨wait, waits, rfl⟩

structure Over (run : Run) (ticket : Nat) : Prop where
  past : ticket < run.taken
  closed : ∀ wait, run.channel.intake.wait = some wait → wait.ticket ≠ ticket

theorem over_step (sound : run.Sound) {ticket : Nat} (gone : run.Over ticket) (step : Step) :
    (run.step step).1.Over ticket where
  past := Nat.lt_succ_of_lt gone.past
  closed := by
    intro wait waits
    have past := gone.past
    rcases wait_step sound waits with ⟨waits, _⟩ | opened
    · exact gone.closed wait waits
    · rw [(opened_eq opened).1]
      omega

theorem over_after (sound : run.Sound) {ticket : Nat} (gone : run.Over ticket)
    (steps : List Step) : (run.after steps).Over ticket := by
  induction steps generalizing run with
  | nil => exact gone
  | cons step others induction =>
      rw [after_cons]
      exact induction (sound_step sound step) (over_step sound gone step)

theorem endsOf_reply {step : Step} {ticket : Nat} (past : ticket < run.taken) :
    (run.reply? step).toList.filter (·.ticket = ticket) = [] := by
  rw [List.filter_eq_nil_iff]
  intro outcome member
  have own := reply_ticket (Option.mem_toList.mp member)
  rw [decide_eq_true_eq]
  omega

theorem endsOf_over (sound : run.Sound) {ticket : Nat} (gone : run.Over ticket)
    (steps : List Step) : run.endsOf ticket steps = [] := by
  induction steps generalizing run with
  | nil => rfl
  | cons step others induction =>
      have nothing : (run.closing? step).toList.filter (·.ticket = ticket) = [] := by
        rw [List.filter_eq_nil_iff]
        intro outcome member
        obtain ⟨wait, waits, same⟩ := closing_ticket (Option.mem_toList.mp member)
        rw [decide_eq_true_eq, same]
        exact gone.closed wait waits
      rw [endsOf_cons, (step_goes sound step).settled, List.filter_append,
        endsOf_reply gone.past, nothing]
      exact induction (sound_step sound step) (over_step sound gone step)

theorem over_of_ending (sound : run.Sound) {step : Step} {wait : Wait}
    {result : Except Failure Match} (waits : run.channel.intake.wait = some wait)
    (ending : run.ending? step wait = some result) : (run.step step).1.Over wait.ticket where
  past := Nat.lt_succ_of_lt (sound.earlier wait waits)
  closed := by
    intro other waits'
    rcases wait_step sound waits' with ⟨same, still⟩ | opened
    · rw [Option.some.inj (same.symm.trans waits), ending] at still
      cases still
    · have := sound.earlier wait waits
      rw [(opened_eq opened).1]
      omega

theorem wait_of_no_ending (sound : run.Sound) {step : Step} {wait : Wait}
    (waits : run.channel.intake.wait = some wait) (still : run.ending? step wait = none) :
    (run.step step).1.channel.intake.wait = some wait := by
  rw [(step_goes sound step).wait, waits, Option.filter_some, still]
  rfl

theorem closing_eq {step : Step} {wait : Wait} (waits : run.channel.intake.wait = some wait) :
    run.closing? step =
      (run.ending? step wait).map fun result => ⟨wait.ticket, result.map some⟩ := by
  rw [closing?, waits]
  rfl

/-- An open wait ends once, when and how its life says, and stays open until then. -/
theorem endsOf_life (sound : run.Sound) {wait : Wait}
    (waits : run.channel.intake.wait = some wait) (steps : List Step) :
    run.endsOf wait.ticket steps =
        (run.life? wait steps).toList.map (fun ended => (ended.1, ended.2.map some)) ∧
      (run.life? wait steps = none ↔ (run.after steps).channel.intake.wait = some wait) := by
  induction steps generalizing run with
  | nil => exact ⟨rfl, iff_of_true rfl waits⟩
  | cons step others induction =>
      have past := sound.earlier wait waits
      rw [endsOf_cons, (step_goes sound step).settled, List.filter_append, endsOf_reply past,
        closing_eq waits, after_cons, life?]
      cases ending : run.ending? step wait with
      | none => exact induction (sound_step sound step) (wait_of_no_ending sound waits ending)
      | some result =>
          have gone := over_of_ending sound waits ending
          have sound' := sound_step sound step
          constructor
          · rw [endsOf_over sound' gone]
            simp
          · have closed := (over_after sound' gone others).closed wait
            constructor
            · rintro ⟨⟩
            · intro waits'
              exact absurd rfl (closed waits')

theorem trace_append (run : Run) (steps more : List Step) :
    run.trace (steps ++ more) = run.trace steps ++ (run.after steps).trace more := by
  induction steps generalizing run with
  | nil => rfl
  | cons step others induction =>
      rw [List.cons_append, trace_cons, trace_cons, after_cons, induction, List.cons_append]

theorem endsOf_append (run : Run) (ticket : Nat) (steps more : List Step) :
    run.endsOf ticket (steps ++ more) =
      run.endsOf ticket steps ++ (run.after steps).endsOf ticket more := by
  rw [endsOf, trace_append, List.flatMap_append]
  rfl

theorem taken_after (run : Run) (steps : List Step) :
    (run.after steps).taken = run.taken + steps.length := by
  induction steps generalizing run with
  | nil => rfl
  | cons step others induction =>
      rw [after_cons, induction, taken_step, List.length_cons]
      omega

theorem endsOf_future (sound : run.Sound) {ticket : Nat} {steps : List Step}
    (future : run.taken + steps.length ≤ ticket) : run.endsOf ticket steps = [] := by
  induction steps generalizing run with
  | nil => rfl
  | cons step others induction =>
      rw [List.length_cons] at future
      have nothing : (run.step step).2.settled.filter (·.ticket = ticket) = [] := by
        rw [(step_goes sound step).settled, List.filter_eq_nil_iff]
        intro outcome member
        rw [decide_eq_true_eq]
        rcases List.mem_append.mp member with own | closing
        · have := reply_ticket (Option.mem_toList.mp own)
          omega
        · obtain ⟨wait, waits, same⟩ := closing_ticket (Option.mem_toList.mp closing)
          have := sound.earlier wait waits
          omega
      rw [endsOf_cons, nothing]
      apply induction (sound_step sound step)
      rw [taken_step]
      omega

/-- A wait that a run is asked for ends once, when and how its fate says, and is open until then. -/
theorem endsOf_fate (sound : run.Sound) (patterns : List Pattern) (timeout : Option Number)
    (later : List Step) :
    let asking := Step.expect patterns timeout
    run.endsOf run.taken (asking :: later) =
        (run.fate? patterns timeout later).toList.map (fun ended => (ended.1, ended.2.map some)) ∧
      (run.fate? patterns timeout later = none ↔
        (run.after (asking :: later)).channel.intake.wait = some (run.asked patterns timeout)) := by
  intro asking
  have goes := step_goes sound asking
  have sound' := sound_step sound asking
  have past : (run.closing? asking).toList.filter (·.ticket = run.taken) = [] := by
    have still : run.closing? asking = none := by
      rw [closing?]
      cases run.channel.intake.wait <;> rfl
    rw [still]
    rfl
  rw [endsOf_cons, goes.settled, List.filter_append, past, List.append_nil, after_cons, fate?]
  cases answer : run.channel.intake.answer? patterns with
  | some result =>
      have gone : (run.step asking).1.Over run.taken := by
        refine ⟨Nat.lt_succ_self _, ?_⟩
        intro wait waits
        rcases wait_step sound waits with ⟨waits, _⟩ | opened
        · exact Nat.ne_of_lt (sound.earlier wait waits)
        · rw [opened?, answer] at opened
          cases opened
      have reply : run.reply? asking = some ⟨run.taken, result.map some⟩ := by
        rw [reply?, answer]
        rfl
      constructor
      · rw [endsOf_over sound' gone, reply]
        simp
      · have closed := (over_after sound' gone later).closed (run.asked patterns timeout)
        constructor
        · rintro ⟨⟩
        · intro waits
          exact absurd rfl (closed waits)
  | none =>
      have idle := Intake.idle_of_answer answer
      have waits : (run.step asking).1.channel.intake.wait = some (run.asked patterns timeout) := by
        rw [goes.wait, idle, opened?, answer]
        rfl
      have reply : run.reply? asking = none := by rw [reply?, answer]; rfl
      rw [reply]
      exact endsOf_life sound' waits later

/-- The waits that some steps ask for. -/
def expecting (run : Run) : List Step → List Wait
  | [] => []
  | .expect patterns timeout :: others =>
      run.asked patterns timeout :: (run.step (.expect patterns timeout)).1.expecting others
  | step :: others => (run.step step).1.expecting others

theorem mem_expecting {steps : List Step} {wait : Wait} (asked : wait ∈ run.expecting steps) :
    ∃ before patterns timeout later, steps = before ++ .expect patterns timeout :: later ∧
      wait = (run.after before).asked patterns timeout := by
  induction steps generalizing run with
  | nil => cases asked
  | cons step others induction =>
      have further : wait ∈ (run.step step).1.expecting others → ∃ before patterns timeout later,
          step :: others = before ++ .expect patterns timeout :: later ∧
            wait = (run.after before).asked patterns timeout := by
        intro member
        obtain ⟨before, patterns, timeout, later, rfl, same⟩ := induction member
        refine ⟨step :: before, patterns, timeout, later, rfl, ?_⟩
        rw [after_cons]
        exact same
      cases step with
      | expect patterns timeout =>
          rcases List.mem_cons.mp asked with rfl | member
          · exact ⟨[], patterns, timeout, others, rfl, rfl⟩
          · exact further member
      | _ => exact further asked

theorem expecting_cons (run : Run) (step : Step) (others : List Step) :
    ∀ wait ∈ (run.step step).1.expecting others, wait ∈ run.expecting (step :: others) := by
  intro wait member
  cases step with
  | expect patterns timeout => exact List.mem_cons_of_mem _ member
  | _ => exact member

theorem asked_of_waits (sound : run.Sound) {steps : List Step} {wait : Wait}
    (waits : (run.after steps).channel.intake.wait = some wait) :
    run.channel.intake.wait = some wait ∨ wait ∈ run.expecting steps := by
  induction steps generalizing run with
  | nil => exact .inl waits
  | cons step others induction =>
      rw [after_cons] at waits
      rcases induction (sound_step sound step) waits with behind | asked
      · rcases wait_step sound behind with ⟨still, _⟩ | opened
        · exact .inl still
        · right
          cases step with
          | expect patterns timeout =>
              simp only [opened?] at opened
              split at opened
              · cases opened
                exact List.mem_cons_self
              · cases opened
          | _ => cases opened
      · exact .inr (expecting_cons run step others wait asked)

theorem after_append (run : Run) (steps more : List Step) :
    run.after (steps ++ more) = (run.after steps).after more := by
  induction steps generalizing run with
  | nil => rfl
  | cons step others induction => rw [List.cons_append, after_cons, after_cons, induction]

theorem endsOf_asked (sound : run.Sound) (before later : List Step) (patterns : List Pattern)
    (timeout : Option Number) :
    let here := run.after before
    let steps := before ++ .expect patterns timeout :: later
    run.endsOf here.taken steps =
        (here.fate? patterns timeout later).toList.map (fun ended => (ended.1, ended.2.map some)) ∧
      (here.fate? patterns timeout later = none ↔
        (run.after steps).channel.intake.wait = some (here.asked patterns timeout)) := by
  intro here steps
  have fate := endsOf_fate (sound_after sound before) patterns timeout later
  have early : run.endsOf here.taken before = [] :=
    endsOf_future sound (Nat.le_of_eq (taken_after run before).symm)
  rw [endsOf_append, early, after_append]
  exact fate

theorem waits_iff (guarded : Bool) (timeout : Number) (steps : List Step) (wait : Wait) :
    let begun := start guarded timeout
    (begun.after steps).channel.intake.wait = some wait ↔
      wait ∈ begun.expecting steps ∧ begun.endsOf wait.ticket steps = [] := by
  intro begun
  have sound : begun.Sound := sound_start guarded timeout
  constructor
  · intro waits
    have asked : wait ∈ begun.expecting steps := by
      rcases asked_of_waits sound waits with ⟨⟨⟩⟩ | asked
      exact asked
    obtain ⟨before, patterns, limit, later, rfl, rfl⟩ := mem_expecting asked
    obtain ⟨ends, open_⟩ := endsOf_asked sound before later patterns limit
    rw [open_.mpr waits] at ends
    exact ⟨asked, ends⟩
  · rintro ⟨asked, endless⟩
    obtain ⟨before, patterns, limit, later, rfl, rfl⟩ := mem_expecting asked
    obtain ⟨ends, open_⟩ := endsOf_asked sound before later patterns limit
    have endless' := ends.symm.trans endless
    rw [List.map_eq_nil_iff, Option.toList_eq_nil_iff] at endless'
    exact open_.mp endless'

end Channel.Run

end ImapDialogue
