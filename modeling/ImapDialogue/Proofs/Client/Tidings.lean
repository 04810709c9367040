import ImapDialogue.Proofs.Channel.Ending
import ImapDialogue.Proofs.Channel.Guarding
import ImapDialogue.Proofs.Client.Books

/-!
What an event on its channel tells a client. Either nothing has come of the open wait yet, or it is
over: with the first match in all that is there now, or with a failure that is no answer of the
server's.
-/

namespace ImapDialogue

def Failure.isAnswer : Failure → Bool
  | .commandFailed _ _ _ => true
  | _ => false

inductive Comes (patterns : List Pattern) (data : Bytes) : Except Failure Match → Bytes → Prop
  | found {found : Match} {rest : Bytes}
      (leads : Search.first (Literal.inside (Literal.regions data)) patterns data =
        some (found, rest)) : Comes patterns data (.ok found) rest
  | failed {failure : Failure} (silent : failure.isAnswer = false) :
      Comes patterns data (.error failure) data

theorem Comes.keeps {patterns : List Pattern} {data rest : Bytes} {how : Except Failure Match}
    (comes : Comes patterns data how rest) (ticket : Nat) :
    (Settlement.mk ticket how).consumed ++ rest = data := by
  cases comes with
  | failed silent => rfl
  | @found found _ leads =>
      obtain ⟨⟨index, hit⟩, _, same⟩ := Option.map_eq_some_iff.mp leads
      cases same
      simp only [Settlement.consumed]
      rw [List.append_assoc, ← List.drop_drop, List.take_append_drop, List.take_append_drop]

def Silent (how : Except Failure Match) : Prop :=
  ∃ failure, how = .error failure ∧ failure.isAnswer = false

def Intake.Allows (intake : Intake) (arrived : Bytes) (patterns : List Pattern)
    (how : Except Failure Match) : Prop :=
  (∃ found, how = .ok found ∧ intake.found? arrived patterns = some found) ∨ Silent how

theorem Intake.silent_cutOff (intake : Intake) {reason : Option Failure}
    (blameless : ∀ failure, reason = some failure → failure.isAnswer = false) (wait : Wait) :
    Silent (intake.cutOff reason wait) := by
  refine ⟨_, rfl, ?_⟩
  cases reason with
  | none => rfl
  | some failure => exact blameless failure rfl

theorem silent_connection (message : String) {failure : Failure}
    (same : some (Failure.connection message) = some failure) : failure.isAnswer = false := by
  cases same
  rfl

theorem Intake.comes {intake : Intake} {arrived rest : Bytes} {patterns : List Pattern}
    {how : Except Failure Match} (guarded : intake.guarded = true) {ticket : Nat}
    (allows : intake.Allows arrived patterns how)
    (keeps : (Settlement.mk ticket how).consumed ++ rest = intake.unread ++ arrived) :
    Comes patterns (intake.unread ++ arrived) how rest := by
  rcases allows with ⟨found, rfl, first⟩ | ⟨failure, rfl, silent⟩
  · obtain ⟨⟨found', rest'⟩, leads, rfl⟩ := Option.map_eq_some_iff.mp first
    have takes : { intake with unread := intake.unread ++ arrived }.take? patterns =
        some (found', { intake with unread := rest' }) := Option.map_eq_some_iff.mpr ⟨_, leads, rfl⟩
    have parts := parts_of_take? takes
    have same : rest' = rest := List.append_cancel_left (parts.trans keeps.symm)
    rw [barred, if_pos guarded] at leads
    rw [← same]
    exact .found leads
  · have same : rest = intake.unread ++ arrived := keeps
    rw [same]
    exact .failed silent

namespace Channel

/-- A channel that a client can have: sound, guarded, and without an answer for its error. -/
structure Fit (channel : Channel) : Prop where
  sound : channel.Sound
  guarded : channel.intake.guarded = true
  blameless : ∀ failure, channel.intake.failure = some failure → failure.isAnswer = false

def behind (channel : Channel) (effects : Effects) : Bytes :=
  channel.intake.unread ++ Traffic.incoming effects.traffic

structure Brings (channel : Channel) (result : Channel × Effects) : Prop where
  fit : result.1.Fit
  course :
    (result.2.settled = [] ∧ result.1.intake.wait = channel.intake.wait ∧
        result.1.intake.unread = channel.behind result.2) ∨
      ∃ wait how, channel.intake.wait = some wait ∧ result.2.settled = [⟨wait.ticket, how⟩] ∧
        result.1.intake.wait = none ∧
        Comes wait.patterns (channel.behind result.2) how result.1.intake.unread

variable {channel : Channel}

theorem fit_fresh (fault : Option String) : { fresh true with writeFault := fault }.Fit where
  sound := ⟨(sound_fresh true).toSound, rfl, rfl⟩
  guarded := rfl
  blameless := by rintro failure ⟨⟩

theorem Brings.of_ends {ending : Ending} {fault : Option Failure} {result : Channel × Effects}
    (fit : channel.Fit) (ends : channel.Ends ending fault result)
    (keeps : channel.Keeps (Traffic.incoming result.2.traffic) result)
    (guarded : result.1.intake.guarded = true)
    (blameless : ∀ failure, fault = some failure → failure.isAnswer = false)
    (allows : ∀ wait how, channel.intake.wait = some wait → ending wait = some how →
      channel.intake.Allows (Traffic.incoming result.2.traffic) wait.patterns how) :
    channel.Brings result where
  fit := by
    refine ⟨ends.sound, guarded, ?_⟩
    intro failure known
    rw [ends.failure, Option.or_eq_some_iff] at known
    rcases known with old | ⟨_, new⟩
    · exact fit.blameless failure old
    · exact blameless failure new
  course := by
    have settled := ends.settled
    have later := ends.wait
    unfold Keeps Intake.Keeps at keeps
    cases waits : channel.intake.wait with
    | none =>
        rw [waits] at settled later
        refine .inl ⟨settled, later, ?_⟩
        rw [show result.2.settled = [] from settled] at keeps
        exact keeps
    | some wait =>
        rw [waits, Option.bind_some] at settled
        rw [waits, Option.filter_some] at later
        cases how_ends : ending wait with
        | none =>
            rw [how_ends] at settled later
            refine .inl ⟨settled, later, ?_⟩
            rw [show result.2.settled = [] from settled] at keeps
            exact keeps
        | some how =>
            rw [how_ends] at settled later
            refine .inr ⟨wait, how, rfl, settled, later, ?_⟩
            rw [show result.2.settled = [⟨wait.ticket, how⟩] from settled, List.flatMap_singleton]
              at keeps
            exact Intake.comes fit.guarded (allows wait how waits how_ends) keeps

theorem Brings.of_failing {ending : Ending} {fault : Option Failure} {result : Channel × Effects}
    (fit : channel.Fit) (ends : channel.Ends ending fault result) (keeps : channel.Keeps [] result)
    (nothing : Traffic.incoming result.2.traffic = []) (guarded : result.1.intake.guarded = true)
    (blameless : ∀ failure, fault = some failure → failure.isAnswer = false)
    (fails : ∀ wait how, ending wait = some how → Silent how) : channel.Brings result :=
  .of_ends fit ends (nothing.symm ▸ keeps) guarded blameless fun wait how _ how_ends =>
    .inr (fails wait how how_ends)

theorem incoming_of_quiet {result : Channel × Effects} (quiet : Quiet result) :
    Traffic.incoming result.2.traffic = [] := by
  rw [quiet.traffic]
  rfl

theorem brings_receive (fit : channel.Fit) (chunk : Bytes) :
    channel.Brings (channel.receive chunk) := by
  have ends := ends_receive fit.sound chunk
  have guarded := (guards_receive fit.guarded chunk).guarded
  by_cases closed : (channel.inputClosed || channel.destroyed) = true
  · rw [receive_closed chunk closed] at ends guarded ⊢
    refine .of_ends fit ends channel.keeps_nothing guarded (by rintro failure ⟨⟩) ?_
    intro wait how waits
    exact absurd waits (fit.sound.no_wait (by rw [closed, Bool.true_or]) wait)
  · have keeps := channel.keeps_receive chunk (Bool.eq_false_iff.mpr closed)
    have arrived : Traffic.incoming (channel.receive chunk).2.traffic = chunk := by
      unfold receive
      split
      · next ignored =>
          rw [Bool.or_eq_true, or_iff_right closed, List.isEmpty_iff] at ignored
          exact ignored.symm
      · exact List.append_nil chunk
    have keeps : channel.Keeps (Traffic.incoming (channel.receive chunk).2.traffic)
        (channel.receive chunk) := by
      rw [arrived]
      exact channel.keeps_receive chunk (Bool.eq_false_iff.mpr closed)
    refine .of_ends fit ends keeps guarded (by rintro failure ⟨⟩) ?_
    intro wait how _ found
    obtain ⟨first, leads, rfl⟩ := Option.map_eq_some_iff.mp found
    exact .inl ⟨first, rfl, arrived.symm ▸ leads⟩

theorem brings_destroy (fit : channel.Fit) : channel.Brings channel.destroy := by
  refine .of_failing fit (ends_destroy fit.sound) channel.keeps_destroy
    (incoming_of_quiet (quiet_destroy channel)) (guards_destroy fit.guarded).guarded
    (by rintro failure ⟨⟩) ?_
  rintro wait how ⟨⟩
  exact channel.intake.silent_cutOff (by rintro failure ⟨⟩) wait

theorem brings_hangUp (fit : channel.Fit) : channel.Brings (Exchange.hangUp channel) := by
  have closes := guards_closeInput fit.guarded
  refine .of_failing fit (ends_closeInput fit.sound).destroy
    (channel.keeps_closeInput.append (keeps_destroy _))
    (incoming_of_quiet ((quiet_closeInput channel).append (quiet_destroy _)))
    (guards_destroy closes.guarded).guarded (by rintro failure ⟨⟩) ?_
  rintro wait how ⟨⟩
  exact channel.intake.silent_cutOff (by rintro failure ⟨⟩) wait

theorem brings_report (fit : channel.Fit) (message : String) :
    channel.Brings (channel.report message) := by
  refine .of_failing fit (ends_report fit.sound message) (channel.keeps_report message)
    (incoming_of_quiet (quiet_report channel message)) (guards_report fit.guarded message).guarded
    (fun _ => silent_connection message) ?_
  rintro wait how ⟨⟩
  exact channel.intake.silent_cutOff (fun _ => silent_connection message) wait

theorem brings_fail (fit : channel.Fit) (message : String) :
    channel.Brings (channel.fail message) := by
  refine .of_failing fit (ends_fail fit.sound message) (channel.keeps_fail message)
    (incoming_of_quiet (quiet_fail channel message)) (guards_fail fit.guarded message).guarded ?_ ?_
  · intro failure known
    split at known
    · cases known
    · exact silent_connection message known
  · rintro wait how ⟨⟩
    exact channel.intake.silent_cutOff (fun _ => silent_connection message) wait

theorem brings_failWrites (fit : channel.Fit) (message : String) :
    channel.Brings ({ channel with writeFault := some message }, .none) :=
  .of_failing fit (ends_failWrites fit.sound message) channel.keeps_nothing rfl fit.guarded
    (by rintro failure ⟨⟩) (by rintro wait how ⟨⟩)

theorem brings_expire (fit : channel.Fit) : channel.Brings channel.expire := by
  refine .of_failing fit (ends_expire fit.sound) channel.intake.keeps_expire
    (incoming_of_quiet (quiet_expire channel)) (Intake.guards_expire fit.guarded).guarded
    (by rintro failure ⟨⟩) ?_
  rintro wait how ⟨⟩
  exact ⟨_, rfl, rfl⟩

/-- A line that cannot be sent ends the open wait too. -/
theorem brings_send (fit : channel.Fit) (line shown : String) :
    let sent := channel.send line (some shown)
    channel.Brings (sent.channel, sent.effects) := by
  intro sent
  have shows : Traffic.incoming sent.effects.traffic = [] := by
    rw [(channel.send_spec line shown).1]
    rfl
  refine .of_failing fit (ends_send fit.sound line (some shown))
    (channel.keeps_send line (some shown)) shows (guards_send fit.guarded line (some shown)).guarded
    ?_ ?_
  · intro failure known
    split at known
    · cases known
    · obtain ⟨message, _, same⟩ := Option.map_eq_some_iff.mp known
      exact silent_connection message (congrArg some same)
  · intro wait how ends
    obtain ⟨message, _, rfl⟩ := Option.map_eq_some_iff.mp ends
    exact channel.intake.silent_cutOff (fun _ => silent_connection message) wait

/-- A line goes out and nothing else happens, or it fails, and not by an answer. -/
theorem sent_cases (fit : channel.Fit) (line shown : String) :
    let sent := channel.send line (some shown)
    (sent.result = .ok () ∧ sent.channel = channel ∧ sent.effects.settled = []) ∨
      ∃ failure, sent.result = .error failure ∧ failure.isAnswer = false := by
  unfold send
  dsimp only
  split
  · refine .inr ⟨_, rfl, ?_⟩
    cases known : channel.intake.failure with
    | none => rfl
    | some failure => exact fit.blameless failure known
  · split
    · exact .inr ⟨_, rfl, rfl⟩
    · exact .inl ⟨rfl, rfl, rfl⟩

/-- A wait that begins is open behind that, or it has come to something already. -/
theorem await_brings (fit : channel.Fit) (wait : Wait) :
    let result := channel.await wait
    result.1.Fit ∧
      ((channel.intake.wait = none ∧ result.2.settled = [] ∧ result.1.intake.wait = some wait ∧
          result.1.intake.unread = channel.intake.unread) ∨
        ∃ how, result.2.settled = [⟨wait.ticket, how⟩] ∧
          result.1.intake.wait = channel.intake.wait ∧
          Comes wait.patterns channel.intake.unread how result.1.intake.unread) := by
  intro result
  have begins := begins_await fit.sound wait
  have guarded := (Intake.guards_await fit.guarded wait).guarded
  have keeps := channel.intake.keeps_await wait
  have settled := begins.begins.settled
  have later := begins.begins.wait
  unfold Intake.Keeps at keeps
  refine ⟨⟨begins.sound, guarded, fun failure known =>
    fit.blameless failure (begins.failure.symm.trans known)⟩, ?_⟩
  cases answers : channel.intake.answer? wait.patterns with
  | none =>
      have idle := Intake.idle_of_answer answers
      rw [answers] at settled later
      rw [show (channel.intake.await wait).2 = [] from settled, List.append_nil] at keeps
      rw [idle] at later
      exact .inl ⟨idle, settled, later, keeps⟩
  | some how =>
      rw [answers] at settled later
      rw [show (channel.intake.await wait).2 = [⟨wait.ticket, how⟩] from settled,
        List.flatMap_singleton] at keeps
      refine .inr ⟨how, settled, later.trans Option.or_none, ?_⟩
      have allows : channel.intake.Allows [] wait.patterns how := by
        unfold Intake.answer? at answers
        split at answers
        · exact .inr ⟨_, (Option.some.inj answers).symm, rfl⟩
        · split at answers
          · next first found => exact .inl ⟨first, (Option.some.inj answers).symm, found⟩
          · split at answers
            · refine .inr ⟨_, (Option.some.inj answers).symm, ?_⟩
              cases known : channel.intake.failure with
              | none => rfl
              | some failure => exact fit.blameless failure known
            · cases answers
      have comes := Intake.comes fit.guarded allows keeps
      rw [List.append_nil] at comes
      exact comes

end Channel

end ImapDialogue
