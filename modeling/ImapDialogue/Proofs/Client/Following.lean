import ImapDialogue.Proofs.Channel.Incidents
import ImapDialogue.Proofs.Client.Core

/-!
What a client shows and counts. It counts a command only when one is asked of it; in between it
shows what passes on its channel, byte by byte, and cannot send any more once it could not.
-/

namespace ImapDialogue

/-! ## Notices -/

def Notice.watched? : Notice → Option Traffic
  | .traffic seen => some seen
  | _ => none

def Notice.sent? : Notice → Option String
  | .sending shown => some shown
  | _ => none

structure Notice.Plain (notice : Notice) : Prop where
  watched : notice.watched? = none
  sent : notice.sent? = none

theorem Unread.plain_notice (message : Unread) : message.notice.Plain := by
  unfold notice
  split <;> exact ⟨rfl, rfl⟩

namespace Client

def watched (client : Client) : List Traffic := client.log.filterMap (·.notice.watched?)

def told (client : Client) : List String := client.log.filterMap (·.notice.sent?)

def Shut (client : Client) : Prop := ∀ channel, client.channel = some channel → channel.Shut

def echoes (settings : Settings) (seen : List Traffic) : Bytes :=
  if settings.echo = .off then [] else seen.flatMap (·.bytes)

def watches (settings : Settings) (seen : List Traffic) : List Traffic :=
  if settings.logging.enabled && settings.logging.traffic then seen else []

/-- A client later on, after some traffic and without a command in between. -/
structure Follows (client : Client) (seen : List Traffic) (later : Client) : Prop where
  settings : later.settings = client.settings
  counted : later.lastTag = client.lastTag
  commands : later.commands = client.commands
  connected : later.channel.isSome = client.channel.isSome
  released : later.released = client.released
  shut : client.Shut → later.Shut
  transcript : later.transcript = client.transcript ++ seen.flatMap (·.bytes)
  echoed : later.echoed = client.echoed ++ echoes client.settings seen
  watched : later.watched = client.watched ++ watches client.settings seen
  told : later.told = client.told

variable {client later last : Client} {seen seen' : List Traffic}

@[simp] theorem echoes_nil (settings : Settings) : echoes settings [] = [] := by
  unfold echoes
  split <;> rfl

@[simp] theorem watches_nil (settings : Settings) : watches settings [] = [] := by
  unfold watches
  split <;> rfl

theorem echoes_append (settings : Settings) (seen seen' : List Traffic) :
    echoes settings (seen ++ seen') = echoes settings seen ++ echoes settings seen' := by
  unfold echoes
  split
  · rfl
  · exact List.flatMap_append

theorem watches_append (settings : Settings) (seen seen' : List Traffic) :
    watches settings (seen ++ seen') = watches settings seen ++ watches settings seen' := by
  unfold watches
  split <;> rfl

theorem Follows.trans (follows : client.Follows seen later) (follows' : later.Follows seen' last) :
    client.Follows (seen ++ seen') last where
  settings := follows'.settings.trans follows.settings
  counted := follows'.counted.trans follows.counted
  commands := follows'.commands.trans follows.commands
  connected := follows'.connected.trans follows.connected
  released := follows'.released.trans follows.released
  shut := fun shut => follows'.shut (follows.shut shut)
  transcript := by
    rw [follows'.transcript, follows.transcript, List.append_assoc, List.flatMap_append]
  echoed := by
    rw [follows'.echoed, follows.echoed, follows.settings, List.append_assoc, echoes_append]
  watched := by
    rw [follows'.watched, follows.watched, follows.settings, List.append_assoc, watches_append]
  told := follows'.told.trans follows.told

theorem Follows.silent (follows : client.Follows seen later) (follows' : later.Follows [] last) :
    client.Follows seen last := by
  have both := follows.trans follows'
  rwa [List.append_nil] at both

/-- Setting other parts of a client neither shows nor counts anything. -/
theorem follows_aside (client : Client) (task : Option Task) (readings : List Reading)
    (greeting : String) (mailbox : Option String) (listeners : Listeners)
    (events : List MailEvent) : client.Follows [] { client with
      task := task
      readings := readings
      greeting := greeting
      mailbox := mailbox
      listeners := listeners
      events := events } where
  settings := rfl
  counted := rfl
  commands := rfl
  connected := rfl
  released := rfl
  shut := id
  transcript := by simp
  echoed := by simp
  watched := by
    rw [watches_nil, List.append_nil]
    rfl
  told := rfl

theorem Follows.refl (client : Client) : client.Follows [] client :=
  client.follows_aside client.task client.readings client.greeting client.mailbox client.listeners
    client.events

theorem follows_channel {channel channel' : Channel} (has : client.channel = some channel)
    (shut : channel.Shut → channel'.Shut) :
    client.Follows [] { client with channel := some channel' } where
  settings := rfl
  counted := rfl
  commands := rfl
  connected := by rw [has]; rfl
  released := rfl
  shut := by
    rintro before other same
    cases same
    exact shut (before channel has)
  transcript := by simp
  echoed := by simp
  watched := by
    rw [watches_nil, List.append_nil]
    rfl
  told := rfl

/-! ## Telling and showing -/

theorem log_tell (client : Client) (notice : Notice) :
    (client.tell notice).log = client.log ++ (client.settings.logging.entry? notice).toList := rfl

theorem shown_tell {Shown : Type} (client : Client) (notice : Notice)
    (shows : Notice → Option Shown) :
    (client.tell notice).log.filterMap (shows ·.notice) =
      client.log.filterMap (shows ·.notice) ++
        if client.settings.logging.enabled then (shows notice).toList else [] := by
  rw [log_tell, List.filterMap_append, Logging.entry?]
  split
  · cases shown : shows notice <;> simp [shown]
  · rfl

theorem watched_tell (client : Client) (notice : Notice) :
    (client.tell notice).watched = client.watched ++
      if client.settings.logging.enabled then notice.watched?.toList else [] :=
  client.shown_tell notice Notice.watched?

theorem told_tell (client : Client) (notice : Notice) :
    (client.tell notice).told = client.told ++
      if client.settings.logging.enabled then notice.sent?.toList else [] :=
  client.shown_tell notice Notice.sent?

theorem follows_tell (client : Client) {notice : Notice} (plain : notice.Plain) :
    client.Follows [] (client.tell notice) where
  settings := rfl
  counted := rfl
  commands := rfl
  connected := rfl
  released := rfl
  shut := id
  transcript := by simp [tell]
  echoed := by simp [tell]
  watched := by
    rw [watched_tell, plain.watched, watches_nil]
    simp
  told := by
    rw [told_tell, plain.sent]
    simp

theorem follows_tellAll (client : Client) {notices : List Notice}
    (plain : ∀ notice ∈ notices, notice.Plain) : client.Follows [] (client.tellAll notices) := by
  induction notices generalizing client with
  | nil => exact .refl client
  | cons notice notices induction =>
      have first := client.follows_tell (plain notice List.mem_cons_self)
      exact first.silent (induction (client.tell notice) fun other member =>
        plain other (List.mem_cons_of_mem _ member))

theorem follows_observe (client : Client) (traffic : Traffic) :
    client.Follows [traffic] (client.observe traffic) := by
  have echoed : (if client.settings.echo = .off then client.echoed
      else client.echoed ++ traffic.bytes) = client.echoed ++ echoes client.settings [traffic] := by
    unfold echoes
    split <;> simp
  unfold observe
  dsimp only
  split
  · next told =>
      exact {
        settings := rfl, counted := rfl, commands := rfl, connected := rfl, released := rfl
        shut := id
        transcript := by simp [tell]
        echoed := echoed
        watched := by
          rw [watched_tell, watches, told, Bool.and_true]
          rfl
        told := by
          rw [told_tell]
          simp [Notice.sent?, Client.told] }
  · next silent =>
      exact {
        settings := rfl, counted := rfl, commands := rfl, connected := rfl, released := rfl
        shut := id
        transcript := by simp
        echoed := echoed
        watched := by
          rw [watches, eq_false_of_ne_true silent, Bool.and_false]
          exact (List.append_nil _).symm
        told := rfl }

theorem follows_absorb {channel channel' : Channel} (has : client.channel = some channel)
    (effects : Effects) (shut : channel.Shut → channel'.Shut) :
    client.Follows effects.traffic (client.absorb channel' effects) := by
  have shown : ∀ (traffic : List Traffic) (client : Client),
      client.Follows traffic (traffic.foldl observe client) := by
    intro traffic
    induction traffic with
    | nil => exact Follows.refl
    | cons first others induction =>
        intro client
        exact (client.follows_observe first).trans (induction (client.observe first))
  have changed := (follows_channel has shut).trans (shown effects.traffic _)
  refine changed.silent (follows_tellAll _ ?_)
  intro notice member
  obtain ⟨failure, _, rfl⟩ := List.mem_map.mp member
  exact ⟨rfl, rfl⟩

/-! ## Ends of waits -/

theorem follows_hangUp (client : Client) : client.Follows [] client.hangUp := by
  cases has : client.channel with
  | none =>
      have same : client.hangUp = client := by
        rw [hangUp, has, Option.map_none, ← has]
      rw [same]
      exact .refl client
  | some channel =>
      rw [hangUp, has]
      exact follows_channel has fun _ => Channel.shut_destroy channel

theorem follows_concludeGreeting (client : Client) (result : Except Failure Match) :
    client.Follows [] (client.concludeGreeting result).1 := by
  cases result with
  | error failure =>
      have told : client.Follows [] (client.tell (.noGreeting failure)) :=
        client.follows_tell ⟨rfl, rfl⟩
      exact told.silent (follows_hangUp _)
  | ok found =>
      rw [concludeGreeting]
      dsimp only
      split
      · have greeted : client.Follows [] { client with greeting := responseLine found } :=
          client.follows_aside _ _ _ _ _ _
        exact greeted.silent (follows_tell _ ⟨rfl, rfl⟩)
      · exact follows_hangUp client

theorem follows_concludeCommand (client : Client) (tag : String) (result : Except Failure Match) :
    client.Follows [] (client.concludeCommand tag result).1 := by
  cases result with
  | error failure => exact .refl client
  | ok found =>
      rw [concludeCommand]
      dsimp only
      split
      · exact follows_tell client ⟨rfl, rfl⟩
      · apply follows_tellAll
        intro notice member
        split at member
        · rw [List.mem_singleton.mp member]
          exact ⟨rfl, rfl⟩
        · cases member

theorem release_unconnected (free : client.channel = none) : client.release = client := by
  rw [release, connection, free, Option.none_or, ← free]

theorem follows_readOn (client : Client) (readings : List Reading) :
    client.Follows [] (client.readOn readings).1 := by
  induction readings generalizing client with
  | nil => exact client.follows_aside _ _ _ _ _ _
  | cons reading others induction =>
      have read : ∀ notice ∈ reading.turn.2.toList.map Unread.notice, notice.Plain := by
        intro notice member
        obtain ⟨message, _, rfl⟩ := List.mem_map.mp member
        exact message.plain_notice
      have told := client.follows_tellAll read
      rw [readOn]
      dsimp only
      split
      · have announced := told.silent (follows_aside _ _ _ _ _ _ _ :
          Follows _ [] (announce _ reading.turn.1.mails))
        exact announced.silent (induction _)
      · exact (told.silent (induction _)).silent (follows_aside _ _ _ _ _ _ _)

theorem follows_read (client : Client) (turns : Nat) : client.Follows [] (client.read turns).1 := by
  induction turns generalizing client with
  | zero => exact .refl client
  | succ turns induction =>
      exact (client.follows_readOn client.readings).silent (induction _)

variable [Mail.Reader]

theorem follows_decodeFetch (client : Client) (now : Instant) (ticket : Nat) (before : Bytes) :
    client.Follows [] (client.decodeFetch now ticket before).1 := by
  have faults : ∀ notice ∈ (Response.collect before).2.map Notice.undecodable, notice.Plain := by
    intro notice member
    obtain ⟨fault, _, rfl⟩ := List.mem_map.mp member
    exact ⟨rfl, rfl⟩
  have counts : (Notice.received ((Response.collect before).1.map (·.sequence))).Plain := ⟨rfl, rfl⟩
  have told := (client.follows_tellAll faults).silent (follows_tell _ counts)
  unfold decodeFetch
  dsimp only
  split
  · exact told
  · exact told.silent (follows_aside _ _ _ _ _ _ _)

theorem follows_conclude (client : Client) (now : Instant) (ticket : Nat) (task : Task)
    (result : Except Failure Match) :
    client.Follows [] (client.conclude now ticket task result).1 := by
  cases task with
  | greeting => exact client.follows_concludeGreeting result
  | login tag => exact client.follows_concludeCommand tag result
  | select tag mailbox =>
      have concluded := client.follows_concludeCommand tag result
      simp only [conclude]
      split
      · next found parts =>
          rw [parts] at concluded
          exact concluded.silent (follows_aside _ _ _ _ _ _ _)
      · next failure parts =>
          rw [parts] at concluded
          exact concluded
  | fetch tag =>
      have concluded := client.follows_concludeCommand tag result
      simp only [conclude]
      split
      · next found parts =>
          rw [parts] at concluded
          exact concluded.silent (follows_decodeFetch _ now ticket found.before)
      · next failure parts =>
          rw [parts] at concluded
          exact concluded

theorem follows_settle (client : Client) (now : Instant) (settled : List Settlement) :
    client.Follows [] (client.settle now settled).1 := by
  induction settled generalizing client with
  | nil => exact .refl client
  | cons settlement others induction =>
      rw [settle]
      split
      · exact induction client
      · next task _ =>
          have freed : client.Follows [] { client with task := none } :=
            client.follows_aside _ _ _ _ _ _
          exact (freed.silent (follows_conclude _ now settlement.ticket task
            settlement.result)).silent (induction _)

theorem closed_settle (now : Instant) (settled : List Settlement) (closed : client.Closed) :
    (client.settle now settled).1.Closed := by
  induction settled generalizing client with
  | nil => exact closed
  | cons settlement others induction =>
      rw [settle]
      split
      · exact induction closed
      · next task _ =>
          apply induction
          obtain ⟨greeting, mailbox, core⟩ := { client with task := none }.conclude_core now
            settlement.ticket task settlement.result
          intro channel has
          rw [channel_of_core core, Option.map_eq_some_iff] at has
          obtain ⟨before, had, rfl⟩ := has
          exact destroyed_left_of_destroyed task _ (closed before had)

/-! ## Steps -/

theorem follows_effects {channel channel' : Channel} (has : client.channel = some channel)
    (now : Instant) (effects : Effects) (shut : channel.Shut → channel'.Shut) :
    client.Follows effects.traffic
      ((client.absorb channel' effects).settle now effects.settled).1 :=
  (follows_absorb has effects shut).silent (follows_settle _ now effects.settled)

theorem shut_effects (client : Client) (channel : Channel) (now : Instant) (effects : Effects)
    (closed : channel.Shut) :
    ((client.absorb channel effects).settle now effects.settled).1.Shut := by
  apply (follows_settle _ now effects.settled).shut
  intro other same
  rw [channel_of_core (core_absorb client channel effects)] at same
  cases same
  exact closed

theorem follows_react {channel : Channel} (has : client.channel = some channel) (now : Instant)
    {change : Channel → Channel × Effects} (incident : channel.Incident (change channel)) :
    client.Follows (change channel).2.traffic (client.react now change).client := by
  rw [react, has]
  exact follows_effects has now _ incident.shut

theorem react_unconnected (free : client.channel = none) (now : Instant)
    (change : Channel → Channel × Effects) : client.react now change = ⟨client, [], []⟩ := by
  rw [react, free]

theorem follows_await (client : Client) (clock : Clock) (now : Instant) (ticket : Nat)
    (patterns : List Pattern) (task : Task) :
    client.Follows [] (client.await clock now ticket patterns task).client := by
  unfold await
  split
  · exact .refl client
  · next channel has =>
      let wait : Wait := ⟨ticket, patterns, client.timeout, clock.timer client.timeout⟩
      have absorbed := follows_absorb has (channel.await wait).2 (channel.incident_await wait).shut
      have silent : (channel.await wait).2.traffic = [] := rfl
      rw [silent] at absorbed
      dsimp only
      split
      · exact absorbed.silent (follows_aside _ _ _ _ _ _ _)
      · exact absorbed.silent (follows_conclude _ now ticket task _)

end Client

end ImapDialogue
