import ImapDialogue.Proofs.Client.Following
import ImapDialogue.Proofs.Wire.Cutting

/-!
The commands that calls ask of a server: the lines in which they go out and the lines in which they
are shown. Calls ask for no other commands than these three, and each for one.
-/

namespace ImapDialogue

inductive Asking where
  | login (user password : String)
  | select (mailbox : String)
  | fetch (sequence item : String)
deriving DecidableEq, Repr

namespace Asking

def verb : Asking → String
  | .login _ _ => "login"
  | .select _ => "select"
  | .fetch _ _ => "fetch"

def texts : Asking → List String
  | .login user password => [user, password]
  | .select mailbox => [mailbox]
  | .fetch sequence item => [sequence, item]

def arguments : Asking → String
  | .login user password => Argument.render user ++ " " ++ Argument.render password
  | .select mailbox => Argument.render mailbox
  | .fetch sequence item => sequence ++ " " ++ item

def shown : Asking → String
  | .login user _ => Argument.render user ++ " " ++ Client.mask
  | asking => asking.arguments

def line (asking : Asking) (number : Nat) : String :=
  toString number ++ " " ++ asking.verb ++ " " ++ asking.arguments

def shownLine (asking : Asking) (number : Nat) : String :=
  toString number ++ " " ++ asking.verb ++ " " ++ asking.shown

/-- The text that marks the success of a command. -/
def marker (settings : Settings) : Asking → String
  | .login _ _ => (Client.create settings).loginMarker
  | .select _ => (Client.create settings).selectMarker
  | .fetch _ _ => (Client.create settings).fetchMarker

/-- How a client goes on when the wait of a command ends. -/
def task (tag : String) : Asking → Task
  | .login _ _ => .login tag
  | .select mailbox => .select tag mailbox
  | .fetch _ _ => .fetch tag

def mailbox? : Asking → Option String
  | .select mailbox => some mailbox
  | .login _ _ | .fetch _ _ => none

theorem task_ne_greeting (asking : Asking) (tag : String) : asking.task tag ≠ .greeting := by
  cases asking <;> rintro ⟨⟩

def lines (asked : List Asking) : List String :=
  asked.mapIdx fun place asking => asking.line (place + 1)

def shownLines (asked : List Asking) : List String :=
  asked.mapIdx fun place asking => asking.shownLine (place + 1)

theorem lines_concat (asked : List Asking) (asking : Asking) :
    lines (asked ++ [asking]) = lines asked ++ [asking.line (asked.length + 1)] :=
  List.mapIdx_concat

theorem shownLines_concat (asked : List Asking) (asking : Asking) :
    shownLines (asked ++ [asking]) = shownLines asked ++ [asking.shownLine (asked.length + 1)] :=
  List.mapIdx_concat

theorem lines_take (asked : List Asking) (count : Nat) :
    (lines asked).take count = lines (asked.take count) := by
  apply List.ext_getElem?
  intro place
  rw [lines, lines, List.getElem?_take, List.getElem?_mapIdx, List.getElem?_mapIdx,
    List.getElem?_take]
  split <;> rfl

theorem isDigit_of_mem_number {number : Nat} {char : Char}
    (member : char ∈ (toString number).toList) : char.isDigit = true := by
  rw [Nat.toString_eq_repr, Nat.toList_repr] at member
  exact Nat.isDigit_of_mem_toDigits (by decide) (by decide) member

theorem number_unique {number number' : Nat} {rest rest' : String}
    (same : toString number ++ " " ++ rest = toString number' ++ " " ++ rest') :
    number = number' ∧ rest = rest' := by
  have letters : ∀ (number : Nat) (rest : String), (toString number ++ " " ++ rest).toList =
      (toString number).toList ++ ' ' :: rest.toList := by
    intro number rest
    rw [String.toList_append, String.toList_append, List.append_assoc]
    rfl
  have front : ∀ (number : Nat) (rest : String),
      (toString number ++ " " ++ rest).toList.takeWhile Char.isDigit = (toString number).toList := by
    intro number rest
    rw [letters, List.takeWhile_append_of_pos fun _ member => isDigit_of_mem_number member]
    exact List.append_nil _
  have numbers := congrArg (fun line => line.toList.takeWhile Char.isDigit) same
  rw [front, front, String.toList_inj] at numbers
  have digits : Bytes.digits number = Bytes.digits number' := congrArg Bytes.ofNarrow numbers
  have counts := congrArg Bytes.decimal digits
  rw [Bytes.decimal_digits, Bytes.decimal_digits] at counts
  subst counts
  have rests := congrArg String.toList same
  rw [letters, letters] at rests
  exact ⟨rfl, String.toList_inj.mp (List.cons.inj (List.append_cancel_left rests)).2⟩

theorem uncut_number (number : Nat) : Utf8.Uncut (toString number) := by
  apply Utf8.uncut_of_unbroken
  constructor
  · intro member
    exact absurd (isDigit_of_mem_number member) (by decide)
  · intro member
    exact absurd (isDigit_of_mem_number member) (by decide)

/-- A command's line has a line end in it exactly if one of its texts has: nothing is done about
the line ends of a text, and no others come to stand in the line. -/
theorem uncut_line (asking : Asking) (number : Nat) :
    Utf8.Uncut (asking.line number) ↔ ∀ text ∈ asking.texts, Utf8.Uncut text := by
  have word : Utf8.Uncut asking.verb := by
    cases asking with
    | login user password => exact (by decide : Utf8.Uncut "login")
    | select mailbox => exact (by decide : Utf8.Uncut "select")
    | fetch sequence item => exact (by decide : Utf8.Uncut "fetch")
  have front := (Utf8.uncut_spaced (toString number) asking.verb).mpr ⟨uncut_number number, word⟩
  rw [line, Utf8.uncut_spaced, and_iff_right front]
  cases asking with
  | login user password => simp [arguments, texts, Utf8.uncut_spaced, Utf8.uncut_render]
  | select mailbox => simp [arguments, texts, Utf8.uncut_render]
  | fetch sequence item => simp [arguments, texts, Utf8.uncut_spaced]

theorem uncut_lines (asked : List Asking) :
    (∀ line ∈ lines asked, Utf8.Uncut line) ↔
      ∀ asking ∈ asked, ∀ text ∈ asking.texts, Utf8.Uncut text := by
  constructor
  · intro uncut asking member
    obtain ⟨place, within, rfl⟩ := List.mem_iff_getElem.mp member
    exact (uncut_line _ (place + 1)).mp (uncut _ (List.mem_mapIdx.mpr ⟨place, within, rfl⟩))
  · intro uncut line member
    obtain ⟨place, within, rfl⟩ := List.mem_mapIdx.mp member
    exact (uncut_line _ (place + 1)).mpr (uncut _ (List.getElem_mem within))

end Asking

def Call.asking? (settings : Settings) : Call → Option Asking
  | .login => some (.login settings.email settings.password)
  | .select mailbox =>
      some (.select (mailbox.getD (Client.create settings).standardMailbox))
  | .fetch sequence item =>
      some (.fetch (sequence.getD (settings.fetch.sequence.getD "1:3"))
        (item.getD (settings.fetch.item.getD "BODY.PEEK[]")))
  | .close | .listen _ | .unlisten _ => none

namespace Client

def issues? (client : Client) (call : Call) : Option Asking :=
  if client.channel.isSome then call.asking? client.settings else none

variable {client : Client}

theorem issues?_unconnected (free : client.channel = none) (call : Call) :
    client.issues? call = none := by
  rw [issues?, free]
  rfl

theorem issues?_connected {channel : Channel} (has : client.channel = some channel) (call : Call) :
    client.issues? call = call.asking? client.settings := by
  rw [issues?, has]
  rfl

theorem watched_counting (client : Client) (shown : String) :
    (client.counting shown).watched = client.watched := by
  rw [counting, watched_tell]
  simp [Notice.watched?, watched]

theorem told_counting (client : Client) (shown : String) :
    (client.counting shown).told = client.told ++
      if client.settings.logging.enabled then [shown] else [] :=
  told_tell _ _

/-- How a command begins: it is counted and shown, and then its line goes out, or nothing can be
sent any more. -/
structure Asks (client : Client) (asking : Asking) (step : Step) : Prop where
  follows : (client.counting (asking.shownLine (client.lastTag + 1))).Follows
    [⟨.outgoing, Channel.lineBytes (asking.shownLine (client.lastTag + 1))⟩] step.client
  sends : (¬client.Shut ∧ step.written = [Channel.lineBytes (asking.line (client.lastTag + 1))]) ∨
    (step.client.Shut ∧ step.written = [])

variable [Mail.Reader]

theorem asks_command {channel : Channel} (has : client.channel = some channel) (clock : Clock)
    (now : Instant) (ticket : Nat) (asking : Asking) (marker : String) (task : String → Task) :
    client.Asks asking (client.command clock now ticket asking.verb asking.arguments asking.shown
      marker task) := by
  let tag := toString (client.lastTag + 1)
  let line := asking.line (client.lastTag + 1)
  let shown := asking.shownLine (client.lastTag + 1)
  have has' : (client.counting shown).channel = some channel := has
  have begun : client.command clock now ticket asking.verb asking.arguments asking.shown marker task =
      (client.counting shown).goOn clock now ticket (Command.answers tag marker) (task tag)
        (channel.send line (some shown)) := command_eq has _ _ _ _ _ _ _ _
  obtain ⟨traffic, shut, outcome⟩ := channel.send_spec line shown
  rw [begun, goOn]
  generalize channel.send line (some shown) = sent at traffic shut outcome ⊢
  have settled := follows_effects has' now sent.effects shut
  have closes := (client.counting shown).shut_effects sent.channel now sent.effects
  rw [traffic] at settled
  dsimp only
  generalize ((client.counting shown).absorb sent.channel sent.effects).settle now
    sent.effects.settled = behind at settled closes ⊢
  rcases outcome with ⟨result, free, written⟩ | ⟨⟨failure, result⟩, closed, written⟩
  · rw [result]
    refine ⟨settled.silent (follows_await _ _ _ _ _ _), .inl ⟨?_, ?_⟩⟩
    · intro shut
      exact free (shut channel has)
    · dsimp only
      rw [written, await_written, List.append_nil]
  · rw [result]
    exact ⟨settled, .inr ⟨closes closed, rfl⟩⟩

theorem begin_eq_command (client : Client) (clock : Clock) (now : Instant)
    (ticket : Nat) {call : Call} {asking : Asking}
    (asks : call.asking? client.settings = some asking) :
    ∃ told, client.Follows [] told ∧ told.core = client.core ∧
      client.begin clock now ticket call = told.command clock now ticket asking.verb
        asking.arguments asking.shown (asking.marker client.settings) (asking.task ·) := by
  cases call with
  | login =>
      cases asks
      exact ⟨client, .refl client, rfl, rfl⟩
  | select mailbox =>
      cases asks
      exact ⟨client.tell (.selecting (mailbox.getD client.standardMailbox)),
        client.follows_tell ⟨rfl, rfl⟩, rfl, rfl⟩
  | fetch sequence item =>
      cases asks
      exact ⟨client, .refl client, rfl, rfl⟩
  | close => cases asks
  | listen name => cases asks
  | unlisten name => cases asks

theorem asks_begin {channel : Channel} (has : client.channel = some channel) (clock : Clock)
    (now : Instant) (ticket : Nat) {call : Call} {asking : Asking}
    (asks : call.asking? client.settings = some asking) :
    ∃ told, client.Follows [] told ∧ told.Asks asking (client.begin clock now ticket call) := by
  obtain ⟨told, follows, same, begun⟩ := client.begin_eq_command clock now ticket asks
  rw [begun]
  exact ⟨told, follows, asks_command ((channel_of_core same).trans has) clock now ticket _ _ _⟩

theorem begin_unconnected (free : client.channel = none) (clock : Clock) (now : Instant)
    (ticket : Nat) (call : Call) :
    (client.begin clock now ticket call).written = [] ∧
      client.Follows [] (client.begin clock now ticket call).client := by
  have refuses : ∀ (client : Client) (verb arguments shown marker : String) (task : String → Task),
      client.channel = none →
        (client.command clock now ticket verb arguments shown marker task).written = [] ∧
        client.Follows [] (client.command clock now ticket verb arguments shown marker task).client := by
    intro client verb arguments shown marker task free
    rw [command, free]
    exact ⟨rfl, client.follows_tell ⟨rfl, rfl⟩⟩
  cases call with
  | login => exact refuses client _ _ _ _ _ free
  | select mailbox =>
      let telling := client.tell (.selecting (mailbox.getD client.standardMailbox))
      have told : client.Follows [] telling := client.follows_tell ⟨rfl, rfl⟩
      obtain ⟨silent, follows⟩ := refuses telling "select" _ _ client.selectMarker _ free
      exact ⟨silent, told.silent follows⟩
  | fetch sequence item => exact refuses client _ _ _ _ _ free
  | close =>
      have free' : (client.tell .closing).channel = none := free
      have told : client.Follows [] (client.tell .closing) := client.follows_tell ⟨rfl, rfl⟩
      rw [Client.begin, close, react_unconnected free', release_unconnected free']
      exact ⟨rfl, told⟩
  | listen name => exact ⟨rfl, client.follows_aside _ _ _ _ _ _⟩
  | unlisten name => exact ⟨rfl, client.follows_aside _ _ _ _ _ _⟩

theorem close_spec (client : Client) (now : Instant) (ticket : Nat) :
    (client.close now ticket).written = [] ∧
      ∃ closed, client.Follows [] closed ∧ closed.Closed ∧
        (client.close now ticket).client = closed.release := by
  have told : client.Follows [] (client.tell .closing) := client.follows_tell ⟨rfl, rfl⟩
  cases has : client.channel with
  | none =>
      have free : (client.tell .closing).channel = none := has
      rw [close, react_unconnected free]
      refine ⟨rfl, client.tell .closing, told, ?_, rfl⟩
      intro channel has
      rw [free] at has
      cases has
  | some channel =>
      have has' : (client.tell .closing).channel = some channel := has
      have quiet := Channel.quiet_destroy channel
      have follows := follows_react has' now channel.incident_destroy
      rw [quiet.traffic] at follows
      refine ⟨?_, _, told.silent follows, ?_, rfl⟩
      · rw [close, react, has']
        exact quiet.written
      · rw [react, has']
        apply closed_settle
        intro destroyed same
        rw [channel_of_core (core_absorb _ channel.destroy.1 channel.destroy.2)] at same
        cases same
        exact channel.destroyed_destroy

end Client

end ImapDialogue
