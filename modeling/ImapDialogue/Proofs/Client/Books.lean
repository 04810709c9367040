import ImapDialogue.Proofs.Client.Asking

/-!
What a client has on its books: the commands that were asked of it and the traffic that it saw. Its
list of commands, its transcript, its echo and its log show these and nothing else, and they show a
command only in the form that is meant to be shown.
-/

namespace ImapDialogue

/-! ## Traffic of one direction -/

namespace Traffic

def outgoing (seen : List Traffic) : List Bytes :=
  (seen.filter (·.direction = .outgoing)).map (·.bytes)

def incoming (seen : List Traffic) : Bytes :=
  (seen.filter (·.direction = .incoming)).flatMap (·.bytes)

theorem outgoing_append (seen seen' : List Traffic) :
    outgoing (seen ++ seen') = outgoing seen ++ outgoing seen' := by
  rw [outgoing, List.filter_append, List.map_append]
  rfl

theorem incoming_append (seen seen' : List Traffic) :
    incoming (seen ++ seen') = incoming seen ++ incoming seen' := by
  rw [incoming, List.filter_append, List.flatMap_append]
  rfl

theorem outgoing_of_incoming {seen : List Traffic}
    (all : ∀ traffic ∈ seen, traffic.direction = .incoming) : outgoing seen = [] := by
  have none : seen.filter (·.direction = .outgoing) = [] := by
    rw [List.filter_eq_nil_iff]
    intro traffic member
    rw [all traffic member]
    decide
  rw [outgoing, none, List.map_nil]

end Traffic

namespace Client

structure Books (settings : Settings) (asked : List Asking) (seen : List Traffic)
    (client : Client) : Prop where
  configured : client.settings = settings
  counted : client.lastTag = asked.length
  commands : client.commands = Asking.shownLines asked
  transcript : client.transcript = seen.flatMap (·.bytes)
  echoed : client.echoed = echoes settings seen
  watched : client.watched = watches settings seen
  told : client.told = if settings.logging.enabled then Asking.shownLines asked else []
  shown : Traffic.outgoing seen = (Asking.shownLines asked).map Channel.lineBytes

variable {settings : Settings} {asked : List Asking} {seen seen' : List Traffic}
  {client later : Client}

theorem books_create (settings : Settings) : (create settings).Books settings [] [] := by
  let blank : Client := {
    settings := settings, channel := none, released := none, task := none, readings := []
    lastTag := 0, greeting := "", mailbox := none, commands := [], transcript := [], echoed := []
    log := [], listeners := .none, events := [] }
  have told : blank.Follows [] (create settings) := blank.follows_tell ⟨rfl, rfl⟩
  exact {
    configured := rfl
    counted := rfl
    commands := rfl
    transcript := rfl
    echoed := (echoes_nil settings).symm
    watched := told.watched
    told := by
      refine told.told.trans ?_
      split <;> rfl
    shown := rfl }

theorem Books.follow (books : client.Books settings asked seen) (follows : client.Follows seen' later)
    (all : ∀ traffic ∈ seen', traffic.direction = .incoming) :
    later.Books settings asked (seen ++ seen') where
  configured := follows.settings.trans books.configured
  counted := follows.counted.trans books.counted
  commands := follows.commands.trans books.commands
  transcript := by rw [follows.transcript, books.transcript, List.flatMap_append]
  echoed := by rw [follows.echoed, books.echoed, books.configured, echoes_append]
  watched := by rw [follows.watched, books.watched, books.configured, watches_append]
  told := follows.told.trans books.told
  shown := by
    rw [Traffic.outgoing_append, Traffic.outgoing_of_incoming all, List.append_nil, books.shown]

theorem Books.silent (books : client.Books settings asked seen) (follows : client.Follows [] later) :
    later.Books settings asked seen := by
  have kept := books.follow follows (by rintro traffic ⟨⟩)
  rwa [List.append_nil] at kept

theorem Books.ask (books : client.Books settings asked seen) {asking : Asking} {step : Step}
    (asks : client.Asks asking step) :
    step.client.Books settings (asked ++ [asking])
      (seen ++ [⟨.outgoing, Channel.lineBytes (asking.shownLine (asked.length + 1))⟩]) := by
  have follows := asks.follows
  rw [books.counted] at follows
  have lines := Asking.shownLines_concat asked asking
  have same : (client.counting (asking.shownLine (asked.length + 1))).settings = settings :=
    books.configured
  exact {
    configured := follows.settings.trans same
    counted := by
      rw [List.length_append, List.length_singleton, ← books.counted]
      exact follows.counted
    commands := by
      rw [lines, ← books.commands]
      exact follows.commands
    transcript := by
      rw [List.flatMap_append, ← books.transcript]
      exact follows.transcript
    echoed := by
      have echoed := follows.echoed
      rw [same] at echoed
      rw [echoes_append, ← books.echoed]
      exact echoed
    watched := by
      have watched := follows.watched
      rw [same, watched_counting, books.watched] at watched
      rw [watches_append]
      exact watched
    told := by
      rw [follows.told, told_counting, books.told, books.configured, lines]
      split <;> rfl
    shown := by
      rw [Traffic.outgoing_append, books.shown, lines, List.map_append]
      rfl }

end Client

end ImapDialogue
