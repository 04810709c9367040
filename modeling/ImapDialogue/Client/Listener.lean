import ImapDialogue.Mail.Basic

/-!
Listeners for mails, and what they are told. A listener may be added more than once, and is told
about a mail once for each time.
-/

namespace ImapDialogue

/-- A listener: a name, and a number that tells it from the others of that name. -/
structure Listener where
  name : String
  number : Nat
deriving DecidableEq, Repr

structure MailEvent where
  hearer : Listener
  mail : Mail
deriving Repr

namespace MailEvent

def listener (event : MailEvent) : String := event.hearer.name

def sequence (event : MailEvent) : Number := event.mail.sequence

def subject (event : MailEvent) : String := event.mail.subject

end MailEvent

/-- The listeners that are told about mails, in the order in which they were added, and all that
were ever made for a name. -/
structure Listeners where
  registered : List Listener
  known : List Listener
deriving DecidableEq, Repr

namespace Listeners

def none : Listeners := ⟨[], []⟩

def add (listeners : Listeners) (listener : Listener) : Listeners :=
  { listeners with registered := listeners.registered ++ [listener] }

def remove (listeners : Listeners) (listener : Listener) : Listeners :=
  { listeners with registered := (listeners.registered.reverse.erase listener).reverse }

def addNew (listeners : Listeners) (name : String) : Listeners :=
  let listener : Listener := ⟨name, listeners.known.length⟩
  { listeners with known := listeners.known ++ [listener] }.add listener

/-- Takes off the listener that was made last for a name. If it is off already, nothing happens. -/
def removeNewest (listeners : Listeners) (name : String) : Listeners :=
  match listeners.known.reverse.find? (·.name = name) with
  | some listener => listeners.remove listener
  | .none => listeners

/-- What the listeners are told about some mails: mail by mail, and each mail to one listener
after the other. -/
def told (listeners : Listeners) (mails : List Mail) : List MailEvent :=
  mails.flatMap fun mail => listeners.registered.map fun listener => ⟨listener, mail⟩

end Listeners

end ImapDialogue
