import ImapDialogue.Client.Listener
import Mathlib.Data.List.Count

/-!
Who is told, and how often. A listener is there once for each time that it was added and not taken
off again, and each time it is told about every mail.
-/

namespace ImapDialogue

namespace Listeners

inductive Change where
  | addition (listener : Listener)
  | removal (listener : Listener)
deriving DecidableEq, Repr

def change (listeners : Listeners) : Change → Listeners
  | .addition listener => listeners.add listener
  | .removal listener => listeners.remove listener

def Change.times (listener : Listener) (before : Nat) : Change → Nat
  | .addition other => if other = listener then before + 1 else before
  | .removal other => if other = listener then before - 1 else before

/-- The listeners behind some changes to none. -/
def after (history : List Change) : Listeners := history.foldl change none

/-- How often a listener is there behind some changes: each addition counts one more, each removal
one less if there is one left. -/
def times (history : List Change) (listener : Listener) : Nat :=
  history.foldl (Change.times listener) 0

theorem count_change (listeners : Listeners) (listener : Listener) (change : Change) :
    (listeners.change change).registered.count listener =
      change.times listener (listeners.registered.count listener) := by
  cases change with
  | addition other =>
      rw [Listeners.change, add, List.count_append, List.count_singleton, Change.times]
      by_cases same : other = listener <;> simp [same]
  | removal other =>
      rw [Listeners.change, remove, List.count_reverse, List.count_erase, List.count_reverse,
        Change.times]
      by_cases same : other = listener <;> simp [same]

theorem count_after (history : List Change) (listener : Listener) :
    (after history).registered.count listener = times history listener := by
  have each : ∀ (history : List Change) (listeners : Listeners),
      (history.foldl change listeners).registered.count listener =
        history.foldl (Change.times listener) (listeners.registered.count listener) := by
    intro history
    induction history with
    | nil => intro listeners; rfl
    | cons first later induction =>
        intro listeners
        rw [List.foldl_cons, List.foldl_cons, induction, count_change]
  exact each history none

theorem heard_by (registered : List Listener) (listener : Listener) (mail : Mail) :
    ((registered.map fun other => MailEvent.mk other mail).filter (·.hearer = listener)).map
        (·.mail) =
      List.replicate (registered.count listener) mail := by
  induction registered with
  | nil => rfl
  | cons other others induction =>
      rw [List.map_cons, List.filter_cons]
      by_cases same : other = listener
      · rw [if_pos (decide_eq_true same), List.map_cons, induction, same, List.count_cons_self,
          List.replicate_succ]
      · rw [if_neg (by simpa using same), induction, List.count_cons_of_ne same]

/-- A listener is told about every mail, mail by mail, and about each as often as it is there. -/
theorem told_to (listeners : Listeners) (mails : List Mail) (listener : Listener) :
    ((listeners.told mails).filter (·.hearer = listener)).map (·.mail) =
      mails.flatMap (List.replicate (listeners.registered.count listener)) := by
  rw [told, List.filter_flatMap, List.map_flatMap]
  congr 1
  funext mail
  exact heard_by listeners.registered listener mail

end Listeners

end ImapDialogue
