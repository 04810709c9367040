import ImapDialogue.Clock
import ImapDialogue.Failure
import ImapDialogue.Intake.Search

/-!
The receiving side of a connection: data that no match has consumed yet, and at most one wait
for a pattern. A match consumes everything up to its own end; a wait that fails consumes
nothing. Once the stream has ended no wait stays open.
-/

namespace ImapDialogue

/-- An open wait. The ticket says who asked for it. -/
structure Wait where
  ticket : Nat
  patterns : List Pattern
  timeout : Number
  timer : Timer
deriving DecidableEq, Repr

structure Settlement where
  ticket : Nat
  result : Except Failure Match

/-- Unread data, the wait on it, and whether and why the stream has ended. A guarded intake
keeps matches from starting inside literal data. -/
structure Intake where
  guarded : Bool
  unread : Bytes
  ended : Bool
  failure : Option Failure
  wait : Option Wait
deriving DecidableEq, Repr

namespace Intake

def empty (guarded : Bool) : Intake := ⟨guarded, [], false, none, none⟩

def barred (intake : Intake) : Nat → Bool :=
  if intake.guarded then Literal.inside (Literal.regions intake.unread) else fun _ => false

/-- The first match of some patterns, and the intake with it consumed. -/
def take? (intake : Intake) (patterns : List Pattern) : Option (Match × Intake) :=
  (Search.first intake.barred patterns intake.unread).map fun (found, rest) =>
    (found, { intake with unread := rest })

def receive (intake : Intake) (chunk : Bytes) : Intake × List Settlement :=
  let grown := { intake with unread := intake.unread ++ chunk }
  match grown.wait with
  | none => (grown, [])
  | some wait =>
      match grown.take? wait.patterns with
      | none => (grown, [])
      | some (found, rest) => ({ rest with wait := none }, [⟨wait.ticket, .ok found⟩])

/-- The stream ends, perhaps for a reason. Only the first reason is kept. -/
def finish (intake : Intake) (reason : Option Failure) : Intake × List Settlement :=
  if intake.ended then ({ intake with failure := intake.failure.or reason }, [])
  else
    let done := { intake with ended := true, failure := reason, wait := none }
    match intake.wait with
    | none => (done, [])
    | some wait =>
        (done, [⟨wait.ticket, .error (reason.getD (.endOfStream wait.patterns intake.unread))⟩])

/-- A wait begins. It ends at once if another one is open, if a match is there already, or if
the stream has ended. -/
def await (intake : Intake) (wait : Wait) : Intake × List Settlement :=
  if intake.wait.isSome then (intake, [⟨wait.ticket, .error .alreadyWaiting⟩])
  else match intake.take? wait.patterns with
    | some (found, rest) => (rest, [⟨wait.ticket, .ok found⟩])
    | none =>
        if intake.ended then
          (intake, [⟨wait.ticket,
            .error (intake.failure.getD (.endOfStream wait.patterns intake.unread))⟩])
        else ({ intake with wait := some wait }, [])

def expire (intake : Intake) : Intake × List Settlement :=
  match intake.wait with
  | none => (intake, [])
  | some wait =>
      ({ intake with wait := none },
        [⟨wait.ticket, .error (.timeout wait.patterns wait.timeout intake.unread)⟩])

end Intake

end ImapDialogue
