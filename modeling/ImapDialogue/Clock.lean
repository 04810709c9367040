import ImapDialogue.Number.Basic

/-!
A clock that moves only when told to. When it comes to a moment, every timer that is due by
then fires before anything else happens.
-/

namespace ImapDialogue

/-- When a timer is due, in milliseconds since the start. -/
structure Timer where
  due : Nat
deriving DecidableEq, Repr

structure Clock where
  now : Nat
deriving DecidableEq, Repr

namespace Clock

def start : Clock := ⟨0⟩

def longestDelay : Nat := 2147483647

/-- The delay that a timer is really set to: whole milliseconds, and a single one for a
length that is not between one and the longest delay. -/
def delay : Number → Nat
  | .infinite _ => 1
  | .finite length =>
      if 1 ≤ length && length ≤ (longestDelay : Rat) then length.floor.toNat else 1

def timer (clock : Clock) (length : Number) : Timer := ⟨clock.now + delay length⟩

def advance (clock : Clock) (length : Nat) : Clock := ⟨clock.now + length⟩

def jumpTo (clock : Clock) (timer : Timer) : Clock := ⟨max clock.now timer.due⟩

end Clock

end ImapDialogue
