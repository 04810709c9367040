import ImapDialogue.Pattern.Syntax
import ImapDialogue.Wire.Cursor

/-!
Matching an expression at a given place by backtracking. Alternatives are tried in the order
in which they were written, a greedy repetition tries one more round first, and a round
beyond the required ones must not be empty. Among the ways to match, the first whose
continuation succeeds is taken.
-/

namespace ImapDialogue.Pattern

def wordAt (byte : Option UInt8) : Bool := byte.any Byte.isWord

/-- Whether a condition holds at a place. With the multiline flag the starts and ends of lines
count as well. -/
def Anchor.holds (flags : Flags) (cursor : Cursor) : Anchor → Bool
  | .start => cursor.previous.isNone || (flags.multiline && cursor.startsLine)
  | .finish => cursor.rest.isEmpty || (flags.multiline && cursor.rest.head?.any Byte.isLineEnd)
  | .boundary => wordAt cursor.previous != wordAt cursor.rest.head?
  | .inside => wordAt cursor.previous == wordAt cursor.rest.head?

abbrev Matcher (α : Type) := Cursor → (Cursor → Option α) → Option α

namespace Matcher

variable {α : Type}

def byte (test : UInt8 → Bool) : Matcher α := fun cursor next =>
  match cursor.rest with
  | [] => none
  | byte :: rest => if test byte then next ⟨cursor.offset + 1, some byte, rest⟩ else none

def rounds (body : Matcher α) : Nat → Matcher α
  | 0, cursor, next => next cursor
  | count + 1, cursor, next => body cursor fun behind => rounds body count behind next

def furtherRounds (body : Matcher α) (greedy : Bool) : Nat → Matcher α
  | 0, cursor, next => next cursor
  | count + 1, cursor, next =>
      let onceMore := fun _ : Unit => body cursor fun behind =>
        if behind.offset = cursor.offset then none
        else furtherRounds body greedy count behind next
      if greedy then
        match onceMore () with
        | some answer => some answer
        | none => next cursor
      else
        match next cursor with
        | some answer => some answer
        | none => onceMore ()

/-- A repetition. Without an upper bound, as many further rounds are allowed as bytes are
left, which no run of non-empty rounds exceeds. -/
def repeated (body : Matcher α) (least : Nat) (most : Option Nat) (greedy : Bool) : Matcher α :=
  fun cursor next =>
    rounds body least cursor fun behind =>
      let further := match most with
        | some most => most - least
        | none => behind.rest.length
      furtherRounds body greedy further behind next

end Matcher

def Regex.matcher {α : Type} (flags : Flags) : Regex → Matcher α
  | .empty, cursor, next => next cursor
  | .never, _, _ => none
  | .unit set, cursor, next => Matcher.byte (set.accepts flags.ignoreCase) cursor next
  | .dot, cursor, next =>
      Matcher.byte (fun byte => flags.dotAll || !Byte.isLineEnd byte) cursor next
  | .anchor condition, cursor, next => if condition.holds flags cursor then next cursor else none
  | .seq first second, cursor, next =>
      first.matcher flags cursor fun behind => second.matcher flags behind next
  | .alt first second, cursor, next =>
      match first.matcher flags cursor next with
      | some answer => some answer
      | none => second.matcher flags cursor next
  | .iterate body least most greedy, cursor, next =>
      Matcher.repeated (body.matcher flags) least most greedy cursor next

def Regex.lengthAt (flags : Flags) (regex : Regex) (cursor : Cursor) : Option Nat :=
  regex.matcher flags cursor fun behind => some (behind.offset - cursor.offset)

end ImapDialogue.Pattern
