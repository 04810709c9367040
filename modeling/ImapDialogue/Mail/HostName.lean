import ImapDialogue.Text

/-!
Host names in other scripts than ASCII. A label of such a name is written as `xn--`, then its
ASCII characters, then a hyphen if there are any, and then one number for each other character:
how many steps of "the next place, and behind the last place the next code point" lead to it
from the one in front. Digits count more the further behind they stand, and a number ends at
the first digit under a threshold that follows the sizes of the numbers so far.
-/

namespace ImapDialogue.Mail.HostName

def digit? (char : Char) : Option Nat :=
  if 'a' ≤ char && char ≤ 'z' then some (char.toNat - 'a'.toNat)
  else if '0' ≤ char && char ≤ '9' then some (26 + (char.toNat - '0'.toNat))
  else none

def threshold (bias place : Nat) : Nat := max 1 (min 26 (place - bias))

/-- The number that begins a text, and what follows it, given what its digits so far amount to
and how much the next one counts. -/
def number? (bias place weight sum : Nat) : List Char → Option (Nat × List Char)
  | [] => none
  | char :: rest =>
      match digit? char with
      | none => none
      | some value =>
          if value < threshold bias place then some (sum + value * weight, rest)
          else
            number? bias (place + 36) (weight * (36 - threshold bias place)) (sum + value * weight)
              rest

theorem length_of_number? {bias place weight sum : Nat} {chars : List Char}
    {found : Nat × List Char} (h : number? bias place weight sum chars = some found) :
    found.2.length < chars.length := by
  fun_induction number? bias place weight sum chars with
  | case1 => simp at h
  | case2 => simp at h
  | case3 place weight sum char rest value _ _ =>
    have : found = (sum + value * weight, rest) := by simpa using h.symm
    simp [this]
  | case4 place weight sum char rest value _ _ ih =>
    have := ih h
    simp only [List.length_cons]
    omega

def biasOf (size steps : Nat) : Nat :=
  if 455 < size then biasOf (size / 35) (steps + 36) else steps + 36 * size / (size + 38)
termination_by size
decreasing_by omega

/-- The bias behind a number, given how many characters the label has so far. The first number
is taken for far smaller than it is. -/
def nextBias (number count : Nat) (isFirst : Bool) : Nat :=
  let size := if isFirst then number / 700 else number / 2
  biasOf (size + size / count) 0

/-- Adds the characters that numbers spell. `steps` is where the last one led, `code` the code
point at hand. -/
def place? (bias code steps : Nat) (label : List Char) : List Char → Option (List Char)
  | [] => some label
  | first :: others =>
      match _found : number? bias 36 1 0 (first :: others) with
      | none => none
      | some (number, rest) =>
          let count := label.length + 1
          let target := steps + number
          let code := code + target / count
          if Nat.isValidChar code then
            place? (nextBias number count (steps == 0)) code (target % count + 1)
              (label.insertIdx (target % count) (Char.ofNat code)) rest
          else none
termination_by chars => chars.length
decreasing_by exact length_of_number? _found

def spelled? (chars : List Char) : Option (List Char) :=
  let numbers := (chars.reverse.takeWhile (· != '-')).reverse
  let basic := chars.take (chars.length - numbers.length - 1)
  if basic.all (·.toNat < 0x80) then
    place? 72 0x80 0 basic (if basic.isEmpty then chars else numbers)
  else none

def label? : List Char → Option (List Char)
  | 'x' :: 'n' :: '-' :: '-' :: rest => spelled? (rest.map Char.toLower)
  | label => some label

def fullStop (char : Char) : Char :=
  if ['\u3002', '\uFF0E', '\uFF61'].contains char then '.' else char

def shown? (name : List Char) : Option (List Char) :=
  ((Parts.between '.' (name.map fullStop)).mapM label?).map (['.'].intercalate ·)

def isMarked : List Char → Bool
  | [] => false
  | '@' :: 'x' :: 'n' :: '-' :: '-' :: _ => true
  | _ :: rest => isMarked rest

def inAddress (address : String) : String :=
  let chars := address.toList
  let host := (chars.reverse.takeWhile (· != '@')).reverse
  if isMarked chars then
    match shown? host with
    | some shown => String.ofList (chars.take (chars.length - host.length) ++ shown)
    | none => address
  else address

end ImapDialogue.Mail.HostName
