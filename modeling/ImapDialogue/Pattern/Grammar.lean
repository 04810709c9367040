import ImapDialogue.Pattern.Syntax

/-!
Reading the source of a regular expression. A first pass cuts the source into tokens, each
at least one character long; a second pass walks over the tokens with the groups that are
still open. A bracket or brace that opens nothing stands for itself, and digits behind a
backslash name a character by its octal number unless they refer to a group. Look-around,
references to groups and an unbalanced group are outside the grammar.
-/

namespace ImapDialogue.Pattern

inductive Token where
  | openGroup
  | closeGroup
  | bar
  | atom (regex : Regex)
  | repetition (least : Nat) (most : Option Nat) (greedy : Bool)
deriving DecidableEq, Repr

/-- A member of a character class as written: one unit, which may bound a range, a set, or a
hyphen without a backslash. -/
inductive Member where
  | unit (value : Nat)
  | part (part : ClassPart)
  | hyphen
deriving DecidableEq, Repr

def Member.toPart : Member → ClassPart
  | .unit value => .range value value
  | .part named => named
  | .hyphen => .range 0x2D 0x2D

def Member.toRegex (member : Member) : Regex := .unit ⟨false, [member.toPart]⟩

namespace Grammar

def hexDigit (char : Char) : Option Nat :=
  let code := char.toNat
  if 0x30 ≤ code && code ≤ 0x39 then some (code - 0x30)
  else if 0x61 ≤ code && code ≤ 0x66 then some (code - 0x57)
  else if 0x41 ≤ code && code ≤ 0x46 then some (code - 0x37)
  else none

def hexDigits : Nat → Nat → List Char → Option (Nat × List Char)
  | 0, value, rest => some (value, rest)
  | _ + 1, _, [] => none
  | count + 1, value, char :: rest => do
      let digit ← hexDigit char
      hexDigits count (value * 16 + digit) rest

def units (char : Char) : List Nat :=
  let code := char.toNat
  if code < 0x10000 then [code]
  else [0xD800 + (code - 0x10000) / 0x400, 0xDC00 + (code - 0x10000) % 0x400]

def octalDigit (char : Char) : Option Nat :=
  let code := char.toNat
  if 0x30 ≤ code && code ≤ 0x37 then some (code - 0x30) else none

/-- The octal number that continues a value, and what follows it: digits as long as the value
stays below 256, at most as many as the first number. -/
def octal : Nat → Nat → List Char → Nat × List Char
  | 0, value, rest => (value, rest)
  | _ + 1, value, [] => (value, [])
  | count + 1, value, char :: rest =>
      match octalDigit char with
      | some digit =>
          if value * 8 + digit < 256 then octal count (value * 8 + digit) rest
          else (value, char :: rest)
      | none => (value, char :: rest)

/-- Whether a character behind `\c` names a control character. Inside a class digits and the
underscore do so too. -/
def namesControl (inClass : Bool) (char : Char) : Bool :=
  char.isAlpha || (inClass && (char.isDigit || char == '_'))

/-- What a backslash and the characters behind it stand for, inside a class or outside, apart
from the conditions on places. A character without a meaning of its own stands for itself. -/
def escaped (inClass : Bool) : List Char → Option (Member × List Char)
  | [] => none
  | char :: rest =>
      if char == 'd' then some (.part (.digit true), rest)
      else if char == 'D' then some (.part (.digit false), rest)
      else if char == 'w' then some (.part (.word true), rest)
      else if char == 'W' then some (.part (.word false), rest)
      else if char == 's' then some (.part (.blank true), rest)
      else if char == 'S' then some (.part (.blank false), rest)
      else if char == 't' then some (.unit 0x09, rest)
      else if char == 'n' then some (.unit 0x0A, rest)
      else if char == 'v' then some (.unit 0x0B, rest)
      else if char == 'f' then some (.unit 0x0C, rest)
      else if char == 'r' then some (.unit 0x0D, rest)
      else if (octalDigit char).isSome then
        let (value, rest') := octal 3 0 (char :: rest)
        some (.unit value, rest')
      else if char == 'x' then
        match hexDigits 2 0 rest with
        | some (value, rest') => some (.unit value, rest')
        | none => some (.unit char.toNat, rest)
      else if char == 'u' then
        match hexDigits 4 0 rest with
        | some (value, rest') => some (.unit value, rest')
        | none => some (.unit char.toNat, rest)
      else if char == 'c' then
        match rest with
        | letter :: rest' =>
            if namesControl inClass letter then some (.unit (letter.toNat % 32), rest')
            else some (.unit 0x5C, char :: rest)
        | [] => some (.unit 0x5C, char :: rest)
      else some (.unit char.toNat, rest)

/-- The members of a class up to its closing bracket, and what follows it. Inside a class
`\b` is the backspace. The first number bounds the characters still to be read. -/
def members : Nat → List Char → Option (List Member × List Char)
  | 0, _ => none
  | _ + 1, [] => none
  | _ + 1, ']' :: rest => some ([], rest)
  | fuel + 1, '\\' :: 'b' :: rest =>
      (members fuel rest).map fun (found, rest') => (.unit 8 :: found, rest')
  | fuel + 1, '\\' :: rest => do
      let (member, rest') ← escaped true rest
      let (found, rest'') ← members fuel rest'
      return (member :: found, rest'')
  | fuel + 1, '-' :: rest =>
      (members fuel rest).map fun (found, rest') => (.hyphen :: found, rest')
  | fuel + 1, char :: rest =>
      (members fuel rest).map fun (found, rest') => ((units char).map Member.unit ++ found, rest')

def bound? : Member → Option Nat
  | .unit value => some value
  | .hyphen => some 0x2D
  | .part _ => none

/-- Members as parts: a hyphen between two units makes a range of them, and elsewhere it
stands for itself. A range may not run backwards. -/
def parts : List Member → Option (List ClassPart)
  | first :: .hyphen :: last :: rest =>
      match bound? first, bound? last with
      | some low, some high =>
          if low ≤ high then (parts rest).map (.range low high :: ·) else none
      | _, _ => (parts rest).map ([first.toPart, .range 0x2D 0x2D, last.toPart] ++ ·)
  | first :: rest => (parts rest).map (first.toPart :: ·)
  | [] => some []

def unitSet (chars : List Char) : Option (UnitSet × List Char) :=
  let (negated, body) := match chars with
    | '^' :: rest => (true, rest)
    | rest => (false, rest)
  do
    let (found, rest) ← members (body.length + 1) body
    let parts ← parts found
    return (⟨negated, parts⟩, rest)

def number (digits : List Char) : Nat :=
  digits.foldl (fun value digit => value * 10 + (digit.toNat - 0x30)) 0

def counted (chars : List Char) : Option (Nat × Option Nat × List Char) :=
  let least := chars.takeWhile Char.isDigit
  if least.isEmpty then none
  else match chars.dropWhile Char.isDigit with
    | '}' :: rest => some (number least, some (number least), rest)
    | ',' :: rest =>
        let most := rest.takeWhile Char.isDigit
        match rest.dropWhile Char.isDigit with
        | '}' :: rest' =>
            some (number least, if most.isEmpty then none else some (number most), rest')
        | _ => none
    | _ => none

def greediness : List Char → Bool × List Char
  | '?' :: rest => (false, rest)
  | rest => (true, rest)

def repetition (least : Nat) (most : Option Nat) (rest : List Char) : Token × List Char :=
  let (greedy, rest') := greediness rest
  (.repetition least most greedy, rest')

/-- How many groups a source numbers: its opening parentheses outside classes, without a
backslash in front and without a question mark behind. -/
def groupCount (inClass : Bool) : List Char → Nat
  | [] => 0
  | '\\' :: _ :: rest => groupCount inClass rest
  | '(' :: '?' :: rest => groupCount inClass rest
  | '(' :: rest => groupCount inClass rest + (if inClass then 0 else 1)
  | '[' :: rest => groupCount true rest
  | ']' :: rest => groupCount false rest
  | _ :: rest => groupCount inClass rest

def refersToGroup (groups : Nat) (chars : List Char) : Bool :=
  let digits := chars.takeWhile Char.isDigit
  digits.head?.any (· != '0') && number digits ≤ groups

/-- The tokens that begin a source with so many groups, and what follows them. A character
above U+FFFF gives two. -/
def tokens? (groups : Nat) : List Char → Option (List Token × List Char)
  | [] => none
  | '(' :: '?' :: ':' :: rest => some ([.openGroup], rest)
  | '(' :: '?' :: _ => none
  | '(' :: rest => some ([.openGroup], rest)
  | ')' :: rest => some ([.closeGroup], rest)
  | '|' :: rest => some ([.bar], rest)
  | '.' :: rest => some ([.atom .dot], rest)
  | '^' :: rest => some ([.atom (.anchor .start)], rest)
  | '$' :: rest => some ([.atom (.anchor .finish)], rest)
  | '*' :: rest => let (token, rest') := repetition 0 none rest; some ([token], rest')
  | '+' :: rest => let (token, rest') := repetition 1 none rest; some ([token], rest')
  | '?' :: rest => let (token, rest') := repetition 0 (some 1) rest; some ([token], rest')
  | '[' :: rest => (unitSet rest).map fun (set, rest') => ([.atom (.unit set)], rest')
  | '{' :: rest =>
      match counted rest with
      | some (least, most, rest') =>
          let (token, rest'') := repetition least most rest'
          some ([token], rest'')
      | none => some ([.atom (.literal 0x7B)], rest)
  | '\\' :: 'b' :: rest => some ([.atom (.anchor .boundary)], rest)
  | '\\' :: 'B' :: rest => some ([.atom (.anchor .inside)], rest)
  | '\\' :: rest =>
      if refersToGroup groups rest then none
      else (escaped false rest).map fun (member, rest') => ([.atom member.toRegex], rest')
  | char :: rest => some ((units char).map fun value => .atom (.literal value), rest)

/-- All tokens of a source with so many groups. The second number bounds the tokens still to
be read. -/
def tokens (groups : Nat) : Nat → List Char → Option (List Token)
  | _, [] => some []
  | 0, _ :: _ => none
  | fuel + 1, chars => do
      let (found, rest) ← tokens? groups chars
      let others ← tokens groups fuel rest
      return found ++ others

/-- A group under construction: the alternatives already closed, the last first, and the
items of the one at hand, the last first. -/
structure Frame where
  closed : List Regex
  items : List Regex
deriving DecidableEq, Repr

namespace Frame

def start : Frame := ⟨[], []⟩

def push (frame : Frame) (regex : Regex) : Frame := { frame with items := regex :: frame.items }

def bar (frame : Frame) : Frame := ⟨Regex.concat frame.items.reverse :: frame.closed, []⟩

def regex (frame : Frame) : Regex :=
  frame.closed.foldl (fun others alternative => .alt alternative others)
    (Regex.concat frame.items.reverse)

end Frame

/-- The expression that tokens spell, given the innermost open group and the ones around it.
A repetition applies to the item in front of it, which may be neither a condition on a place
nor a repetition; a group is never either of the two. -/
def build : List Token → Frame → List Frame → Option Regex
  | [], frame, [] => some frame.regex
  | [], _, _ :: _ => none
  | .openGroup :: rest, frame, outer => build rest .start (frame :: outer)
  | .closeGroup :: _, _, [] => none
  | .closeGroup :: rest, frame, enclosing :: outer =>
      build rest (enclosing.push frame.regex) outer
  | .bar :: rest, frame, outer => build rest frame.bar outer
  | .atom regex :: rest, frame, outer => build rest (frame.push regex) outer
  | .repetition least most greedy :: rest, frame, outer =>
      match frame.items with
      | [] => none
      | .anchor _ :: _ => none
      | .iterate .. :: _ => none
      | item :: others =>
          build rest { frame with items := .iterate item least most greedy :: others } outer

end Grammar

def Regex.read (source : String) : Option Regex := do
  let chars := source.toList
  let tokens ← Grammar.tokens (Grammar.groupCount false chars) (chars.length + 1) chars
  Grammar.build tokens .start []

end ImapDialogue.Pattern
