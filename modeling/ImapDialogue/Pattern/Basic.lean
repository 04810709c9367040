import ImapDialogue.Pattern.Grammar
import ImapDialogue.Pattern.Matcher
import ImapDialogue.Text

/-!
Patterns to wait for: a text that has to appear as it is, or a regular expression. Also how
a pattern is shown in the text of a failure.
-/

namespace ImapDialogue

/-- What to look for in received data. An expression is kept as its source. -/
inductive Pattern where
  | text (wanted : String)
  | expression (source : String) (flags : Pattern.Flags)
deriving DecidableEq, Repr

namespace Pattern

def begins : List Char → Bytes → Bool
  | [], _ => true
  | _ :: _, [] => false
  | char :: chars, byte :: rest => char.toNat == byte.toNat && begins chars rest

inductive Probe where
  | text (chars : List Char)
  | expression (regex : Regex) (flags : Flags)
deriving DecidableEq, Repr

/-- The pattern ready for search. A source outside the grammar of `Regex.read` (one with a
look-around, a back-reference or a named group, or one that needs the flag for whole characters)
matches nowhere, so what is said of searches says of such an expression only that. -/
def probe : Pattern → Probe
  | .text wanted => .text wanted.toList
  | .expression source flags => .expression ((Regex.read source).getD .never) flags

/-- How many bytes a pattern matches at a place. -/
def Probe.lengthAt (cursor : Cursor) : Probe → Option Nat
  | .text chars => if begins chars cursor.rest then some chars.length else none
  | .expression regex flags => regex.lengthAt flags cursor

/-- How far to move on from a match that is passed over. A text may overlap with itself, so
the next place counts; an expression is looked for again behind the match, but always at
least one byte further. -/
def Probe.stride (length : Nat) : Probe → Nat
  | .text _ => 1
  | .expression _ _ => max length 1

def Flags.letters (flags : Flags) : String :=
  (if flags.isGlobal then "g" else "") ++ (if flags.ignoreCase then "i" else "") ++
    (if flags.multiline then "m" else "") ++ (if flags.dotAll then "s" else "") ++
    (if flags.sticky then "y" else "")

/-- The source of an expression as it is shown between slashes. A slash outside a class and a
line end are escaped unless a backslash stands in front of them already, and a line end is
always spelled with a letter. The two marks say whether a backslash is open and whether a
class is. -/
def shownSource : Bool → Bool → List Char → List Char
  | _, _, [] => []
  | escaped, inClass, char :: rest =>
      let mark := if escaped then [] else ['\\']
      if char == '\n' then mark ++ 'n' :: shownSource false inClass rest
      else if char == '\r' then mark ++ 'r' :: shownSource false inClass rest
      else if char == '\u2028' then mark ++ "u2028".toList ++ shownSource false inClass rest
      else if char == '\u2029' then mark ++ "u2029".toList ++ shownSource false inClass rest
      else if escaped then char :: shownSource false inClass rest
      else if char == '/' && !inClass then '\\' :: '/' :: shownSource false inClass rest
      else if char == '\\' then char :: shownSource true inClass rest
      else if char == '[' then char :: shownSource false true rest
      else if char == ']' then char :: shownSource false false rest
      else char :: shownSource false inClass rest

def shown : Pattern → String
  | .text wanted => Quoted.render wanted
  | .expression source flags =>
      let body :=
        if source.isEmpty then "(?:)" else String.ofList (shownSource false false source.toList)
      "/" ++ body ++ "/" ++ flags.letters

def shownList (patterns : List Pattern) : String := ", ".intercalate (patterns.map shown)

def isSpecial (char : Char) : Bool :=
  ['.', '*', '+', '?', '^', '$', '\x7b', '\x7d', '(', ')', '|', '[', ']', '\\'].contains char

/-- A source that matches exactly the given characters: the special ones carry a backslash. -/
def spell (chars : List Char) : List Char :=
  chars.flatMap fun char => if isSpecial char then ['\\', char] else [char]

end Pattern

end ImapDialogue
