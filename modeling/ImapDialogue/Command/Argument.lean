import ImapDialogue.Pattern.Basic
import ImapDialogue.Wire.Utf8

/-!
Command lines and what answers them. An argument goes out as it is when every character is safe
there, and between quotes otherwise; inside quotes a quote and a backslash carry a backslash in
front. Nothing else is escaped, line ends included.

What a client waits for is a whole line, line end included: a greeting, the completion of a command
in its two forms, or the server's farewell.
-/

namespace ImapDialogue

namespace Argument

/-- Characters that may stand in an argument without quotes: visible ASCII apart from the
ones that open or close a list, a literal or a quoted string, and the wildcards. -/
def isPlain (char : Char) : Bool :=
  0x21 ≤ char.toNat && char.toNat ≤ 0x7E &&
    !(['(', ')', '{', '%', '*', '"', '\\', ']'].contains char)

/-- A quote or a backslash carries a backslash, every other character stands for itself. -/
def escape (char : Char) : List Char :=
  if char == '"' || char == '\\' then ['\\', char] else [char]

def spell (chars : List Char) : List Char :=
  if !chars.isEmpty && chars.all isPlain then chars
  else '"' :: (chars.flatMap escape ++ ['"'])

def render (value : String) : String := String.ofList (spell value.toList)

end Argument

namespace Command

/-- The flags of all these patterns: lines start and end inside the data too. -/
def flags : Pattern.Flags := ⟨false, false, true, false, false⟩

def greeting : Pattern := .expression "^\\* (OK|PREAUTH)\\b[^\\r\\n]*\\r?\\n" flags

def farewell : Pattern := .expression "^\\* BYE\\b[^\\r\\n]*\\r?\\n" flags

def wireText (text : String) : String := Bytes.toNarrow (Utf8.encode text)

def spelled (text : String) : String := String.ofList (Pattern.spell text.toList)

def success (tag marker : String) : Pattern :=
  .expression ("^" ++ spelled tag ++ " OK\\b[^\\r\\n]*" ++ spelled (wireText marker) ++
    "[^\\r\\n]*\\r?\\n") flags

def refusal (tag : String) : Pattern :=
  .expression ("^" ++ spelled tag ++ " (NO|BAD)\\b[^\\r\\n]*\\r?\\n") flags

def answers (tag marker : String) : List Pattern := [success tag marker, refusal tag, farewell]

def greetings : List Pattern := [greeting, farewell]

end Command

end ImapDialogue
