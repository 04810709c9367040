import ImapDialogue.Settings.Environment

/-!
Variables in a file, one an assignment. An assignment begins a line: an optional `export`, a
name, an equals sign, or a colon with white space behind it, and a value. The value is quoted
by one of three marks, and may then hold line ends, or it ends with the line or at a `#`.
White space, and a comment from a `#` on, may follow a quoted value. Lines that are no
assignment are passed over.
-/

namespace ImapDialogue

namespace EnvironmentFile

def isNameChar (char : Char) : Bool :=
  char.isAlphanum || char == '_' || char == '.' || char == '-'

def isLineEnd (char : Char) : Bool := char == '\n' || char == '\u2028' || char == '\u2029'

def unifyLineEnds : List Char → List Char
  | [] => []
  | '\r' :: '\n' :: rest => '\n' :: unifyLineEnds rest
  | '\r' :: rest => '\n' :: unifyLineEnds rest
  | char :: rest => char :: unifyLineEnds rest

def skipBlanks (chars : List Char) : List Char := chars.dropWhile Numeral.isBlank

def nextLine? : List Char → Option (List Char)
  | [] => none
  | char :: rest => if isLineEnd char then some rest else nextLine? rest

def endsLine (chars : List Char) : Bool :=
  match skipBlanks chars with
  | [] => true
  | '#' :: _ => true
  | _ => (chars.takeWhile Numeral.isBlank).any isLineEnd

def isMark (char : Char) : Bool := char == '\'' || char == '"' || char == '\x60'

/-- The places where a quoted part can end, each as what it encloses and what follows, the
preferred one in front: the first mark without a backslash, then the marks with one, the last
of them first. -/
def closings (mark : Char) : List Char → List (List Char × List Char)
  | [] => []
  | [char] => if char == mark then [([], [])] else []
  | char :: next :: rest =>
      if char == mark then [([], next :: rest)]
      else if char == '\\' && next == mark then
        (closings mark rest).map (fun (inside, behind) => ('\\' :: mark :: inside, behind)) ++
          [(['\\'], rest)]
      else (closings mark (next :: rest)).map fun (inside, behind) => (char :: inside, behind)

/-- A quoted value, its marks included, and what follows it. White space, even line ends, may
stand in front. -/
def quoted? (chars : List Char) : Option (List Char × List Char) :=
  match skipBlanks chars with
  | mark :: rest =>
      if isMark mark then
        ((closings mark rest).find? fun (_, behind) => endsLine behind).map
          fun (inside, behind) => (mark :: (inside ++ [mark]), behind)
      else none
  | [] => none

def plain (chars : List Char) : List Char × List Char :=
  (chars.takeWhile fun char => char != '#' && char != '\n',
    chars.dropWhile fun char => char != '#' && char != '\n')

def expand : List Char → List Char
  | [] => []
  | '\\' :: 'n' :: rest => '\n' :: expand rest
  | '\\' :: 'r' :: rest => '\r' :: expand rest
  | char :: rest => char :: expand rest

def enclosed? (mark : Char) : List Char → Option (List Char)
  | [] => none
  | char :: rest =>
      match enclosed? mark rest with
      | some inside => some (char :: inside)
      | none => if char == mark && rest.head?.all isLineEnd then some [] else none

/-- A value without the marks that enclose it. A mark at the beginning of any of its lines is
taken away together with the last one of its kind at the end of a line. The number says how
many characters are settled already, the truth value whether a line begins. -/
def unquoted : Nat → Bool → List Char → List Char
  | _, _, [] => []
  | settled + 1, _, char :: rest => unquoted settled (isLineEnd char) rest
  | 0, begins, char :: rest =>
      match if begins && isMark char then enclosed? char rest else none with
      | some inside => inside ++ unquoted (inside.length + 1) false rest
      | none => char :: unquoted 0 (isLineEnd char) rest

def unquote (chars : List Char) : List Char := unquoted 0 true chars

/-- What a value stands for: the white space around it and its marks do not count, and behind
a double quote at its beginning line ends are expanded. -/
def meaning (chars : List Char) : String :=
  let value := Numeral.trim chars
  String.ofList (if value.head? == some '"' then expand (unquote value) else unquote value)

def assigned? (chars : List Char) : Option (List Char) :=
  match skipBlanks chars, chars with
  | '=' :: rest, _ => some rest
  | _, ':' :: blank :: rest => if Numeral.isBlank blank then some rest else none
  | _, _ => none

def named? (chars : List Char) : Option ((String × String) × List Char) := do
  let name := chars.takeWhile isNameChar
  if name.isEmpty then none
  let rest ← assigned? (chars.dropWhile isNameChar)
  let (value, behind) := (quoted? rest).getD (plain rest)
  return ((String.ofList name, meaning value), behind)

def exported? (chars : List Char) : Option (List Char) :=
  match chars with
  | 'e' :: 'x' :: 'p' :: 'o' :: 'r' :: 't' :: blank :: rest =>
      if Numeral.isBlank blank then some (skipBlanks rest) else none
  | _ => none

/-- The assignment a line begins with, and what follows it. White space may stand in front,
line ends included. -/
def assignment? (line : List Char) : Option ((String × String) × List Char) :=
  let chars := skipBlanks line
  ((exported? chars).bind named?).or (named? chars)

def assignments : Nat → List Char → List (String × String)
  | 0, _ => []
  | count + 1, line =>
      let (found, behind) := match assignment? line with
        | some (found, behind) => ([found], behind)
        | none => ([], line)
      match nextLine? behind with
      | some rest => found ++ assignments count rest
      | none => found

def read (content : String) : List (String × String) :=
  let chars := unifyLineEnds content.toList
  assignments (chars.length + 1) chars

end EnvironmentFile

namespace Environment

/-- Takes from a file the variables that are not set, even if to an empty text. Of several
values in the file the last counts. -/
def completeFrom (environment : Environment) (content : String) : Environment :=
  ⟨environment.entries ++ (EnvironmentFile.read content).reverse⟩

end Environment

end ImapDialogue
