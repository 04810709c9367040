import ImapDialogue.Number.Numeral
import ImapDialogue.Text

/-!
Fields that have a value and parameters. A field is a row of segments between semicolons: the
value first, then parameters with their names. A parameter may be spread over several sections,
whose names carry a star and a number, and a section may carry a character set, which turns the
whole parameter into an encoded word.
-/

namespace ImapDialogue.Mail

abbrev Segment := Option String × List Char

namespace Segment

inductive Place where
  | name
  | value
  | quoted
deriving DecidableEq, Repr

def lowered (chars : List Char) : String :=
  String.ofList ((Numeral.trim chars).map Char.toLower)

/-- The segments of a field. A name ends at an equals sign, a value at a semicolon outside
quotes. In a value quotes do not count, and a backslash lets the next character stand for
itself. `name` is the last name, and `text` what has been read since, the last character
first. -/
def scan (place : Place) (escaped : Bool) (name : Option String) (text : List Char) :
    List Char → List Segment
  | [] =>
      if place = .name then [(some (lowered text.reverse), [])]
      else [(name, Numeral.trim text.reverse)]
  | char :: rest =>
      if place = .name then
        if char == '=' then scan .value false (some (lowered text.reverse)) [] rest
        else scan .name false name (char :: text) rest
      else if escaped then scan place false name (char :: text) rest
      else if char == '\\' then scan place true name text rest
      else if char == '"' then
        scan (if place = .quoted then .value else .quoted) false name text rest
      else if char == ';' && place = .value then
        (name, Numeral.trim text.reverse) :: scan .name false name [] rest
      else scan place false name (char :: text) rest

def ofText (text : String) : List Segment := scan .value false none [] text.toList

def value (segments : List Segment) : String := lowered ((segments.lookup none).getD [])

end Segment

/-- A section of a parameter: its number, whether a star ends its name, and its text. -/
structure Section where
  number : Nat
  isStarred : Bool
  text : List Char
deriving DecidableEq, Repr

namespace Section

/-- The name of a parameter, given that of a section with the last character first, then the
section's number and whether a star ends its name. The star stands for number zero if there is
no other. -/
def split? : List Char → Option (List Char × Nat × Bool)
  | '*' :: rest =>
      match numbered? rest with
      | some (name, number) => some (name, number, true)
      | none => some (rest.reverse, 0, true)
  | reversed => (numbered? reversed).map fun (name, number) => (name, number, false)
where
  numbered? (reversed : List Char) : Option (List Char × Nat) :=
    match reversed.takeWhile Char.isDigit, reversed.dropWhile Char.isDigit with
    | [], _ => none
    | digits, '*' :: name =>
        (Numeral.digitsValue 10 digits.reverse).map fun number => (name.reverse, number)
    | _, _ => none

def of? (name : String) (parameter : String × List Char) : Option Section :=
  match split? parameter.1.toList.reverse with
  | some (whole, number, isStarred) =>
      if whole == name.toList then some ⟨number, isStarred, parameter.2⟩ else none
  | none => none

/-- The character set at the beginning of a text and the text behind it. An apostrophe ends the
set, and a second one the language that follows it. -/
def charset? (text : List Char) : Option (List Char × List Char) :=
  match Parts.between '\'' text with
  | charset :: _ :: rest :: others =>
      some (if charset.isEmpty then "utf-8".toList else charset,
        ['\''].intercalate (rest :: others))
  | _ => none

/-- The character set that a section carries, and its text behind it. Only a section of number
zero whose name ends in a star may carry one. -/
def carried? (part : Section) : Option (List Char × List Char) :=
  if part.isStarred && part.number = 0 then charset? part.text else none

def body (part : Section) : List Char := (part.carried?.map Prod.snd).getD part.text

def hexDigit (value : Nat) : Char :=
  if value < 10 then Char.ofNat (0x30 + value) else Char.ofNat (0x57 + value)

/-- A character as it stands in the text of an encoded word. A percent sign begins an escaped
byte. -/
def spelled (char : Char) : List Char :=
  if char == '%' then ['=']
  else if char == ' ' then ['_']
  else if char == '=' || char == '?' || char == '_' || Numeral.isBlank char then
    ['=', hexDigit (char.toNat / 16 % 16), hexDigit (char.toNat % 16)]
  else [char]

/-- The parameter that sections make up, by their numbers. With a character set it is an encoded
word. -/
def whole (parts : List Section) : List Char :=
  let text := (parts.mergeSort fun first second => first.number ≤ second.number).flatMap body
  match (parts.filterMap carried?).getLast? with
  | some (charset, _) =>
      "=?".toList ++ charset ++ "?Q?".toList ++ text.flatMap spelled ++ "?=".toList
  | none => text

end Section

namespace Segment

def settle (found : List (String × List Char)) (segment : Segment) : List (String × List Char) :=
  match segment with
  | (none, _) => found
  | (some name, text) =>
      if found.any (·.1 == name) then
        found.map fun parameter => if parameter.1 == name then (name, text) else parameter
      else found ++ [(name, text)]

def parameter? (segments : List Segment) (name : String) : Option (List Char) :=
  let settled := segments.foldl settle []
  let found := match settled.filterMap (Section.of? name) with
    | [] => settled.lookup name
    | parts => some (Section.whole parts)
  found.filter (!·.isEmpty)

end Segment

end ImapDialogue.Mail
