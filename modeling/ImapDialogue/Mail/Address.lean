import ImapDialogue.Mail.EncodedWord
import ImapDialogue.Mail.HostName
import ImapDialogue.Number.Numeral

/-!
Addresses in header fields: names with an address in angle brackets, bare addresses, comments
in parentheses, groups, and lists of these. Reading never fails; what holds no address becomes
a name.
-/

namespace ImapDialogue.Mail

inductive Address where
  | person (name address : String)
  | group (name : String) (members : List Address)
deriving Repr

namespace Address

def text : Address → String
  | .person _ address => address
  | .group _ _ => ""

/-- A piece of an address field: a mark, or text between marks. -/
inductive Token where
  | mark (char : Char)
  | text (chars : List Char)
deriving DecidableEq, Repr

def closing? : Char → Option Char
  | '"' => some '"'
  | '(' => some ')'
  | '<' => some '>'
  | ':' => some ';'
  | _ => none

def isMark (char : Char) : Bool := ['"', '(', '<', ',', ':', ';'].contains char

def kept (char : Char) : List Char :=
  if char == '\n' then [' ']
  else if 0x21 ≤ char.toNat || char == ' ' || char == '\t' then [char] else []

def textToken (reversed : List Char) : List Token :=
  let chars := Numeral.trim reversed.reverse
  if chars.isEmpty then [] else [.text chars]

/-- The tokens of a field. `expected` is the mark that closes what is open, and `text` the
text since the last mark, the last character first. Inside quotes a backslash lets the next
character stand for itself. -/
def tokens (expected : Option Char) (text : List Char) : List Char → List Token
  | [] => textToken text
  | '\\' :: rest =>
      if expected == some '"' then
        match rest with
        | [] => textToken text
        | char :: rest' => tokens expected (kept char ++ text) rest'
      else tokens expected ('\\' :: text) rest
  | char :: rest =>
      if expected == some char then textToken text ++ .mark char :: tokens none [] rest
      else if expected.isNone && isMark char then
        textToken text ++ .mark char :: tokens (closing? char) [] rest
      else tokens expected (kept char ++ text) rest

def entries (current : List Token) : List Token → List (List Token)
  | [] => if current.isEmpty then [] else [current.reverse]
  | .mark char :: rest =>
      if char == ',' || char == ';' then
        if current.isEmpty then entries [] rest else current.reverse :: entries [] rest
      else entries (.mark char :: current) rest
  | token :: rest => entries (token :: current) rest

inductive Place where
  | text
  | address
  | comment
  | group
deriving DecidableEq, Repr

def Place.after : Char → Place
  | '<' => .address
  | '(' => .comment
  | ':' => .group
  | _ => .text

structure Entry where
  text : List (List Char)
  address : List (List Char)
  comment : List (List Char)
  group : List (List Char)
  hasGroup : Bool
deriving Repr

namespace Entry

def empty : Entry := ⟨[], [], [], [], false⟩

def put (entry : Entry) (place : Place) (chars : List Char) : Entry :=
  match place with
  | .text => { entry with text := chars :: entry.text }
  | .address => { entry with address := chars :: entry.address }
  | .comment => { entry with comment := chars :: entry.comment }
  | .group => { entry with group := chars :: entry.group }

end Entry

def bracketed (chars : List Char) : List Char :=
  if chars.contains '<' then ((chars.dropWhile (· != '<')).drop 1).dropWhile Numeral.isBlank
  else chars

def sort (place : Place) (entry : Entry) : List Token → Entry
  | [] => entry
  | .mark char :: rest =>
      let entry := if char == ':' then { entry with hasGroup := true } else entry
      sort (.after char) entry rest
  | .text chars :: rest =>
      let chars := if place = .address then bracketed chars else chars
      sort place (entry.put place chars) rest

def isAddress (chars : List Char) : Bool :=
  let user := chars.takeWhile (· != '@')
  match chars.dropWhile (· != '@') with
  | _ :: host =>
      !user.isEmpty && !host.isEmpty && !host.contains '@' && !chars.any Numeral.isBlank
  | [] => false

def isWordChar (char : Char) : Bool := char.isAlphanum || char == '_'

def isEdge (before after : Option Char) : Bool := before.any isWordChar != after.any isWordChar

/-- The longest beginning of a text that ends where a word begins or ends; it is not empty. -/
def toEdge? : List Char → Option (List Char)
  | [] => none
  | char :: rest =>
      match toEdge? rest with
      | some longer => some (char :: longer)
      | none => if isEdge (some char) rest.head? then some [char] else none

/-- The address that begins a text, and what follows it: from the edge of a word over an at sign
to the edge of a word, without white space. `before` is the character in front. -/
def prefixed? (before : Option Char) (chars : List Char) : Option (List Char × List Char) :=
  if isEdge before chars.head? then
    let user := chars.takeWhile fun char => char != '@' && !Numeral.isBlank char
    match chars.drop user.length with
    | '@' :: rest =>
        if user.isEmpty then none
        else
          (toEdge? (rest.takeWhile (!Numeral.isBlank ·))).map fun host =>
            (user ++ '@' :: host, rest.drop host.length)
    | _ => none
  else none

def within? (before : Option Char) : List Char → Option (List Char × List Char × List Char)
  | [] => none
  | char :: rest =>
      match prefixed? before (char :: rest) with
      | some (address, behind) => some ([], address, behind)
      | none =>
          (within? (some char) rest).map fun (front, address, behind) =>
            (char :: front, address, behind)

def without (front behind : List Char) : List Char :=
  Numeral.trim ((Numeral.trim front) ++ ' ' :: Numeral.trim behind)

/-- The first of some texts with an address inside it, together with the texts without the
address. -/
def searchWithin : List (List Char) → Option (List Char × List (List Char))
  | [] => none
  | chars :: others =>
      match within? none chars with
      | some (front, address, behind) => some (address, without front behind :: others)
      | none => (searchWithin others).map fun (address, others) => (address, chars :: others)

/-- An address found in plain texts, given with the last first: a text that is one as a whole,
or else one inside a text. The texts without it come along. -/
def search (texts : List (List Char)) : Option (List Char × List (List Char)) :=
  match texts.find? isAddress with
  | some whole => some (whole, texts.erase whole)
  | none => searchWithin texts

def spaced (texts : List (List Char)) : List Char := [' '].intercalate texts

def personOf (entry : Entry) : Address :=
  let (text, comment) :=
    if entry.text.isEmpty then (entry.comment, []) else (entry.text, entry.comment)
  let (text, address) :=
    if entry.address.isEmpty then
      match search text with
      | some (found, others) => (others, [found])
      | none => (text, [])
    else (text, entry.address)
  let text := if text.isEmpty then comment else text
  let address := address.reverse
  let text := spaced (text.reverse ++ address.drop 1)
  let address := (address.head?).getD []
  let shownAddress := if address.isEmpty then text else address
  let shownName := if text.isEmpty then address else text
  if shownAddress = shownName then
    if shownAddress.contains '@' then .person "" (String.ofList shownAddress)
    else .person (String.ofList shownName) ""
  else .person (String.ofList shownName) (String.ofList shownAddress)

/-- The addresses of a field as they are written. The first number bounds how deep groups
nest. -/
def parse : Nat → List Char → List Address
  | 0, _ => []
  | depth + 1, chars =>
      (entries [] (tokens none [] chars)).map fun tokens =>
        let entry := sort .text .empty tokens
        if entry.hasGroup then
          let name := if entry.text.isEmpty then entry.comment else entry.text
          .group (String.ofList (spaced name.reverse))
            (parse depth ([','].intercalate entry.group.reverse))
        else personOf entry

def name : Address → List Char
  | .person name _ => Numeral.trim name.toList
  | .group name _ => Numeral.trim name.toList

/-- Whether a text is made of encoded words in base 64 only. The first number bounds how many
there are. -/
def isEncoded : Nat → List Char → Bool
  | 0, _ => false
  | count + 1, chars =>
      match EncodedWord.begin? chars with
      | some (word, rest) =>
          word.encoding == .base64 &&
            (rest.isEmpty || isEncoded count (rest.dropWhile Numeral.isBlank))
      | none => false

def hidesAddresses (entry : Address) : Bool :=
  entry.text.isEmpty && isEncoded entry.name.length entry.name

def hidden (entry : Address) : List Address :=
  let chars := (EncodedWord.decode (String.ofList entry.name)).toList
  parse (chars.length + 1) chars

/-- Entries with the encoded words of their names decoded and their host names as they are shown.
An entry that hides addresses gives way to them; they come behind all others. The first number
bounds how deep groups nest. -/
def decoded : Nat → List Address → List Address
  | 0, found => found
  | depth + 1, found =>
      ((found.filter (!hidesAddresses ·)) ++ (found.filter hidesAddresses).flatMap hidden).map
        fun entry =>
          let name := EncodedWord.decode (String.ofList entry.name)
          match entry with
          | .person _ address => .person name (HostName.inAddress address)
          | .group _ members => .group name (decoded depth members)

def ofField (text : String) : List Address :=
  let chars := text.toList
  decoded (chars.length + 1) (parse (chars.length + 1) chars)

end Address

end ImapDialogue.Mail
