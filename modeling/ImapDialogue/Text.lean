/-!
Sequences cut at a separator, and texts between quotes as failures and notices show them.
-/

namespace ImapDialogue

namespace Parts

def between {α : Type} [BEq α] (separator : α) : List α → List (List α)
  | [] => [[]]
  | item :: rest =>
      if item == separator then [] :: between separator rest
      else match between separator rest with
        | [] => [[item]]
        | part :: parts => (item :: part) :: parts

end Parts

namespace Quoted

def hexDigit (value : Nat) : Char :=
  if value < 10 then Char.ofNat (0x30 + value) else Char.ofNat (0x57 + value)

/-- A quote, a backslash and every control character below the space are escaped, with a short form
where one exists and four hexadecimal digits elsewhere. Everything else stands for itself. -/
def escape (char : Char) : List Char :=
  if char == '"' then ['\\', '"']
  else if char == '\\' then ['\\', '\\']
  else if char == '\n' then ['\\', 'n']
  else if char == '\r' then ['\\', 'r']
  else if char == '\t' then ['\\', 't']
  else if char == '\x08' then ['\\', 'b']
  else if char == '\x0c' then ['\\', 'f']
  else if char.toNat < 0x20 then
    ['\\', 'u', '0', '0', hexDigit (char.toNat / 16), hexDigit (char.toNat % 16)]
  else [char]

def render (text : String) : String :=
  String.ofList ('"' :: (text.toList.flatMap escape ++ ['"']))

end Quoted

end ImapDialogue
