import ImapDialogue.Mail.EncodedWord
import ImapDialogue.Mail.FileName
import ImapDialogue.Mail.Header
import ImapDialogue.Mail.Parameter
import ImapDialogue.Mail.Transfer

/-!
What a header says about the body behind it: its kind, how it is encoded, and, for a body of
several parts, the boundary between them.
-/

namespace ImapDialogue.Mail

/-- What a header says about its body. The kind is empty if the header has a field for it that
names none. -/
structure Content where
  kind : String
  disposition : String
  encoding : TransferEncoding
  boundary : Option Bytes
deriving DecidableEq, Repr

namespace Content

def segmentsOf (fields : List Field) (name : String) : List Segment :=
  Segment.ofText (Header.first fields name)

def withoutNote (chars : List Char) : List Char :=
  let note := chars.dropWhile (· != '(')
  if note.contains ')' then
    chars.takeWhile (· != '(') ++ (note.reverse.takeWhile (· != ')')).reverse
  else chars

/-- The kind of a body whose header has no field for it. The name of a file may tell it; else
the body is plain text. -/
def untoldKind (disposition : List Segment) : String :=
  ((Segment.parameter? disposition "filename").bind fun name =>
    FileName.kind? (EncodedWord.decode (String.ofList name))).getD "text/plain"

def ofFields (fields : List Field) : Content :=
  let kind := segmentsOf fields "content-type"
  let disposition := segmentsOf fields "content-disposition"
  { kind :=
      if fields.any (·.name == "content-type") then Segment.value kind
      else untoldKind disposition
    disposition := EncodedWord.decode (Segment.value disposition)
    encoding := .named (Segment.lowered
      (withoutNote (Header.first fields "content-transfer-encoding").toList))
    boundary := (Segment.parameter? kind "boundary").map fun chars =>
      Utf8.encode (String.ofList chars) }

def isMultipart (content : Content) : Bool := content.kind.startsWith "multipart/"

end Content

end ImapDialogue.Mail
