import ImapDialogue.Number.Decimal
import ImapDialogue.Wire.Utf8

/-!
What a FETCH response carries: a sequence number and named values. Names keep the order in
which they first came; a name given again keeps its place and takes the later value.
-/

namespace ImapDialogue.Response

inductive Value where
  | nil
  | number (value : Number)
  | text (value : String)
  | bytes (value : Bytes)
  | list (items : List Value)
deriving Repr

/-- Named values in the order of their names' first appearance. -/
structure Attributes where
  entries : List (String × Value)
deriving Repr

namespace Attributes

def empty : Attributes := ⟨[]⟩

def get? (attributes : Attributes) (name : String) : Option Value := attributes.entries.lookup name

def replace (name : String) (value : Value) : List (String × Value) → List (String × Value)
  | [] => [(name, value)]
  | (other, old) :: rest =>
      if other = name then (name, value) :: rest else (other, old) :: replace name value rest

def set (attributes : Attributes) (name : String) (value : Value) : Attributes :=
  ⟨replace name value attributes.entries⟩

def ofList (settings : List (String × Value)) : Attributes :=
  settings.foldl (fun attributes (name, value) => attributes.set name value) empty

end Attributes

structure Record where
  sequence : Number
  attributes : Attributes
deriving Repr

def sourceNames : List String := ["BODY[]", "RFC822", "BINARY[]"]

def Value.source? : Value → Option Bytes
  | .bytes value => some value
  | .text value => some (Utf8.encode value)
  | _ => none

/-- The message that attributes carry: the first of the names whose value can be one. -/
def Attributes.source? (attributes : Attributes) : Option Bytes :=
  sourceNames.findSome? fun name => (attributes.get? name).bind Value.source?

end ImapDialogue.Response
