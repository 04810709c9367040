import ImapDialogue.Wire.Bytes

/-!
Regular expressions over bytes. A unit of an expression is a code unit of its source, up to
16 bits wide, so an expression may name characters that no byte spells; those match nothing.
-/

namespace ImapDialogue.Pattern

/-- The flags of an expression. The flags for a global and for a sticky search are shown with
the expression but change no search. -/
structure Flags where
  isGlobal : Bool
  ignoreCase : Bool
  multiline : Bool
  dotAll : Bool
  sticky : Bool
deriving DecidableEq, Repr, Inhabited

inductive ClassPart where
  | range (low high : Nat)
  | digit (inside : Bool)
  | word (inside : Bool)
  | blank (inside : Bool)
deriving DecidableEq, Repr

structure UnitSet where
  negated : Bool
  parts : List ClassPart
deriving DecidableEq, Repr

inductive Anchor where
  | start
  | finish
  | boundary
  | inside
deriving DecidableEq, Repr

/-- An expression. Groups only group: what they enclose is not recorded. -/
inductive Regex where
  | empty
  | never
  | unit (set : UnitSet)
  | dot
  | anchor (condition : Anchor)
  | seq (first second : Regex)
  | alt (first second : Regex)
  | iterate (body : Regex) (least : Nat) (most : Option Nat) (greedy : Bool)
deriving DecidableEq, Repr

def Regex.literal (unit : Nat) : Regex := .unit ⟨false, [.range unit unit]⟩

def Regex.concat (nodes : List Regex) : Regex := nodes.foldr .seq .empty

namespace ClassPart

def isDigit (unit : Nat) : Bool := 0x30 ≤ unit && unit ≤ 0x39

def isWord (unit : Nat) : Bool :=
  isDigit unit || (0x41 ≤ unit && unit ≤ 0x5A) || (0x61 ≤ unit && unit ≤ 0x7A) || unit == 0x5F

def isBlank (unit : Nat) : Bool :=
  (0x09 ≤ unit && unit ≤ 0x0D) || unit == 0x20 || unit == 0xA0 || unit == 0x1680 ||
    (0x2000 ≤ unit && unit ≤ 0x200A) || unit == 0x2028 || unit == 0x2029 || unit == 0x202F ||
    unit == 0x205F || unit == 0x3000 || unit == 0xFEFF

def holds : ClassPart → Nat → Bool
  | .range low high, unit => low ≤ unit && unit ≤ high
  | .digit inside, unit => isDigit unit == inside
  | .word inside, unit => isWord unit == inside
  | .blank inside, unit => isBlank unit == inside

end ClassPart

/-- The units that agree with a byte when case is ignored: those whose single-character
capital form is the same. A letter outside ASCII never agrees with one inside it. -/
def caseVariants (byte : UInt8) : List Nat :=
  let unit := byte.toNat
  if 0x41 ≤ unit && unit ≤ 0x5A then [unit, unit + 0x20]
  else if 0x61 ≤ unit && unit ≤ 0x7A then [unit, unit - 0x20]
  else if unit == 0xB5 then [unit, 0x39C, 0x3BC]
  else if 0xC0 ≤ unit && unit ≤ 0xDE && unit != 0xD7 then [unit, unit + 0x20]
  else if 0xE0 ≤ unit && unit ≤ 0xFE && unit != 0xF7 then [unit, unit - 0x20]
  else if unit == 0xFF then [unit, 0x178]
  else [unit]

namespace UnitSet

/-- Whether the set holds a byte. Without case, one of the byte's variants has to be among
the parts before a negation is applied. -/
def accepts (ignoreCase : Bool) (set : UnitSet) (byte : UInt8) : Bool :=
  let units := if ignoreCase then caseVariants byte else [byte.toNat]
  (units.any fun unit => set.parts.any (·.holds unit)) != set.negated

end UnitSet

end ImapDialogue.Pattern
