import ImapDialogue.Mail.Instant
import ImapDialogue.Number.Numeral

/-!
Dates as mails write them. A date is a row of numbers, words and signs: words in front of the
first number do not count, a number in front of a colon belongs to the time of day, other
numbers to the calendar date, a month has a name, and a sign behind the time of day begins the
distance from Greenwich. Text in parentheses does not count. A date that begins with a year of
four digits, or of six with a sign, is first read by stricter rules, with hyphens between its
numbers; what these rules leave over is read by the others.
-/

namespace ImapDialogue.Mail.Date

/-- A piece of a date. A number comes with how many digits it was written, a word with its
first three letters in small form and its length. -/
inductive Token where
  | number (value length : Nat)
  | word (start : List Char) (length : Nat)
  | symbol (char : Char)
  | blank
  | other
deriving DecidableEq, Repr

/-- White space between pieces. The line ends beyond ASCII are none. -/
def isBlank (char : Char) : Bool := Numeral.isBlank char && char != '\u2028' && char != '\u2029'

def inWord (char : Char) : Bool := 0x41 ≤ char.toNat && !isBlank char

/-- How many characters a text in parentheses takes, given how many are open. -/
def comment : Nat → List Char → Nat
  | _, [] => 0
  | depth, char :: rest =>
      if char == ')' then if depth ≤ 1 then 1 else comment (depth - 1) rest + 1
      else if char == '(' then comment (depth + 1) rest + 1
      else comment depth rest + 1

/-- The value of a number: leading zeros do not count, and nine digits at most do. -/
def value (digits : List Char) : Nat :=
  ((digits.dropWhile (· == '0')).take 9).foldl
    (fun value digit => value * 10 + (digit.toNat - 0x30)) 0

def token? : List Char → Option (Token × Nat)
  | [] => none
  | char :: rest =>
      if char.isDigit then
        let digits := (char :: rest).takeWhile Char.isDigit
        some (.number (value digits) digits.length, digits.length)
      else if [':', '-', '+', '.', ')'].contains char then some (.symbol char, 1)
      else if inWord char then
        let word := (char :: rest).takeWhile inWord
        some (.word ((word.take 3).map Char.toLower) word.length, word.length)
      else if isBlank char then some (.blank, ((char :: rest).takeWhile isBlank).length)
      else if char == '(' then some (.other, comment 0 (char :: rest))
      else some (.other, 1)

/-- The pieces of a text. The number says how many characters still belong to the last one. -/
def tokens : Nat → List Char → List Token
  | _, [] => []
  | skip + 1, _ :: rest => tokens skip rest
  | 0, char :: rest =>
      match token? (char :: rest) with
      | some (token, length) => token :: tokens (length - 1) rest
      | none => []

inductive Keyword where
  | month (number : Nat)
  | half (offset : Nat)
  | zone (hours : Int)
  | unknown
deriving DecidableEq, Repr

def months : List (String × Nat) :=
  [("jan", 1), ("feb", 2), ("mar", 3), ("apr", 4), ("may", 5), ("jun", 6), ("jul", 7),
    ("aug", 8), ("sep", 9), ("oct", 10), ("nov", 11), ("dec", 12)]

def zones : List (String × Int) :=
  [("ut", 0), ("utc", 0), ("z", 0), ("gmt", 0), ("cdt", -5), ("cst", -6), ("edt", -4),
    ("est", -5), ("mdt", -6), ("mst", -7), ("pdt", -7), ("pst", -8)]

/-- The meaning of a word. Only the name of a month may be longer than three letters. -/
def keyword (start : List Char) (length : Nat) : Keyword :=
  let name := String.ofList start
  match months.lookup name with
  | some number => .month number
  | none =>
      if 3 < length then .unknown
      else if name == "am" then .half 0
      else if name == "pm" then .half 12
      else match zones.lookup name with
        | some hours => .zone hours
        | none => .unknown

/-- What has been read: the calendar numbers and those of the time of day, each in order, a
named month, the offset of a half day, and the distance from Greenwich. -/
structure State where
  day : List Int
  month : Option Nat
  time : List Nat
  half : Option Nat
  negative : Bool
  zoneHour : Option Nat
  zoneMinute : Option Nat
  numbered : Bool
deriving DecidableEq, Repr

namespace State

def empty : State := ⟨[], none, [], none, false, none, none, false⟩

def expectsTime (state : State) (number : Nat) : Bool :=
  match state.time.length with
  | 1 => number < 60
  | 2 => number < 60
  | 3 => number < 1000
  | _ => false

def expectsZone (state : State) (number : Nat) : Bool :=
  state.zoneHour.isSome && state.zoneMinute.isNone && number < 60

def isGreenwich (state : State) : Bool := state.zoneHour == some 0 && state.zoneMinute == some 0

def addTime (state : State) (number : Nat) : Option State :=
  if state.time.length < 4 then some { state with time := state.time ++ [number] } else none

def closeTime (state : State) (number : Nat) : State :=
  { state with time := (state.time ++ [number] ++ [0, 0, 0]).take 4 }

def addDay (state : State) (number : Nat) : Option State :=
  if state.day.length < 3 then some { state with day := state.day ++ [(number : Int)] } else none

def setZone (state : State) (hours : Int) : State :=
  { state with negative := hours < 0, zoneHour := some hours.natAbs, zoneMinute := some 0 }

end State

def fraction (number length : Nat) : Nat :=
  if length = 1 then number * 100
  else if length = 2 then number * 10
  else number / Nat.pow 10 (min length 9 - 3)

def skipHyphen : List Token → List Token
  | .symbol '-' :: rest => rest
  | rest => rest

theorem length_skipHyphen_le (tokens : List Token) :
    (skipHyphen tokens).length ≤ tokens.length := by
  unfold skipHyphen
  split
  · simp
  · exact Nat.le_refl _

def endsTime : List Token → Bool
  | [] => true
  | .blank :: _ => true
  | .symbol char :: _ => char == '+' || char == '-'
  | .word start length :: _ => start == ['z'] && length == 1
  | _ => false

def number (state : State) (value : Nat) : List Token → Option (State × List Token)
  | .symbol ':' :: .symbol ':' :: rest =>
      if state.time.isEmpty then some ({ state with time := [value, 0] }, rest) else none
  | .symbol ':' :: .symbol '.' :: rest => (state.addTime value).map (·, rest)
  | .symbol ':' :: rest => (state.addTime value).map (·, rest)
  | .symbol '.' :: rest =>
      if state.expectsTime value then
        match rest with
        | .number digits length :: rest' =>
            (state.addTime value).map fun state => (state.closeTime (fraction digits length), rest')
        | _ => none
      else other state value rest
  | rest => other state value rest
where
  other (state : State) (value : Nat) (rest : List Token) : Option (State × List Token) :=
    if state.expectsZone value then some ({ state with zoneMinute := some value }, rest)
    else if state.expectsTime value then
      if endsTime rest then some (state.closeTime value, rest) else none
    else (state.addDay value).map (·, skipHyphen rest)

theorem length_other {state next : State} {value : Nat} {tokens rest : List Token}
    (read : number.other state value tokens = some (next, rest)) : rest.length ≤ tokens.length := by
  unfold number.other at read
  split at read
  · simp only [Option.some.injEq, Prod.mk.injEq] at read
    simp [read.2]
  · split at read
    · split at read
      · simp only [Option.some.injEq, Prod.mk.injEq] at read
        simp [read.2]
      · simp at read
    · obtain ⟨_, _, same⟩ := Option.map_eq_some_iff.mp read
      simp only [Prod.mk.injEq] at same
      rw [← same.2]
      exact length_skipHyphen_le tokens

theorem length_number {state next : State} {value : Nat} {tokens rest : List Token}
    (read : number state value tokens = some (next, rest)) : rest.length ≤ tokens.length := by
  unfold number at read
  split at read
  · split at read
    · simp only [Option.some.injEq, Prod.mk.injEq] at read
      simp [← read.2]
      omega
    · simp at read
  · obtain ⟨_, _, same⟩ := Option.map_eq_some_iff.mp read
    simp only [Prod.mk.injEq] at same
    simp [← same.2]
    omega
  · obtain ⟨_, _, same⟩ := Option.map_eq_some_iff.mp read
    simp only [Prod.mk.injEq] at same
    simp [← same.2]
  · split at read
    · split at read
      · obtain ⟨_, _, same⟩ := Option.map_eq_some_iff.mp read
        simp only [Prod.mk.injEq] at same
        simp [← same.2]
        omega
      · simp at read
    · have := length_other read
      simp only [List.length_cons]
      omega
  · exact length_other read

def nextNumber : List Token → Nat × Nat × List Token
  | .number value length :: rest => (value, length, rest)
  | rest => (0, 0, rest)

theorem length_nextNumber_le (tokens : List Token) :
    (nextNumber tokens).2.2.length ≤ tokens.length := by
  unfold nextNumber
  split
  · simp
  · exact Nat.le_refl _

def zone (state : State) (negative : Bool) (tokens : List Token) : Option (State × List Token) :=
  let (value, length, rest) := nextNumber tokens
  let signed := { state with negative := negative, numbered := true }
  if rest.head? == some (.symbol ':') then
    some ({ signed with zoneHour := some value, zoneMinute := none }, rest)
  else if length = 1 || length = 2 then
    some ({ signed with zoneHour := some value, zoneMinute := some 0 }, rest)
  else if length = 3 || length = 4 then
    some ({ signed with zoneHour := some (value / 100), zoneMinute := some (value % 100) }, rest)
  else none

theorem length_zone {state next : State} {negative : Bool} {tokens rest : List Token}
    (read : zone state negative tokens = some (next, rest)) : rest.length ≤ tokens.length := by
  have shorter := length_nextNumber_le tokens
  unfold zone at read
  dsimp only at read
  split at read
  · simp only [Option.some.injEq, Prod.mk.injEq] at read
    rwa [read.2] at shorter
  · split at read
    · simp only [Option.some.injEq, Prod.mk.injEq] at read
      rwa [read.2] at shorter
    · split at read
      · simp only [Option.some.injEq, Prod.mk.injEq] at read
        rwa [read.2] at shorter
      · simp at read

/-- A word without a meaning may only stand in front of the first number, and not right in
front of it. -/
def allowsWord (state : State) : List Token → Bool
  | .number _ _ :: _ => false
  | _ => !state.numbered

def word (state : State) (start : List Char) (length : Nat) (rest : List Token) :
    Option (State × List Token) :=
  let unknown := if allowsWord state rest then some (state, rest) else none
  match keyword start length with
  | .half offset =>
      if state.time.isEmpty then unknown else some ({ state with half := some offset }, rest)
  | .month number => some ({ state with month := some number }, skipHyphen rest)
  | .zone hours => if state.numbered then some (state.setZone hours, rest) else unknown
  | .unknown => unknown

theorem length_word {state next : State} {start : List Char} {length : Nat}
    {tokens rest : List Token} (read : word state start length tokens = some (next, rest)) :
    rest.length ≤ tokens.length := by
  have plain :
      (if allowsWord state tokens then some (state, tokens) else none) = some (next, rest) →
      rest.length ≤ tokens.length := by
    intro same
    split at same
    · simp only [Option.some.injEq, Prod.mk.injEq] at same
      exact Nat.le_of_eq (by rw [same.2])
    · simp at same
  unfold word at read
  dsimp only at read
  split at read
  · split at read
    · exact plain read
    · simp only [Option.some.injEq, Prod.mk.injEq] at read
      simp [read.2]
  · simp only [Option.some.injEq, Prod.mk.injEq] at read
    rw [← read.2]
    exact length_skipHyphen_le tokens
  · split at read
    · simp only [Option.some.injEq, Prod.mk.injEq] at read
      simp [read.2]
    · exact plain read
  · exact plain read

def readFrom (state : State) (tokens : List Token) : Option State :=
  match tokens with
  | [] => some state
  | .number value _ :: rest =>
      match _read : number { state with numbered := true } value rest with
      | some (state, rest) => readFrom state rest
      | none => none
  | .word start length :: rest =>
      match _read : word state start length rest with
      | some (state, rest) => readFrom state rest
      | none => none
  | .symbol char :: rest =>
      if (char == '+' || char == '-') && (state.isGreenwich || !state.time.isEmpty) then
        match _read : zone state (char == '-') rest with
        | some (state, rest) => readFrom state rest
        | none => none
      else if (char == '+' || char == '-' || char == ')') && state.numbered then none
      else readFrom state rest
  | .blank :: rest => readFrom state rest
  | .other :: rest => readFrom state rest
termination_by tokens.length
decreasing_by
  · have := length_number _read
    simp only [List.length_cons]
    omega
  · have := length_word _read
    simp only [List.length_cons]
    omega
  · have := length_zone _read
    simp only [List.length_cons]
    omega
  · simp
  · simp
  · simp

def isMonth (number : Int) : Bool := 1 ≤ number && number ≤ 12

def isDay (number : Int) : Bool := 1 ≤ number && number ≤ 31

/-- Year, month and day of the calendar numbers; missing ones are one. Two-digit years belong
to the years from 1950 to 2049, unless the strict rules have read all of the date. -/
def calendarDate (state : State) (isStrict : Bool) : Option (Int × Int × Int) :=
  match state.day ++ List.replicate (3 - state.day.length) 1 with
  | [first, second, third] =>
      if state.day.isEmpty then none
      else
        let (year, month, day) := match state.month with
          | none =>
              if isStrict || !isDay first then (first, second, third) else (third, first, second)
          | some month =>
              if isDay first then (second, (month : Int), first) else (first, (month : Int), second)
        let year :=
          if isStrict || year < 0 then year
          else if year ≤ 49 then year + 2000
          else if year ≤ 99 then year + 1900
          else year
        if isMonth month && isDay day then some (year, month, day) else none
  | _ => none

def timeOfDay (state : State) : Option (Nat × Nat × Nat × Nat) :=
  match (state.time ++ [0, 0, 0, 0]).take 4 with
  | [hour, minute, second, millisecond] => do
      let hour ← match state.half with
        | none => some hour
        | some offset => if hour ≤ 12 then some (hour % 12 + offset) else none
      if hour < 24 && minute < 60 && second < 60 && millisecond < 1000 then
        some (hour, minute, second, millisecond)
      else if hour = 24 && minute = 0 && second = 0 && millisecond = 0 then
        some (hour, minute, second, millisecond)
      else none
  | _ => none

/-- The distance from Greenwich in seconds; without one the time is that of Greenwich. It is
counted in words of 32 bits and may not reach half of their range. -/
def zoneSeconds (state : State) : Option Int :=
  let seconds := ((state.zoneHour.getD 0) * 3600 + (state.zoneMinute.getD 0) * 60) % 0x100000000
  if seconds < 0x80000000 then some (if state.negative then -(seconds : Int) else seconds) else none

/-- The moments that a date can name lie within this many milliseconds of the start of 1970. -/
def farthest : Int := 8640000000000000

def instant (state : State) (isStrict : Bool) : Option Instant := do
  let (year, month, day) ← calendarDate state isStrict
  let (hour, minute, second, millisecond) ← timeOfDay state
  let distance ← zoneSeconds state
  let found := Instant.ofCalendar year month day hour minute (second - distance) millisecond
  if -farthest ≤ found.milliseconds && found.milliseconds ≤ farthest then some found else none

/-- How far the strict rules lead: to the end of the date, nowhere, or to pieces that are left
for the other rules. -/
inductive Strict where
  | complete (state : State)
  | invalid
  | left (state : State) (tokens : List Token)
deriving DecidableEq, Repr

namespace Strict

/-- The zone behind a time of day: nothing, a final letter, or signed hours and minutes. -/
def zone (state : State) : List Token → Strict
  | [] => .complete state
  | [.word ['z'] 1] => .complete (state.setZone 0)
  | [.symbol sign, .number value 4] => signed sign (value / 100) (value % 100)
  | [.symbol sign, .number hour 2, .symbol ':', .number minute 2] => signed sign hour minute
  | _ => .invalid
where
  signed (sign : Char) (hour minute : Nat) : Strict :=
    if (sign == '+' || sign == '-') && hour < 24 && minute < 60 then
      .complete { state with
        negative := sign == '-'
        zoneHour := some hour
        zoneMinute := some minute }
    else .invalid

/-- The time of day behind its letter: hours and minutes of two digits, then seconds, and
behind a point parts of one. -/
def time (state : State) : List Token → Strict
  | .number hour 2 :: .symbol ':' :: .number minute 2 :: .symbol ':' ::
      .number second 2 :: .symbol '.' :: .number digits length :: rest =>
      checked [hour, minute, second, fraction digits length] (digits = 0) rest
  | .number _ 2 :: .symbol ':' :: .number _ 2 :: .symbol ':' ::
      .number _ 2 :: .symbol '.' :: _ => .invalid
  | .number hour 2 :: .symbol ':' :: .number minute 2 :: .symbol ':' :: .number second 2 :: rest =>
      checked [hour, minute, second] true rest
  | .number _ 2 :: .symbol ':' :: .number _ 2 :: .symbol ':' :: _ => .invalid
  | .number hour 2 :: .symbol ':' :: .number minute 2 :: rest => checked [hour, minute] true rest
  | _ => .invalid
where
  checked (numbers : List Nat) (isWhole : Bool) (rest : List Token) : Strict :=
    let timed := { state with time := numbers }
    if (timeOfDay timed).isSome && (isWhole || numbers.head? != some 24) then zone timed rest
    else .invalid

def behindDate (state : State) : List Token → Strict
  | [] => .complete state
  | .word ['t'] 1 :: rest => time state rest
  | rest => .left state rest

def behindMonth (state : State) : List Token → Strict
  | .symbol '-' :: .number day 2 :: rest =>
      if isDay day then behindDate { state with day := state.day ++ [(day : Int)] } rest
      else .left state (.number day 2 :: rest)
  | .symbol '-' :: rest => .left state rest
  | rest => behindDate state rest

def behindYear (year : Int) : List Token → Strict
  | .symbol '-' :: .number month 2 :: rest =>
      if isMonth month then behindMonth { State.empty with day := [year, (month : Int)] } rest
      else .left { State.empty with day := [year] } (.number month 2 :: rest)
  | .symbol '-' :: rest => .left { State.empty with day := [year] } rest
  | rest => behindDate { State.empty with day := [year] } rest

/-- Reads a date that begins with a year of four digits, or of six with a sign. There is no
year zero with a minus. -/
def read : List Token → Strict
  | .number year 4 :: rest => behindYear year rest
  | .symbol '+' :: .number year 6 :: rest => behindYear year rest
  | .symbol '-' :: .number year 6 :: rest =>
      if year = 0 then .left .empty (.symbol '-' :: rest) else behindYear (-(year : Int)) rest
  | rest => .left .empty rest

end Strict

/-- The moment that a date names, if it can be read. A null character ends the text. -/
def read (text : String) : Option Instant :=
  match Strict.read (tokens 0 (text.toList.takeWhile (· != '\x00'))) with
  | .complete state => instant state true
  | .invalid => none
  | .left state rest =>
      (readFrom { state with numbered := !state.day.isEmpty } rest).bind (instant · false)

end ImapDialogue.Mail.Date
