import ImapDialogue.Proofs.Client.Asking
import ImapDialogue.Proofs.Command.Argument
import ImapDialogue.Proofs.Number.Numeral
import ImapDialogue.Proofs.Response.Reading

/-!
Arguments read back. A server that sends the arguments of a command in a list sends values again:
each argument is read as the text that it was, apart from numerals and the word for no value, which
go out without quotes.
-/

namespace ImapDialogue.Argument

open Response

def number? (value : String) : Option Number :=
  if Numeral.Digital value.toList then Numeral.read value else none

/-- What an argument is read as: the number if it is one, nothing if it is the word for that in
letters of any case, and itself otherwise. -/
def meaning (value : String) : Value :=
  match number? value with
  | some number => .number number
  | none => if value.toLower = "nil" then .nil else .text value

/-! ## Bytes of plain characters -/

structure Narrow (char : Char) : Prop where
  encoded : String.utf8EncodeChar char = [char.toUInt8]
  bare : Reader.Bare char.toUInt8
  shown : Char.ofNat char.toUInt8.toNat = char
  digit : Byte.isDigit char.toUInt8 = char.isDigit
  lower : Byte.lower char.toUInt8 = char.toLower.toUInt8
  shownLower : Char.ofNat char.toLower.toUInt8.toNat = char.toLower

theorem narrow_ascii : ∀ code : Fin 0x7F, isPlain (Char.ofNat code) = true →
    String.utf8EncodeChar (Char.ofNat code) = [(Char.ofNat code).toUInt8] ∧
      Reader.Bare (Char.ofNat code).toUInt8 ∧
      Char.ofNat (Char.ofNat code).toUInt8.toNat = Char.ofNat code ∧
      Byte.isDigit (Char.ofNat code).toUInt8 = (Char.ofNat code).isDigit ∧
      Byte.lower (Char.ofNat code).toUInt8 = (Char.ofNat code).toLower.toUInt8 ∧
      Char.ofNat (Char.ofNat code).toLower.toUInt8.toNat = (Char.ofNat code).toLower := by
  decide +kernel

theorem narrow_of_plain {char : Char} (plain : isPlain char = true) : Narrow char := by
  have bounds := plain
  simp only [isPlain, Bool.and_eq_true, decide_eq_true_eq] at bounds
  have small : char.toNat < 0x7F := Nat.lt_succ_of_le bounds.1.2
  have facts := narrow_ascii ⟨char.toNat, small⟩
  simp only [Char.ofNat_toNat] at facts
  obtain ⟨encoded, bare, shown, digit, lower, shownLower⟩ := facts plain
  exact ⟨encoded, bare, shown, digit, lower, shownLower⟩

variable {value : String}

theorem encode_plain (plain : ∀ char ∈ value.toList, isPlain char = true) :
    Utf8.encode value = value.toList.map Char.toUInt8 := by
  rw [Utf8.encode, List.map_eq_flatMap]
  exact List.flatMap_congr fun char inside => (narrow_of_plain (plain char inside)).encoded

theorem toNarrow_plain (plain : ∀ char ∈ value.toList, isPlain char = true) :
    Bytes.toNarrow (value.toList.map Char.toUInt8) = value := by
  have same : value.toList.map (fun char => Char.ofNat char.toUInt8.toNat) = value.toList :=
    (List.map_congr_left fun char inside => (narrow_of_plain (plain char inside)).shown).trans
      (List.map_id _)
  rw [Bytes.toNarrow, List.map_map]
  exact (congrArg String.ofList same).trans String.ofList_toList

theorem digits_plain (plain : ∀ char ∈ value.toList, isPlain char = true) :
    (value.toList.map Char.toUInt8).all Byte.isDigit = value.toList.all Char.isDigit := by
  rw [Bool.eq_iff_iff, List.all_map, List.all_eq_true, List.all_eq_true]
  refine forall₂_congr fun char inside => ?_
  rw [Function.comp, (narrow_of_plain (plain char inside)).digit]

theorem toList_toLower (value : String) : value.toLower.toList = value.toList.map Char.toLower :=
  String.toList_map

theorem lower_plain (plain : ∀ char ∈ value.toList, isPlain char = true) :
    (value.toList.map Char.toUInt8).map Byte.lower = Bytes.ofNarrow "nil" ↔
      value.toLower = "nil" := by
  have lowered : (value.toList.map Char.toUInt8).map Byte.lower =
      (value.toList.map Char.toLower).map Char.toUInt8 := by
    rw [List.map_map, List.map_map]
    exact List.map_congr_left fun char inside => (narrow_of_plain (plain char inside)).lower
  have shown : ((value.toList.map Char.toLower).map Char.toUInt8).map
      (fun byte => Char.ofNat byte.toNat) = value.toList.map Char.toLower := by
    rw [List.map_map, List.map_map]
    exact List.map_congr_left fun char inside => (narrow_of_plain (plain char inside)).shownLower
  rw [lowered, ← String.toList_inj, toList_toLower]
  constructor
  · intro same
    rw [← shown, same]
    rfl
  · intro same
    rw [same]
    rfl

theorem atomValue_plain (filled : value.toList ≠ [])
    (plain : ∀ char ∈ value.toList, isPlain char = true) :
    Reader.atomValue (value.toList.map Char.toUInt8) = meaning value := by
  simp only [Reader.atomValue, digits_plain plain, lower_plain plain, toNarrow_plain plain, meaning,
    number?]
  by_cases digits : value.toList.all Char.isDigit = true
  · have digital : Numeral.Digital value.toList := ⟨filled, List.all_eq_true.mp digits⟩
    rw [if_pos digits, if_pos digital, Numeral.read_digital digital]
  · have worded : ¬Numeral.Digital value.toList :=
      fun digital => digits (List.all_eq_true.mpr digital.2)
    rw [if_neg digits, if_neg worded]

theorem plain_of_meant {char : Char}
    (meant : char.isDigit = true ∨ char.toLower ∈ "nil".toList) : isPlain char = true := by
  have small : char.toNat < 0x7F := by
    rcases meant with digit | letter
    · exact Nat.lt_of_le_of_lt (Numeral.code_of_digit digit).2 (by decide)
    · unfold Char.toLower at letter
      split at letter
      · next capital => exact Nat.lt_of_le_of_lt capital.2 (by decide)
      · have each : ("nil".toList.all fun other => decide (other.toNat < 0x7F)) = true := rfl
        exact of_decide_eq_true (List.all_eq_true.mp each char letter)
  have facts : ∀ code : Fin 0x7F, (Char.ofNat code).isDigit = true ∨
      (Char.ofNat code).toLower ∈ "nil".toList → isPlain (Char.ofNat code) = true := by
    decide +kernel
  have found := facts ⟨char.toNat, small⟩
  rw [Char.ofNat_toNat] at found
  exact found meant

/-- Between quotes an argument is a text, for numerals and the word for no value need none. -/
theorem meaning_quoted (special : value.toList = [] ∨ ∃ char ∈ value.toList, Special char) :
    meaning value = .text value := by
  have plain : ¬(value.toList ≠ [] ∧ ∀ char ∈ value.toList, isPlain char = true) := by
    rintro ⟨filled, plain⟩
    rcases special with empty | ⟨char, inside, special⟩
    · exact filled empty
    · exact (isPlain_iff char).mp (plain char inside) special
  have worded : ¬Numeral.Digital value.toList := fun digital =>
    plain ⟨digital.1, fun char inside => plain_of_meant (.inl (digital.2 char inside))⟩
  have valued : value.toLower ≠ "nil" := by
    intro word
    have letters := congrArg String.toList word
    rw [toList_toLower] at letters
    refine plain ⟨?_, fun char inside => plain_of_meant (.inr ?_)⟩
    · intro empty
      rw [empty] at letters
      cases letters
    · rw [← letters]
      exact List.mem_map_of_mem inside
  rw [meaning, number?, if_neg worded]
  exact if_neg valued

/-! ## One argument -/

def bytes (value : String) : Bytes := Utf8.encode (render value)

theorem bytes_quoted (special : value.toList = [] ∨ ∃ char ∈ value.toList, Special char) :
    bytes value = Byte.quote :: ((Utf8.encode value).flatMap escapeByte ++ [Byte.quote]) := by
  rw [← encode_escape, bytes, render, spell_quoted special, Utf8.encode, Utf8.encode,
    String.toList_ofList, String.toList_ofList, List.flatMap_cons, List.flatMap_append]
  rfl

/-- An argument is read up to its own last byte, and begins with none of the bytes that have a
meaning between values. -/
theorem read_bytes (value : String) {cursor : Cursor} {tail : Bytes} (stops : Reader.Stops tail)
    (full : cursor.rest = bytes value ++ tail) :
    Reader.scalar cursor = .ok (meaning value, cursor.advance (bytes value).length) ∧
      ∃ byte others, bytes value = byte :: others ∧ Reader.Begins byte := by
  rcases spell_cases value.toList with ⟨filled, plain, same⟩ | ⟨special, -⟩
  · have written : bytes value = value.toList.map Char.toUInt8 := by
      rw [bytes, render, same, String.ofList_toList, encode_plain plain]
    have bare : ∀ byte ∈ value.toList.map Char.toUInt8, Reader.Bare byte := by
      intro byte member
      obtain ⟨char, inside, rfl⟩ := List.mem_map.mp member
      exact (narrow_of_plain (plain char inside)).bare
    have some : value.toList.map Char.toUInt8 ≠ [] := by simpa using filled
    rw [written] at full ⊢
    rw [Reader.scalar_bytes some bare stops full, atomValue_plain filled plain]
    obtain ⟨byte, others, first⟩ := List.exists_cons_of_ne_nil some
    refine ⟨rfl, byte, others, first, Reader.begins_of_bare (bare byte ?_)⟩
    rw [first]
    exact List.mem_cons_self
  · have written := bytes_quoted special
    rw [written] at full ⊢
    rw [Reader.scalar_quoted (escaped_bytes _) full, meaning_quoted special]
    exact ⟨rfl, _, _, rfl, by decide⟩

/-! ## Several arguments -/

theorem encode_spaced_cons (value : String) (others : List String) :
    Utf8.encode (spaced (value :: others)) =
      bytes value ++ if others = [] then [] else Byte.space :: Utf8.encode (spaced others) := by
  rw [Utf8.encode, toList_spaced_cons, List.flatMap_append, bytes, render, Utf8.encode,
    String.toList_ofList]
  split
  · rfl
  · rw [List.flatMap_cons, Utf8.encode]
    rfl

/-- All arguments are read, up to the parenthesis that closes their list. -/
theorem listRest_spaced (values : List String) (known : List Value) {cursor : Cursor} {tail : Bytes}
    (full : cursor.rest = Utf8.encode (spaced values) ++ Byte.closeParen :: tail) :
    Reader.listRest [] known cursor =
      .ok (Reader.closed ((values.map meaning).reverse ++ known),
        cursor.advance ((Utf8.encode (spaced values)).length + 1)) := by
  induction values generalizing known cursor with
  | nil => exact Reader.listRest_last full
  | cons value others induction =>
      rw [encode_spaced_cons, List.append_assoc] at full
      have items : ((value :: others).map meaning).reverse ++ known =
          (others.map meaning).reverse ++ meaning value :: known := by
        rw [List.map_cons, List.reverse_cons, List.append_assoc, List.singleton_append]
      have enters : ∀ {rest : Bytes}, Reader.Stops rest → cursor.rest = bytes value ++ rest →
          Reader.listRest [] known cursor =
            Reader.listRest [] (meaning value :: known) (cursor.advance (bytes value).length) := by
        intro rest stops full
        obtain ⟨read, byte, more, first, begins⟩ := read_bytes value stops full
        rw [first] at full
        exact Reader.listRest_read read full begins
      rw [encode_spaced_cons, items]
      cases others with
      | nil =>
          rw [if_pos rfl, List.nil_append] at full
          have none : Utf8.encode (spaced []) = [] := rfl
          have stops : Reader.Stops (Byte.closeParen :: tail) := rfl
          have later := induction (meaning value :: known) (Reader.rest_behind full)
          rw [none, List.length_nil, Nat.zero_add] at later
          rw [enters stops full, later, if_pos rfl, List.append_nil, Cursor.advance_advance]
      | cons next others =>
          rw [if_neg (List.cons_ne_nil _ _)] at full ⊢
          let later := Utf8.encode (spaced (next :: others)) ++ Byte.closeParen :: tail
          have apart : cursor.rest = bytes value ++ Byte.space :: later := full
          have stops : Reader.Stops (Byte.space :: later) := rfl
          have behind : (cursor.advance (bytes value).length).rest = spaces 1 ++ later :=
            Reader.rest_behind apart
          have inside := Reader.rest_behind_spaces behind
          have length : (bytes value ++ Byte.space :: Utf8.encode (spaced (next :: others))).length =
              (bytes value).length + (1 + (Utf8.encode (spaced (next :: others))).length) := by
            rw [List.length_append, List.length_cons, Nat.add_comm 1]
          rw [enters stops apart, Reader.listRest_spaces behind,
            induction (meaning value :: known) inside, Cursor.advance_advance,
            Cursor.advance_advance, length, Nat.add_assoc, Nat.add_assoc]

/-! ## A server that sends them again -/

def echo (values : List String) : Bytes :=
  Bytes.ofNarrow "* 1 FETCH (X (" ++ (Utf8.encode (spaced values) ++ Bytes.ofNarrow "))\r\n")

/-- What the list of a response holds that sends arguments. -/
def echoRecord (values : List String) : Record :=
  ⟨.finite 1, ⟨[("X", .list (values.map meaning))]⟩⟩

theorem valueAfterName_spaced (values : List String) {cursor : Cursor} {tail : Bytes}
    (full : cursor.rest = Byte.space :: Byte.openParen ::
      (Utf8.encode (spaced values) ++ Byte.closeParen :: tail)) :
    ∃ behind : Cursor, behind.rest = tail ∧
      Reader.valueAfterName cursor = .ok (.list (values.map meaning), behind) := by
  have opens : (cursor.advance 1).rest = Byte.openParen ::
      (Utf8.encode (spaced values) ++ Byte.closeParen :: tail) := by
    rw [Cursor.rest_advance, full]
    rfl
  have inside : ((cursor.advance 1).advance 1).rest =
      Utf8.encode (spaced values) ++ Byte.closeParen :: tail := by
    rw [Cursor.rest_advance, opens]
    rfl
  have read := listRest_spaced values [] inside
  have front : Utf8.encode (spaced values) ++ Byte.closeParen :: tail =
      (Utf8.encode (spaced values) ++ [Byte.closeParen]) ++ tail := by
    rw [List.append_assoc, List.singleton_append]
  have behind := Reader.rest_behind (inside.trans front)
  rw [List.length_append, List.length_singleton] at behind
  refine ⟨_, behind, ?_⟩
  rw [Reader.valueAfterName_eq, Reader.skipSpaces_space full,
    Reader.skipSpaces_stays opens (by decide), opens, List.head?_cons, if_neg (by decide),
    Reader.value_eq, opens, List.head?_cons, if_pos rfl, read, Reader.closed, List.append_nil,
    List.reverse_reverse]

theorem scan_echo (values : List String) :
    scan (.start (echo values)) = [.record (echoRecord values)] := by
  let opening : Opening := ⟨Bytes.ofNarrow "1", Bytes.ofNarrow " FETCH (", by decide,
    Bytes.forall_of_all (by decide), by decide⟩
  let label : Label := ⟨Bytes.ofNarrow "X", none, by decide, Bytes.forall_of_all (by decide),
    by rintro part ⟨⟩⟩
  let behind : Bytes := Utf8.encode (spaced values) ++ Byte.closeParen :: Byte.closeParen :: Bytes.crlf
  have text : (Cursor.start (echo values)).rest = opening.bytes ++ (Bytes.ofNarrow "X" ++
      Byte.space :: Byte.openParen :: behind) := rfl
  have found : opening? (.start (echo values)) = some (.finite 1, opening.bytes.length) :=
    opening?_eq_some_iff.mpr ⟨rfl, opening, ⟨_, text.symm⟩, by decide +kernel, rfl⟩
  have named := Reader.rest_behind text
  obtain ⟨place, ended, valued⟩ := valueAfterName_spaced values (Reader.rest_behind named)
  have read : Reader.attributes ((Cursor.start (echo values)).advance opening.bytes.length) =
      .ok (⟨[("X", .list (values.map meaning))]⟩, place.advance 1) := by
    have name : label.text = "X" := (Reader.capital_label label).symm
    rw [Reader.attributes, @Reader.attributesFrom_name _ _ _ label _ rfl rfl named _ _ valued,
      Reader.attributesFrom_close ended, name]
    rfl
  have rest : (place.advance 1).rest = Bytes.crlf ++ [] := by
    rw [Cursor.rest_advance, ended]
    rfl
  have idle : Idle Bytes.crlf := idle_of_no_star (by decide)
  rw [scan_record found read, scan_over_lines idle (.inr rfl) rest,
    scan_end (Reader.rest_behind rest)]
  rfl

/-! ## A login -/

/-- A login that goes out is one line, the name and the password behind its number and its verb. -/
theorem written_login [Mail.Reader] {client : Client} {clock : Clock} {now : Instant}
    {ticket : Nat} {line : Bytes} (member : line ∈ (client.login clock now ticket).written) :
    line = Channel.lineBytes (toString (client.lastTag + 1) ++ " " ++ ("login" ++ " " ++
      spaced [client.settings.email, client.settings.password])) := by
  have arguments : spaced [client.settings.email, client.settings.password] =
      (Asking.login client.settings.email client.settings.password).arguments := by
    rw [spaced, List.map_cons, List.map_singleton, String.intercalate_cons_cons,
      String.intercalate_singleton]
    rfl
  cases has : client.channel with
  | none =>
      have silent := (client.begin_unconnected has clock now ticket .login).1
      rw [Client.begin] at silent
      rw [silent] at member
      cases member
  | some channel =>
      have asks := Client.asks_command has clock now ticket
        (.login client.settings.email client.settings.password) client.loginMarker Task.login
      rcases asks.sends with ⟨-, sent⟩ | ⟨-, silent⟩
      · have same : (client.login clock now ticket).written = _ := sent
        rw [same, List.mem_singleton] at member
        rw [member, Asking.line, arguments]
        simp only [Asking.verb, String.append_assoc]
      · have same : (client.login clock now ticket).written = [] := silent
        rw [same] at member
        cases member

theorem line_unique {number number' : Nat} {values values' : List String}
    (same : Channel.lineBytes (toString number ++ " " ++ ("login" ++ " " ++ spaced values)) =
      Channel.lineBytes (toString number' ++ " " ++ ("login" ++ " " ++ spaced values'))) :
    number = number' ∧ values = values' := by
  have texts := congrArg Utf8.decode (List.append_cancel_right same)
  rw [Utf8.decode_encode, Utf8.decode_encode] at texts
  obtain ⟨rfl, rests⟩ := Asking.number_unique texts
  have letters := congrArg String.toList rests
  simp only [String.toList_append] at letters
  exact ⟨rfl, spaced_inj (String.toList_inj.mp (List.append_cancel_left letters))⟩

/-- Whatever texts are sent back in a list, the record found has a value for each of them, and no
fault is found. No two lists of arguments look the same, so a login holds one name and one password
only. An argument has quotes exactly if it is empty or has a character that needs them. -/
theorem arguments_are_read_back [Mail.Reader] :
    (∀ values, collect (echo values) = ([echoRecord values], []) ∧
        strict (echo values) = .ok [echoRecord values]) ∧
      (∀ values values', spaced values = spaced values' ↔ values = values') ∧
      (∀ (client : Client) (clock : Clock) (now : Instant) (ticket : Nat),
        ∀ line ∈ (client.login clock now ticket).written, ∀ (number : Nat) (values : List String),
          line = Channel.lineBytes (toString number ++ " " ++ ("login" ++ " " ++ spaced values)) ↔
            number = client.lastTag + 1 ∧
              values = [client.settings.email, client.settings.password]) ∧
      ∀ value : String,
        ((render value).toList.head? = some '"' ↔
            value = "" ∨ ∃ char ∈ value.toList, Special char) ∧
          ((value = "" ∨ ∃ char ∈ value.toList, Special char) →
            render value = String.ofList ('"' :: (value.toList.flatMap escape ++ ['"']))) ∧
          (¬(value = "" ∨ ∃ char ∈ value.toList, Special char) → render value = value) := by
  refine ⟨fun values => ?_, fun values values' => ⟨spaced_inj, congrArg spaced⟩, ?_, fun value => ?_⟩
  · have items := scan_echo values
    refine ⟨by rw [collect, items]; rfl, ?_⟩
    rw [strict, strictFrom_eq, items]
    rfl
  · intro client clock now ticket line member number values
    rw [written_login member]
    constructor
    · intro same
      obtain ⟨number', values'⟩ := line_unique same
      exact ⟨number'.symm, values'.symm⟩
    · rintro ⟨rfl, rfl⟩
      rfl
  · refine ⟨quoted_iff value, ?_, render_plain⟩
    intro special
    rw [← String.toList_eq_nil_iff] at special
    rw [render, spell_quoted special]

def quotingClient : Client :=
  { Client.create ⟨"127.0.0.1", 10000, "reader", "let \"me\" in", none, .skip, default, default,
      none, .off, default⟩ with channel := some (.fresh true) }

theorem quoted_login_is_read_back :
    (quotingClient.login ⟨0⟩ ⟨0⟩ 0).written =
        [Bytes.ofNarrow "1 login reader \"let \\\"me\\\" in\"\r\n"] ∧
      ∀ (number : Nat) (values : List String),
        Bytes.ofNarrow "1 login reader \"let \\\"me\\\" in\"\r\n" =
            Channel.lineBytes (toString number ++ " " ++ ("login" ++ " " ++ spaced values)) ↔
          number = 1 ∧ values = ["reader", "let \"me\" in"] := by
  have sent : (quotingClient.login ⟨0⟩ ⟨0⟩ 0).written =
      [Bytes.ofNarrow "1 login reader \"let \\\"me\\\" in\"\r\n"] := by
    decide +kernel
  obtain ⟨-, -, unique, -⟩ := arguments_are_read_back
  exact ⟨sent, unique quotingClient ⟨0⟩ ⟨0⟩ 0 _ (sent ▸ List.mem_singleton_self _)⟩

end ImapDialogue.Argument
