import ImapDialogue.Proofs.Response.Agreement
import ImapDialogue.Proofs.Response.Openings

/-!
Data that was received in two parts. What stands in front of a place changes nothing but the
distances that faults are reported at. So behind whole lines that decode without a fault, further
data gives the same records and faults as on its own, and does not touch the records in front.
-/

namespace ImapDialogue

/-! ## Places behind more data -/

def Cursor.after (front : Bytes) (cursor : Cursor) : Cursor :=
  ⟨front.length + cursor.offset, cursor.previous.or front.getLast?, cursor.rest⟩

namespace Cursor

@[simp]
theorem rest_after (front : Bytes) (cursor : Cursor) : (cursor.after front).rest = cursor.rest := rfl

theorem advance_after (front : Bytes) (count : Nat) (cursor : Cursor) :
    (cursor.after front).advance count = (cursor.advance count).after front := by
  induction count generalizing cursor with
  | zero => rfl
  | succ count induction =>
      obtain ⟨offset, previous, rest⟩ := cursor
      cases rest with
      | nil => rfl
      | cons byte rest => exact induction ⟨offset + 1, some byte, rest⟩

theorem skipSpaces_after (front : Bytes) (cursor : Cursor) :
    (cursor.after front).skipSpaces = cursor.skipSpaces.after front := advance_after _ _ _

theorem startsLine_after {front : Bytes} (whole : front.getLast?.all Byte.isLineEnd = true)
    (cursor : Cursor) : (cursor.after front).startsLine = cursor.startsLine := by
  rw [startsLine_eq, startsLine_eq]
  obtain ⟨offset, previous, rest⟩ := cursor
  cases previous with
  | none => exact whole
  | some byte => rfl

end Cursor

namespace Response

def Malformed.later (distance : Nat) (malformed : Malformed) : Malformed :=
  ⟨malformed.missing, distance + malformed.offset⟩

namespace Reader

variable {α : Type}

def Answer.after (front : Bytes) : Answer α → Answer α
  | .ok (found, behind) => .ok (found, behind.after front)
  | .error malformed => .error (malformed.later front.length)

variable (front : Bytes) (cursor : Cursor)

theorem name_after : name (cursor.after front) = (name cursor).after front := by
  rw [name_eq, name_eq cursor, Cursor.rest_after, Cursor.advance_after, Cursor.rest_after]
  split_ifs <;> rfl

theorem quoted_after : quoted (cursor.after front) = (quoted cursor).after front := by
  simp only [quoted, Cursor.rest_after, Cursor.advance_after]
  split <;> rfl

theorem literal_after : literal (cursor.after front) = (literal cursor).after front := by
  simp only [literal, Cursor.rest_after, Cursor.advance_after]
  split
  · rfl
  · split <;> rfl

theorem atom_after : atom (cursor.after front) = (atom cursor).after front := by
  simp only [atom, Cursor.rest_after, Cursor.advance_after]
  split <;> rfl

theorem scalar_after : scalar (cursor.after front) = (scalar cursor).after front := by
  rw [scalar_eq, scalar_eq cursor, Cursor.rest_after]
  split_ifs
  · exact quoted_after front cursor
  · exact literal_after front cursor
  · exact atom_after front cursor

theorem listRest_after (outer : List (List Value)) (items : List Value) :
    listRest outer items (cursor.after front) = (listRest outer items cursor).after front := by
  fun_induction listRest outer items cursor with
  | case1 outer items cursor past =>
      rw [listRest_eq, Cursor.skipSpaces_after, Cursor.rest_after, past]
      rfl
  | case2 items cursor byte rest full closing =>
      rw [listRest_eq, Cursor.skipSpaces_after, Cursor.rest_after, full, List.head?_cons]
      simp only [closing, if_true, Cursor.advance_after]
      rfl
  | case3 items cursor byte rest full closing around outer induction =>
      rw [listRest_eq, Cursor.skipSpaces_after, Cursor.rest_after, full, List.head?_cons]
      simp only [closing, if_true, Cursor.advance_after, induction]
  | case4 outer items cursor byte rest full closing opening induction =>
      rw [listRest_eq, Cursor.skipSpaces_after, Cursor.rest_after, full, List.head?_cons]
      simp only [closing, opening, if_true, Bool.false_eq_true, if_false, Cursor.advance_after,
        induction]
  | case5 outer items cursor byte rest full closing opening malformed failed =>
      rw [listRest_eq, Cursor.skipSpaces_after, Cursor.rest_after, full, List.head?_cons]
      simp only [closing, opening, Bool.false_eq_true, if_false, scalar_after, failed]
      rfl
  | case6 outer items cursor byte rest full closing opening value place read induction =>
      rw [listRest_eq, Cursor.skipSpaces_after, Cursor.rest_after, full, List.head?_cons]
      simp only [closing, opening, Bool.false_eq_true, if_false, scalar_after, read]
      exact induction

theorem value_after : value (cursor.after front) = (value cursor).after front := by
  rw [value_eq, value_eq cursor, Cursor.rest_after, Cursor.advance_after]
  split_ifs
  · exact listRest_after front _ [] []
  · exact scalar_after front cursor

theorem valueAfterName_after :
    valueAfterName (cursor.after front) = (valueAfterName cursor).after front := by
  rw [valueAfterName_eq, valueAfterName_eq cursor, Cursor.skipSpaces_after, Cursor.rest_after]
  split_ifs
  · rfl
  · exact value_after front cursor.skipSpaces

theorem attributesFrom_after (known : Attributes) :
    attributesFrom known (cursor.after front) = (attributesFrom known cursor).after front := by
  fun_induction attributesFrom known cursor with
  | case1 known cursor rest full =>
      rw [attributesFrom_eq, Cursor.skipSpaces_after, Cursor.rest_after, full, List.head?_cons,
        Cursor.advance_after]
      rfl
  | case2 known cursor malformed failed unclosed =>
      rw [attributesFrom_eq, Cursor.skipSpaces_after, Cursor.rest_after,
        if_neg (head?_ne Byte.closeParen unclosed), name_after, failed]
      rfl
  | case3 known cursor found place named malformed failed unclosed =>
      rw [attributesFrom_eq, Cursor.skipSpaces_after, Cursor.rest_after,
        if_neg (head?_ne Byte.closeParen unclosed), name_after, named]
      dsimp only [Answer.after]
      rw [valueAfterName_after, failed]
      rfl
  | case4 known cursor found place named value place' valued unclosed induction =>
      rw [attributesFrom_eq, Cursor.skipSpaces_after, Cursor.rest_after,
        if_neg (head?_ne Byte.closeParen unclosed), name_after, named]
      dsimp only [Answer.after]
      rw [valueAfterName_after, valued]
      exact induction

end Reader

/-! ## The search behind more data -/

theorem opening?_after {front : Bytes} (whole : front.getLast?.all Byte.isLineEnd = true)
    (cursor : Cursor) : opening? (cursor.after front) = opening? cursor := by
  rw [opening?, opening?, Cursor.startsLine_after whole, Cursor.rest_after]

/-- The same fault when it is reported further on. -/
def Fault.later (distance : Nat) (fault : Fault) : Fault :=
  ⟨fault.sequence, fault.malformed.later distance⟩

def Item.later (distance : Nat) : Item → Item
  | .record decoded => .record decoded
  | .fault reported => .fault (reported.later distance)

theorem record?_later (distance : Nat) (item : Item) :
    (item.later distance).record? = item.record? := by
  cases item <;> rfl

theorem fault?_later (distance : Nat) (item : Item) :
    (item.later distance).fault? = item.fault?.map (Fault.later distance) := by
  cases item <;> rfl

theorem scan_after {front : Bytes} (whole : front.getLast?.all Byte.isLineEnd = true)
    (cursor : Cursor) :
    scan (cursor.after front) = (scan cursor).map (Item.later front.length) := by
  have same := fun cursor => opening?_after whole cursor
  fun_induction scan cursor with
  | case1 cursor sequence length found attributes behind read induction =>
      have found' := same cursor
      rw [found] at found'
      have read' := Reader.attributesFrom_after front (cursor.advance length) .empty
      rw [← Cursor.advance_after] at read'
      rw [scan_record found' (read'.trans (congrArg _ read)), induction]
      rfl
  | case2 cursor sequence length found malformed failed induction =>
      have found' := same cursor
      rw [found] at found'
      have failed' := Reader.attributesFrom_after front (cursor.advance length) .empty
      rw [← Cursor.advance_after] at failed'
      rw [scan_fault found' (failed'.trans (congrArg _ failed)), Cursor.advance_after, induction]
      rfl
  | case3 cursor none past =>
      rw [scan_end]
      · rfl
      · exact past
  | case4 cursor none byte rest full induction =>
      have none' := same cursor
      rw [none] at none'
      rw [scan_pass none' full, Cursor.advance_after, induction]

/-! ## Data in front of more data -/

end Response

/-- The same place when more data follows behind everything. -/
def Cursor.before (more : Bytes) (cursor : Cursor) : Cursor :=
  ⟨cursor.offset, cursor.previous, cursor.rest ++ more⟩

namespace Cursor

theorem advance_before {count : Nat} {cursor : Cursor} (inside : count ≤ cursor.rest.length)
    (more : Bytes) : (cursor.before more).advance count = (cursor.advance count).before more := by
  induction count generalizing cursor with
  | zero => rfl
  | succ count induction =>
      obtain ⟨offset, previous, rest⟩ := cursor
      cases rest with
      | nil => simp at inside
      | cons byte rest =>
          exact @induction ⟨offset + 1, some byte, rest⟩ (Nat.le_of_succ_le_succ inside)

theorem agrees_before (cursor : Cursor) (more : Bytes) :
    Agrees (cursor.offset + cursor.rest.length) cursor (cursor.before more) where
  offset := rfl
  previous := rfl
  shared := ⟨cursor.rest, [], more, (List.append_nil _).symm, rfl, rfl⟩

theorem Leads.offset_le_end {cursor behind : Cursor} (leads : cursor.Leads behind) :
    behind.offset ≤ cursor.offset + cursor.rest.length := by
  obtain ⟨count, rfl⟩ := leads
  rw [offset_advance]
  omega

theorem Leads.same_end {cursor behind : Cursor} (leads : cursor.Leads behind) :
    behind.advance behind.rest.length = cursor.advance cursor.rest.length := by
  obtain ⟨count, rfl⟩ := leads
  rw [length_rest_advance, advance_advance, ← advance_min (count + _)]
  congr 1
  omega

theorem Leads.whole {cursor behind : Cursor} (leads : cursor.Leads behind)
    (whole : cursor.rest.getLast?.all Byte.isLineEnd = true) :
    behind.rest.getLast?.all Byte.isLineEnd = true := by
  obtain ⟨count, rfl⟩ := leads
  rw [rest_advance, List.getLast?_drop]
  split
  · rfl
  · exact whole

end Cursor

namespace Response

theorem attributes_before {cursor behind : Cursor} {attributes : Attributes}
    (read : Reader.attributes cursor = .ok (attributes, behind)) (more : Bytes) :
    Reader.attributes (cursor.before more) = .ok (attributes, behind.before more) := by
  have leads := Reader.leads_attributesFrom read
  obtain ⟨behind', again, later⟩ :=
    Reader.attributesFrom_agrees (cursor.agrees_before more) read leads.offset_le_end
  have place := (Reader.leads_attributesFrom again).eq_advance
  have within := leads.offset_le_end
  have origin : (cursor.before more).offset = cursor.offset := rfl
  rw [later.offset, origin, Cursor.advance_before (by omega), ← leads.eq_advance] at place
  rw [← place]
  exact again

theorem opening?_before {cursor : Cursor} (filled : cursor.rest ≠ [])
    (whole : cursor.rest.getLast?.all Byte.isLineEnd = true) (more : Bytes) :
    opening? (cursor.before more) = opening? cursor := by
  ext ⟨sequence, length⟩
  rw [opening?_eq_some_iff, opening?_eq_some_iff]
  constructor
  · rintro ⟨starts, opening, begins, rest⟩
    exact ⟨starts, opening, opening.inside_lines filled whole begins, rest⟩
  · rintro ⟨starts, opening, begins, rest⟩
    exact ⟨starts, opening, begins.trans (List.prefix_append _ _), rest⟩

/-- Whole lines without a fault give what they give alone, and then comes what follows them. -/
theorem scan_before {cursor : Cursor} (whole : cursor.rest.getLast?.all Byte.isLineEnd = true)
    (faultless : (scan cursor).filterMap Item.fault? = []) (more : Bytes) :
    scan (cursor.before more) =
      scan cursor ++ scan ((cursor.advance cursor.rest.length).before more) := by
  fun_induction scan cursor with
  | case1 cursor sequence length found attributes behind read induction =>
      have leads := (Cursor.leads_advance length cursor).trans (Reader.leads_attributesFrom read)
      have found' := opening?_before (rest_ne_nil_of_opening? found) whole more
      rw [found] at found'
      have inside : length ≤ cursor.rest.length := by
        obtain ⟨-, opening, begins, -, rfl⟩ := opening?_eq_some_iff.mp found
        exact begins.length_le
      have read' := attributes_before read more
      rw [← Cursor.advance_before inside] at read'
      rw [scan_record found' read', induction (leads.whole whole) faultless, leads.same_end]
      rfl
  | case2 cursor sequence length found malformed failed induction => cases faultless
  | case3 cursor none past => rw [past]; rfl
  | case4 cursor none byte rest full induction =>
      -- No opening reaches over a line end, so none begins here that ends in what follows.
      have filled : cursor.rest ≠ [] := by simp [full]
      have leads := Cursor.leads_advance 1 cursor
      have none' := opening?_before filled whole more
      rw [none] at none'
      have full' : (cursor.before more).rest = byte :: (rest ++ more) := by
        rw [Cursor.before, full, List.cons_append]
      have inside : 1 ≤ cursor.rest.length := List.length_pos_iff.mpr filled
      rw [scan_pass none' full', Cursor.advance_before inside,
        induction (leads.whole whole) faultless, leads.same_end]

/-- Behind whole lines that decode without a fault, further data is decoded as on its own: its
records follow theirs, and its faults are the same but for the distance from the start. -/
theorem collect_append {front : Bytes} (whole : front.getLast?.all Byte.isLineEnd = true)
    (faultless : (collect front).2 = []) (more : Bytes) :
    collect (front ++ more) =
      ((collect front).1 ++ (collect more).1,
        (collect more).2.map (Fault.later front.length)) := by
  have joint : ((Cursor.start front).advance front.length).before more =
      (Cursor.start more).after front := by
    have ended := Cursor.advance_length 0 none front []
    rw [List.append_nil, Nat.zero_add, Option.or_none] at ended
    rw [Cursor.start, ended]
    rfl
  have items : scan (.start (front ++ more)) =
      scan (.start front) ++ (scan (.start more)).map (Item.later front.length) := by
    have parts := @scan_before (.start front) whole faultless more
    rw [← scan_after whole, ← joint]
    exact parts
  simp only [collect, items, List.filterMap_append, List.filterMap_map, Function.comp_def,
    record?_later, fault?_later, List.map_filterMap, Prod.mk.injEq, true_and]
  rw [show (scan (.start front)).filterMap Item.fault? = [] from faultless, List.nil_append]

/-- A response that can be decoded, and data whose first response cannot. -/
def soundLines : Bytes := Bytes.ofNarrow "* 1 FETCH (UID 7)\r\n"

def faultyLines : Bytes := Bytes.ofNarrow "* 2 FETCH (UID\r\n* 3 FETCH (UID 9)\r\n"

/-- The fault stands at 14 in its own data, and at 33 behind the 19 bytes in front of it. -/
theorem fault_behind_sound_lines :
    soundLines.getLast?.all Byte.isLineEnd = true ∧ (collect soundLines).2 = [] ∧
      (collect (soundLines ++ faultyLines)).1.map Record.sequence = [.finite 1, .finite 3] ∧
      (collect (soundLines ++ faultyLines)).2 = [⟨.finite 2, ⟨.value, 33⟩⟩] := by
  have whole : soundLines.getLast?.all Byte.isLineEnd = true := by decide
  have faultless : (collect soundLines).2 = [] := by decide +kernel
  refine ⟨whole, faultless, ?_⟩
  rw [collect_append whole faultless]
  decide +kernel

end Response

end ImapDialogue
