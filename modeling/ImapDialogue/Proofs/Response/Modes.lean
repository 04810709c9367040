import ImapDialogue.Proofs.Response.Steps

/-!
Received data can be read in two ways. Collecting keeps the faults beside the records and reads on
behind each of them; refusing stops at the first one. Both take the same steps up to there.
-/

namespace ImapDialogue.Response

/-! ## The steps of a search that refuses faults -/

theorem strictFrom_record {cursor behind : Cursor} {sequence : Number} {length : Nat}
    {attributes : Attributes} (found : opening? cursor = some (sequence, length))
    (read : Reader.attributes (cursor.advance length) = .ok (attributes, behind)) :
    strictFrom cursor = (strictFrom behind).map (⟨sequence, attributes⟩ :: ·) := by
  rw [strictFrom.eq_def]
  split
  · next sequence' length' same =>
      rw [found] at same
      obtain ⟨rfl, rfl⟩ := Prod.mk.inj (Option.some.inj same)
      split
      · next attributes' behind' done =>
          rw [read] at done
          obtain ⟨rfl, rfl⟩ := Prod.mk.inj (Except.ok.inj done)
          rfl
      · next failed => simp [read] at failed
  · next none => simp [found] at none

theorem strictFrom_fault {cursor : Cursor} {sequence : Number} {length : Nat}
    {malformed : Malformed} (found : opening? cursor = some (sequence, length))
    (failed : Reader.attributes (cursor.advance length) = .error malformed) :
    strictFrom cursor = .error malformed := by
  rw [strictFrom.eq_def]
  split
  · next sequence' length' same =>
      rw [found] at same
      obtain ⟨rfl, rfl⟩ := Prod.mk.inj (Option.some.inj same)
      split
      · next attributes behind read => simp [failed] at read
      · next malformed' same =>
          rw [failed] at same
          obtain rfl := Except.error.inj same
          rfl
  · next none => simp [found] at none

theorem strictFrom_pass {cursor : Cursor} {byte : UInt8} {rest : Bytes}
    (none : opening? cursor = none) (full : cursor.rest = byte :: rest) :
    strictFrom cursor = strictFrom (cursor.advance 1) := by
  rw [strictFrom.eq_def]
  split
  · next found => simp [none] at found
  · split
    · next empty => simp [full] at empty
    · rfl

theorem strictFrom_end {cursor : Cursor} (none : opening? cursor = none)
    (past : cursor.rest = []) : strictFrom cursor = .ok [] := by
  rw [strictFrom.eq_def]
  split
  · next found => simp [none] at found
  · split
    · rfl
    · next full => simp [past] at full

/-! ## Both modes -/

def refuse (items : List Item) : Except Malformed (List Record) :=
  match items.filterMap Item.fault? with
  | [] => .ok (items.filterMap Item.record?)
  | first :: _ => .error first.malformed

@[simp]
theorem refuse_nil : refuse [] = .ok [] := rfl

@[simp]
theorem refuse_fault (reported : Fault) (items : List Item) :
    refuse (.fault reported :: items) = .error reported.malformed := rfl

@[simp]
theorem refuse_record (decoded : Record) (items : List Item) :
    refuse (.record decoded :: items) = (refuse items).map (decoded :: ·) := by
  have faults : (Item.record decoded :: items).filterMap Item.fault? =
      items.filterMap Item.fault? := rfl
  rw [refuse, refuse, faults]
  cases items.filterMap Item.fault? with
  | nil => rfl
  | cons first others => rfl

/-- Refusing faults is refusing the first of those that collecting would report. -/
theorem strictFrom_eq (cursor : Cursor) : strictFrom cursor = refuse (scan cursor) := by
  fun_induction scan cursor with
  | case1 cursor sequence length found attributes behind read induction =>
      rw [strictFrom_record found read, induction, refuse_record]
  | case2 cursor sequence length found malformed failed induction =>
      rw [strictFrom_fault found failed, refuse_fault]
  | case3 cursor none past => rw [strictFrom_end none past, refuse_nil]
  | case4 cursor none byte rest full induction => rw [strictFrom_pass none full, induction]

/-- Where no fault is reported, refusing faults makes no difference. -/
theorem strictFrom_of_faultless {cursor : Cursor}
    (faultless : (scan cursor).filterMap Item.fault? = []) :
    strictFrom cursor = .ok ((scan cursor).filterMap Item.record?) := by
  rw [strictFrom_eq, refuse, faultless]

/-- Refusing faults gives records exactly if collecting gives the same ones without a fault, and
it fails exactly if collecting reports a fault, with the first one's malformation. -/
theorem refusing_stops_at_first_collected (text : Bytes) :
    (∀ records, strict text = .ok records ↔ collect text = (records, [])) ∧
      ∀ malformed, strict text = .error malformed ↔
        ∃ first others, (collect text).2 = first :: others ∧ first.malformed = malformed := by
  have refused : strict text = refuse (scan (.start text)) := strictFrom_eq (.start text)
  have collected : collect text =
      ((scan (.start text)).filterMap Item.record?, (scan (.start text)).filterMap Item.fault?) :=
    rfl
  rw [refused, collected, refuse]
  cases (scan (.start text)).filterMap Item.fault? with
  | nil => simp
  | cons first others => simp

end ImapDialogue.Response
