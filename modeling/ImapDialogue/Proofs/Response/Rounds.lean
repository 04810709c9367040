import ImapDialogue.Proofs.Loop
import ImapDialogue.Proofs.Response.Moving
import ImapDialogue.Proofs.Response.Openings
import ImapDialogue.Proofs.Response.Transcript
import ImapDialogue.Proofs.Search.Leftmost

/-!
The readers of a response as they call one another, and the loops by their rounds. Values hold lists
and lists hold values, attributes follow until a parenthesis closes them, and responses until no
opening is found any more. Nothing in this says that it ever ends; it does because each reader moves
on.
-/

namespace ImapDialogue.Response

namespace Reader

/-! ## Lists in lists -/

/-- A call of one of the readers that call one another: for a value, which may be a list, for a
list, at its opening parenthesis, and for the items that follow in a list, which are added to the
ones read so far, the last first. -/
inductive Call where
  | value (cursor : Cursor)
  | list (cursor : Cursor)
  | items (known : List Value) (cursor : Cursor)

/-- A call returns with an answer, and so do the calls made in it. A call that goes on for ever, or
calls without end, does not return. -/
inductive Returns : Call → Answer Value → Prop where
  | scalar {cursor : Cursor} (unopened : cursor.rest.head? ≠ some Byte.openParen) :
      Returns (.value cursor) (scalar cursor)
  | opened {cursor : Cursor} {answer : Answer Value}
      (opens : cursor.rest.head? = some Byte.openParen) (list : Returns (.list cursor) answer) :
      Returns (.value cursor) answer
  | list {cursor : Cursor} {answer : Answer Value}
      (items : Returns (.items [] (cursor.advance 1)) answer) : Returns (.list cursor) answer
  | past {known : List Value} {cursor : Cursor} (nothing : cursor.skipSpaces.rest = []) :
      Returns (.items known cursor) (fail .closingParenthesis cursor.skipSpaces)
  | closed {known : List Value} {cursor : Cursor}
      (closes : cursor.skipSpaces.rest.head? = some Byte.closeParen) :
      Returns (.items known cursor) (.ok (closed known, cursor.skipSpaces.advance 1))
  | failed {known : List Value} {cursor : Cursor} {malformed : Malformed}
      (more : cursor.skipSpaces.rest ≠ [])
      (unclosed : cursor.skipSpaces.rest.head? ≠ some Byte.closeParen)
      (failed : Returns (.value cursor.skipSpaces) (.error malformed)) :
      Returns (.items known cursor) (.error malformed)
  | item {known : List Value} {cursor behind : Cursor} {value : Value} {answer : Answer Value}
      (more : cursor.skipSpaces.rest ≠ [])
      (unclosed : cursor.skipSpaces.rest.head? ≠ some Byte.closeParen)
      (read : Returns (.value cursor.skipSpaces) (.ok (value, behind)))
      (rest : Returns (.items (value :: known) behind) answer) :
      Returns (.items known cursor) answer

def Call.answer : Call → Answer Value
  | .value cursor => Reader.value cursor
  | .list cursor => listRest [] [] (cursor.advance 1)
  | .items known cursor => listRest [] known cursor

theorem listRest_append (inner outer : List (List Value)) (around items : List Value)
    (cursor : Cursor) :
    listRest (inner ++ around :: outer) items cursor =
      match listRest inner items cursor with
      | .error malformed => .error malformed
      | .ok (found, behind) => listRest outer (found :: around) behind := by
  fun_induction listRest inner items cursor with
  | case1 inner items cursor past =>
      rw [listRest_eq, past]
      rfl
  | case2 items cursor byte rest full closing =>
      rw [List.nil_append, listRest_eq, full]
      simp only [List.head?_cons, closing, if_true]
  | case3 items cursor byte rest full closing enclosing inner induction =>
      rw [listRest_eq, full]
      simp only [List.head?_cons, closing, if_true, List.cons_append]
      exact induction
  | case4 inner items cursor byte rest full closing opening induction =>
      rw [listRest_eq, full]
      simp only [List.head?_cons, closing, opening, if_true, Bool.false_eq_true, if_false]
      exact induction
  | case5 inner items cursor byte rest full closing opening malformed failed =>
      rw [listRest_eq, full]
      simp only [List.head?_cons, closing, opening, failed, Bool.false_eq_true, if_false]
  | case6 inner items cursor byte rest full closing opening value place read induction =>
      rw [listRest_eq, full]
      simp only [List.head?_cons, closing, opening, read, Bool.false_eq_true, if_false]
      exact induction

theorem listRest_value (items : List Value) (cursor : Cursor) :
    listRest [] items cursor =
      if cursor.skipSpaces.rest = [] then fail .closingParenthesis cursor.skipSpaces
      else if cursor.skipSpaces.rest.head? = some Byte.closeParen then
        .ok (closed items, cursor.skipSpaces.advance 1)
      else
        match value cursor.skipSpaces with
        | .error malformed => .error malformed
        | .ok (value, behind) => listRest [] (value :: items) behind := by
  rw [listRest_eq]
  cases full : cursor.skipSpaces.rest with
  | nil => rfl
  | cons byte rest =>
      simp only [List.head?_cons, Option.some.injEq, beq_iff_eq, reduceCtorEq, if_false]
      split
      · rfl
      · split
        · next opening =>
            rw [value_eq, full, List.head?_cons, if_pos (congrArg some opening)]
            exact listRest_append [] [] items [] _
        · next unopened =>
            have same : value cursor.skipSpaces = scalar cursor.skipSpaces := by
              rw [value_eq, full, List.head?_cons, if_neg]
              intro opening
              exact unopened (Option.some.inj opening)
            cases read : scalar cursor.skipSpaces with
            | error malformed => simp only [same, read]
            | ok answer => simp only [same, read]

theorem Returns.eq_answer {call : Call} {answer : Answer Value} (returns : Returns call answer) :
    answer = call.answer := by
  induction returns with
  | scalar unopened => rw [Call.answer, value_eq, if_neg unopened]
  | opened opens _ induction =>
      rw [Call.answer, value_eq, if_pos opens]
      exact induction
  | list _ induction => exact induction
  | past nothing => rw [Call.answer, listRest_value, if_pos nothing]
  | @closed known cursor closes =>
      have more : cursor.skipSpaces.rest ≠ [] := by
        intro nothing
        rw [nothing] at closes
        cases closes
      rw [Call.answer, listRest_value, if_neg more, if_pos closes]
  | failed more unclosed _ induction =>
      rw [Call.answer] at induction
      rw [Call.answer, listRest_value, if_neg more, if_neg unclosed, ← induction]
  | item more unclosed _ _ read rest =>
      rw [Call.answer] at read
      rw [Call.answer, listRest_value, if_neg more, if_neg unclosed, ← read]
      exact rest

/-- The reader of values returns where those for the items of shorter data do. -/
theorem returns_value {cursor : Cursor}
    (items : ∀ behind : Cursor, behind.rest.length < cursor.rest.length →
      Returns (.items [] behind) (listRest [] [] behind)) :
    Returns (.value cursor) (value cursor) := by
  rw [value_eq]
  split
  · next opens =>
      obtain ⟨rest, full⟩ := List.head?_eq_some_iff.mp opens
      apply Returns.opened opens
      apply Returns.list
      apply items
      rw [Cursor.length_rest_advance, full, List.length_cons]
      omega
  · next unopened => exact .scalar unopened

theorem returns_items (known : List Value) (cursor : Cursor) :
    Returns (.items known cursor) (listRest [] known cursor) := by
  -- The induction is on how much data is left.
  induction size : cursor.rest.length using Nat.strongRecOn generalizing known cursor with
  | ind size induction =>
      have upTo := cursor.length_rest_skipSpaces_le
      have value : Returns (.value cursor.skipSpaces) (value cursor.skipSpaces) := by
        apply returns_value
        intro behind shorter
        exact induction _ (by omega) [] behind rfl
      rw [listRest_value]
      split
      · next nothing => exact .past nothing
      · next more =>
          split
          · next closes => exact .closed closes
          · next unclosed =>
              cases read : Reader.value cursor.skipSpaces with
              | error malformed =>
                  rw [read] at value
                  exact .failed more unclosed value
              | ok answer =>
                  obtain ⟨found, behind⟩ := answer
                  rw [read] at value
                  have shorter := length_value read
                  apply Returns.item more unclosed value
                  exact induction _ (by omega) (found :: known) behind rfl

theorem returns_iff (call : Call) (answer : Answer Value) :
    Returns call answer ↔ answer = call.answer := by
  constructor
  · exact Returns.eq_answer
  · rintro rfl
    cases call with
    | value cursor => exact returns_value fun behind _ => returns_items [] behind
    | list cursor => exact .list (returns_items [] _)
    | items known cursor => exact returns_items known cursor

/-! ## Attributes -/

def attributesRound (state : Attributes × Cursor) :
    Round (Attributes × Cursor) (Answer Attributes) :=
  let place := state.2.skipSpaces
  if place.rest.head? = some Byte.closeParen then .leave (.ok (state.1, place.advance 1))
  else
    match name place with
    | .error malformed => .leave (.error malformed)
    | .ok (name, behind) =>
        match valueAfterName behind with
        | .error malformed => .leave (.error malformed)
        | .ok (value, behind) => .again (state.1.set name value, behind)

theorem variant_attributesRound (text : Bytes) :
    Loop.Variant attributesRound (fun state => state.2.offset) text.length
      (fun state => (Cursor.start text).Leads state.2)
      (fun state => attributesFrom state.1 state.2) where
  bounded := Cursor.offset_le_length
  step := by
    rintro ⟨known, cursor⟩ stands
    rw [attributesFrom_eq, attributesRound]
    dsimp only
    split
    · exact .inl rfl
    · cases named : name cursor.skipSpaces with
      | error malformed => exact .inl rfl
      | ok answer =>
          obtain ⟨found, place⟩ := answer
          have leads := cursor.leads_skipSpaces.trans (leads_name named)
          dsimp only
          cases valued : valueAfterName place with
          | error malformed => exact .inl rfl
          | ok answer =>
              obtain ⟨value, behind⟩ := answer
              have leads' := leads_valueAfterName valued
              have before := cursor.leads_skipSpaces.offset_le
              have further := offset_lt_of_shorter (leads_name named) (length_name named)
              have upTo := leads'.offset_le
              refine .inr ⟨_, rfl, ?_, ?_, rfl⟩
              · dsimp only
                omega
              · exact stands.trans (leads.trans leads')

end Reader

/-! ## Responses -/

/-- What some items come to, behind others, where certain faults are refused: all of them, or the
first fault that is. Whether one is may depend on the items in front of it. -/
def refuseBy (refuses : List Item → Fault → Bool) (known : List Item) :
    List Item → Except Malformed (List Item)
  | [] => .ok known
  | .record decoded :: items => refuseBy refuses (known ++ [.record decoded]) items
  | .fault reported :: items =>
      if refuses known reported then .error reported.malformed
      else refuseBy refuses (known ++ [.fault reported]) items

theorem refuseBy_never (known items : List Item) :
    refuseBy (fun _ _ => false) known items = .ok (known ++ items) := by
  induction items generalizing known with
  | nil => rw [refuseBy, List.append_nil]
  | cons item items induction =>
      cases item with
      | record decoded => rw [refuseBy, induction, List.append_assoc, List.singleton_append]
      | fault reported =>
          rw [refuseBy, if_neg Bool.false_ne_true, induction, List.append_assoc,
            List.singleton_append]

/-- Where all faults are refused, only records can be left. -/
theorem refuseBy_always (known items : List Item) :
    (refuseBy (fun _ _ => true) known items).map (·.filterMap Item.record?) =
      (refuse items).map (known.filterMap Item.record? ++ ·) := by
  induction items generalizing known with
  | nil =>
      rw [refuseBy, refuse_nil]
      simp only [Except.map, List.append_nil]
  | cons item items induction =>
      cases item with
      | record decoded =>
          rw [refuseBy, induction, refuse_record, List.filterMap_append]
          cases refuse items with
          | error malformed => rfl
          | ok records =>
              simp only [Except.map, List.append_assoc]
              rfl
      | fault reported => rfl

/-- One round of the search for responses, from a place on and with the items found so far: the next
opening, and the attributes behind it. The search goes on behind a response that was decoded, and
right behind the opening of one that was not, unless its fault is refused. -/
def scanRound (refuses : List Item → Fault → Bool) (text : Bytes) (state : Nat × List Item) :
    Round (Nat × List Item) (Except Malformed (List Item)) :=
  match Search.leftmostAt (fun _ => false) opening? ((Cursor.start text).advance state.1) with
  | none => .leave (.ok state.2)
  | some (place, sequence, length) =>
      match Reader.attributes ((Cursor.start text).advance (place + length)) with
      | .ok (attributes, behind) =>
          .again (behind.offset, state.2 ++ [.record ⟨sequence, attributes⟩])
      | .error malformed =>
          if refuses state.2 ⟨sequence, malformed⟩ then .leave (.error malformed)
          else .again (place + length, state.2 ++ [.fault ⟨sequence, malformed⟩])

theorem scan_unopened {cursor : Cursor}
    (nothing : Search.leftmostAt (fun _ => false) opening? cursor = none) : scan cursor = [] := by
  have idle : ∀ passed < cursor.rest.length, opening? (cursor.advance passed) = none := by
    intro passed before
    exact Search.passed_of_leftmost_none nothing (Nat.le_of_lt before) rfl
  have past : (cursor.advance cursor.rest.length).rest = [] := by
    rw [Cursor.rest_advance, List.drop_length]
  rw [scan_over_idle (Nat.le_refl _) idle, scan_end past]

/-- A search may skip to the first opening there is, which lies in the text as a whole. -/
theorem scan_opened {text : Bytes} {start place length : Nat} {sequence : Number}
    (within : start ≤ text.length)
    (found : Search.leftmostAt (fun _ => false) opening? ((Cursor.start text).advance start) =
      some (place, sequence, length)) :
    start ≤ place ∧ place + length ≤ text.length ∧
      opening? ((Cursor.start text).advance place) = some (sequence, length) ∧
      scan ((Cursor.start text).advance start) = scan ((Cursor.start text).advance place) := by
  obtain ⟨step, upTo, same, -, opened⟩ := Search.leftmost_found found
  have idle : ∀ passed < step,
      opening? (((Cursor.start text).advance start).advance passed) = none := by
    intro passed before
    rw [Option.eq_none_iff_forall_ne_some]
    intro answer opened'
    have first := Search.leftmost_least found (Nat.le_of_lt (Nat.lt_of_lt_of_le before upTo)) rfl
      opened'
    dsimp only at first same
    omega
  have skipped := scan_over_idle upTo idle
  have offset : ((Cursor.start text).advance start).offset = start := by
    rw [Cursor.start_advance within]
  have left : ((Cursor.start text).advance start).rest.length = text.length - start :=
    Cursor.length_rest_advance _ _
  have place_eq : place = start + step := offset ▸ same
  rw [Cursor.advance_advance, ← place_eq] at skipped
  have opened : opening? ((Cursor.start text).advance place) = some (sequence, length) := by
    rw [place_eq, ← Cursor.advance_advance]
    exact opened
  obtain ⟨opening, stands, -, long⟩ := Opening.StandsAt.of_found (by omega) opened
  have short := stands.within
  rw [long] at short
  exact ⟨by omega, short, opened, skipped⟩

/-- The search for responses moves on with each of them, whether or not it was decoded. -/
theorem variant_scanRound (refuses : List Item → Fault → Bool) (text : Bytes) :
    Loop.Variant (scanRound refuses text) Prod.fst text.length
      (fun state => state.1 ≤ text.length)
      (fun state => refuseBy refuses state.2 (scan ((Cursor.start text).advance state.1))) where
  bounded := id
  step := by
    rintro ⟨start, known⟩ within
    rw [scanRound]
    dsimp only
    cases found : Search.leftmostAt (fun _ => false) opening?
        ((Cursor.start text).advance start) with
    | none =>
        rw [scan_unopened found]
        exact .inl rfl
    | some answer =>
        obtain ⟨place, sequence, length⟩ := answer
        obtain ⟨further, short, opened, skipped⟩ := scan_opened within found
        have filled := length_opening? opened
        have body : ((Cursor.start text).advance place).advance length =
            (Cursor.start text).advance (place + length) := Cursor.advance_advance _ _ _
        rw [skipped]
        dsimp only
        rw [← body]
        cases read : Reader.attributes (((Cursor.start text).advance place).advance length) with
        | ok answer =>
            obtain ⟨attributes, behind⟩ := answer
            have moved := Reader.offset_lt_attributesFrom read
            have leads := Reader.leads_attributesFrom read
            rw [body] at moved leads
            rw [Cursor.start_advance short] at moved
            have stands := (Cursor.leads_advance (place + length) _).trans leads
            have told : behind = (Cursor.start text).advance behind.offset := stands.eq_advance
            right
            refine ⟨(behind.offset, known ++ [.record ⟨sequence, attributes⟩]), rfl, ?_,
              Cursor.offset_le_length stands, ?_⟩
            · dsimp only at moved ⊢
              omega
            · rw [scan_record opened read, refuseBy]
              dsimp only
              rw [← told]
        | error malformed =>
            rw [scan_fault opened read, refuseBy, body]
            dsimp only
            split
            · exact .inl rfl
            · right
              refine ⟨(place + length, known ++ [.fault ⟨sequence, malformed⟩]), rfl, ?_, short,
                rfl⟩
              dsimp only
              omega

/-- Every reader moves on and stays within the text, or tells a place in it where it failed. So the
readers of values and lists end that call one another, and so do the loops for attributes and for
responses, whatever is done with the faults: with no fault refused all items are found, and with all
of them refused the records, or the first fault. -/
theorem readers_move_on_and_end (text : Bytes) :
    (∀ place ≤ text.length,
      let cursor := (Cursor.start text).advance place
      Reader.Fits cursor ∧ Reader.MovesOn text cursor ∧
        Loop.Leaves Reader.attributesRound (fun state => state.2.offset) text.length
          (.empty, cursor) (Reader.attributes cursor)) ∧
    (∀ call answer, Reader.Returns call answer ↔ answer = call.answer) ∧
    (∀ refuses, Loop.Leaves (scanRound refuses text) Prod.fst text.length (0, [])
      (refuseBy refuses [] (scan (.start text)))) ∧
    refuseBy (fun _ _ => false) [] (scan (.start text)) = .ok (scan (.start text)) ∧
    (refuseBy (fun _ _ => true) [] (scan (.start text))).map (·.filterMap Item.record?) =
      strict text := by
  constructor
  · intro place _ cursor
    have stands : (Cursor.start text).Leads cursor := Cursor.leads_advance place _
    exact ⟨Reader.fits cursor, Reader.movesOn stands,
      (Reader.variant_attributesRound text).leaves stands⟩
  constructor
  · exact Reader.returns_iff
  constructor
  · intro refuses
    exact (variant_scanRound refuses text).leaves (Nat.zero_le _)
  constructor
  · exact refuseBy_never [] _
  · have whole : (fun records : List Record => [] ++ records) = id := funext List.nil_append
    rw [refuseBy_always, strict, strictFrom_eq, List.filterMap_nil, whole]
    cases refuse (scan (.start text)) <;> rfl

/-- The name of the first response is never closed, for it closes more brackets than it opens. It
runs on to the end of the line, where no value follows. -/
def strayBracket : Bytes := Bytes.ofNarrow "* 1 FETCH (A] (B\r\n* 2 FETCH (B ((7) NIL))\r\n"

theorem nested_list_behind_stray_bracket :
    let nested := (Cursor.start strayBracket).advance 32
    32 ≤ strayBracket.length ∧ nested.rest ≠ [] ∧
      Reader.Progresses strayBracket nested (Reader.listRest [] [] (nested.advance 1)) ∧
      Loop.Leaves (scanRound (fun _ _ => false) strayBracket) Prod.fst strayBracket.length (0, [])
        (.ok (scan (.start strayBracket))) ∧
      (collect strayBracket).1.map Record.sequence = [.finite 2] ∧
      (collect strayBracket).2 = [⟨.finite 1, ⟨.value, 16⟩⟩] := by
  intro nested
  have within : 32 ≤ strayBracket.length := by decide +kernel
  have more : nested.rest ≠ [] := by decide +kernel
  obtain ⟨readers, -, searches, collected, -⟩ := readers_move_on_and_end strayBracket
  have leaves := searches fun _ _ => false
  rw [collected] at leaves
  have moves := (readers 32 within).2.1
  exact ⟨within, more, moves.list more, leaves, by decide +kernel, by decide +kernel⟩

end ImapDialogue.Response
