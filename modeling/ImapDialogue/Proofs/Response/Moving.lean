import ImapDialogue.Proofs.Response.Agreement

/-!
Where the readers of a response are when they are done. One that has read something is further on
than before, and one that fails tells the place where it was or one further on. None of them is ever
past the end of the text.
-/

namespace ImapDialogue.Response.Reader

variable {α : Type} {cursor behind : Cursor} {malformed : Malformed}

/-! ## Failures -/

def FailsFrom (cursor : Cursor) (malformed : Malformed) : Prop :=
  ∃ place, cursor.Leads place ∧ malformed.offset = place.offset

theorem FailsFrom.widen {first : Cursor} (fails : FailsFrom first malformed)
    (leads : cursor.Leads first) : FailsFrom cursor malformed := by
  obtain ⟨place, further, told⟩ := fails
  exact ⟨place, leads.trans further, told⟩

theorem fails_at {missing : Missing} {place : Cursor} (leads : cursor.Leads place) :
    FailsFrom cursor ⟨missing, place.offset⟩ := ⟨place, leads, rfl⟩

theorem fails_name (failed : name cursor = .error malformed) : FailsFrom cursor malformed := by
  rw [name_eq] at failed
  split at failed
  · cases failed
    exact fails_at (Cursor.leads_advance _ cursor)
  · cases failed

theorem fails_quoted (failed : quoted cursor = .error malformed) : FailsFrom cursor malformed := by
  unfold quoted at failed
  split at failed
  · cases failed
  · cases failed
    exact fails_at (Cursor.leads_advance _ cursor)

theorem fails_literal (failed : literal cursor = .error malformed) :
    FailsFrom cursor malformed := by
  unfold literal at failed
  split at failed
  · cases failed
    exact fails_at (.refl cursor)
  · dsimp only at failed
    split at failed
    · cases failed
      exact fails_at (.refl cursor)
    · cases failed

theorem fails_atom (failed : atom cursor = .error malformed) : FailsFrom cursor malformed := by
  unfold atom at failed
  dsimp only at failed
  split at failed
  · cases failed
    exact fails_at (.refl cursor)
  · cases failed

theorem fails_scalar (failed : scalar cursor = .error malformed) : FailsFrom cursor malformed := by
  rw [scalar_eq] at failed
  split at failed
  · exact fails_quoted failed
  · split at failed
    · exact fails_literal failed
    · exact fails_atom failed

theorem fails_listRest {outer : List (List Value)} {items : List Value}
    (failed : listRest outer items cursor = .error malformed) : FailsFrom cursor malformed := by
  fun_induction listRest outer items cursor with
  | case1 =>
      cases failed
      exact fails_at (Cursor.leads_skipSpaces _)
  | case2 => cases failed
  | case3 items cursor byte rest full closing around outer induction =>
      exact (induction failed).widen (cursor.leads_skipSpaces.trans (Cursor.leads_advance 1 _))
  | case4 outer items cursor byte rest full closing opening induction =>
      exact (induction failed).widen (cursor.leads_skipSpaces.trans (Cursor.leads_advance 1 _))
  | case5 outer items cursor byte rest full closing opening reported read =>
      cases failed
      exact (fails_scalar read).widen cursor.leads_skipSpaces
  | case6 outer items cursor byte rest full closing opening value place read induction =>
      exact (induction failed).widen (cursor.leads_skipSpaces.trans (leads_scalar read))

theorem fails_value (failed : value cursor = .error malformed) : FailsFrom cursor malformed := by
  rw [value_eq] at failed
  split at failed
  · exact (fails_listRest failed).widen (Cursor.leads_advance 1 cursor)
  · exact fails_scalar failed

theorem fails_valueAfterName (failed : valueAfterName cursor = .error malformed) :
    FailsFrom cursor malformed := by
  rw [valueAfterName_eq] at failed
  split at failed
  · cases failed
  · exact (fails_value failed).widen cursor.leads_skipSpaces

theorem fails_attributesFrom {known : Attributes}
    (failed : attributesFrom known cursor = .error malformed) : FailsFrom cursor malformed := by
  fun_induction attributesFrom known cursor with
  | case1 => cases failed
  | case2 known cursor reported named unclosed =>
      cases failed
      exact (fails_name named).widen cursor.leads_skipSpaces
  | case3 known cursor found place named reported valued unclosed =>
      cases failed
      exact (fails_valueAfterName valued).widen
        (cursor.leads_skipSpaces.trans (leads_name named))
  | case4 known cursor found place named value place' valued unclosed induction =>
      exact (induction failed).widen ((cursor.leads_skipSpaces.trans (leads_name named)).trans
        (leads_valueAfterName valued))

/-! ## Readings -/

structure Passes (cursor behind : Cursor) : Prop where
  leads : cursor.Leads behind
  further : cursor.offset < behind.offset

theorem passes_of_shorter (leads : cursor.Leads behind)
    (shorter : behind.rest.length < cursor.rest.length) : Passes cursor behind :=
  ⟨leads, offset_lt_of_shorter leads shorter⟩

theorem passes_advance {count : Nat} (filled : 0 < count) (within : count ≤ cursor.rest.length) :
    Passes cursor (cursor.advance count) where
  leads := Cursor.leads_advance count cursor
  further := by
    rw [Cursor.offset_advance_of_le within]
    omega

/-- No reader takes more bytes than are left at a place. -/
structure Fits (cursor : Cursor) : Prop where
  name : nameLength 0 cursor.rest ≤ cursor.rest.length
  quoted : ∀ {bytes length}, unquote (cursor.rest.drop 1) = some (bytes, length) →
    length + 1 ≤ cursor.rest.length
  literal : ∀ {header read}, Literal.header? (cursor.rest.take headerLimit) = some header →
    literal cursor = .ok read → header.length + header.size ≤ cursor.rest.length
  atom : (cursor.rest.takeWhile (!endsAtom ·)).length ≤ cursor.rest.length

theorem fits (cursor : Cursor) : Fits cursor where
  name := nameLength_le 0 cursor.rest
  quoted := by
    intro bytes length found
    have short := (unquote_shared found).1
    rw [List.length_drop] at short
    cases full : cursor.rest with
    | nil =>
        rw [full, List.drop_nil] at found
        cases found
    | cons byte rest =>
        rw [full, List.length_cons] at short
        rw [List.length_cons]
        omega
  literal := by
    intro header read found complete
    have short := (Literal.length_header_pos found).2
    rw [List.length_take] at short
    unfold Reader.literal at complete
    rw [found] at complete
    dsimp only at complete
    split at complete
    · cases complete
    · next enough =>
        rw [List.length_take, List.length_drop] at enough
        omega
  atom := (List.takeWhile_prefix _).length_le

theorem passes_quoted {found : Value} (read : quoted cursor = .ok (found, behind)) :
    Passes cursor behind := by
  unfold quoted at read
  split at read
  · next bytes length closes =>
      cases read
      exact passes_advance (Nat.succ_pos length) ((fits cursor).quoted closes)
  · cases read

theorem passes_literal {found : Value} (read : literal cursor = .ok (found, behind)) :
    Passes cursor behind := by
  have whole := read
  unfold literal at read
  split at read
  · cases read
  · next header begun =>
      dsimp only at read
      split at read
      · cases read
      · cases read
        have filled := (Literal.length_header_pos begun).1
        exact passes_advance (Nat.add_pos_left filled _) ((fits cursor).literal begun whole)

theorem passes_atom {found : Value} (read : atom cursor = .ok (found, behind)) :
    Passes cursor behind := by
  unfold atom at read
  dsimp only at read
  split at read
  · cases read
  · next filled =>
      cases read
      rw [List.isEmpty_iff] at filled
      exact passes_advance (List.length_pos_iff.mpr filled) (fits cursor).atom

/-! ## Both -/

/-- A reader's answer at a place of a text: what it has read and a place behind that one, or a
failure that tells that place or one behind it. Both lie within the text. -/
def Progresses (text : Bytes) (cursor : Cursor) : Answer α → Prop
  | .ok (_, behind) => cursor.offset < behind.offset ∧ behind.offset ≤ text.length ∧
      behind = (Cursor.start text).advance behind.offset
  | .error malformed => cursor.offset ≤ malformed.offset ∧ malformed.offset ≤ text.length

theorem progresses {text : Bytes} {answer : Answer α} (stands : (Cursor.start text).Leads cursor)
    (passes : ∀ {found behind}, answer = .ok (found, behind) → Passes cursor behind)
    (fails : ∀ {malformed}, answer = .error malformed → FailsFrom cursor malformed) :
    Progresses text cursor answer := by
  cases answer with
  | ok read =>
      have passed := passes rfl
      have leads := stands.trans passed.leads
      exact ⟨passed.further, Cursor.offset_le_length leads, leads.eq_advance⟩
  | error malformed =>
      obtain ⟨place, further, told⟩ := fails rfl
      have within := Cursor.offset_le_length (stands.trans further)
      rw [Progresses, told]
      exact ⟨further.offset_le, within⟩

/-- What every reader does at a place of a text. A list and a quoted string are read only where a
byte stands, for their readers pass over it unseen. -/
structure MovesOn (text : Bytes) (cursor : Cursor) : Prop where
  name : Progresses text cursor (name cursor)
  value : Progresses text cursor (value cursor)
  list : cursor.rest ≠ [] → Progresses text cursor (listRest [] [] (cursor.advance 1))
  quoted : cursor.rest ≠ [] → Progresses text cursor (quoted cursor)
  literal : Progresses text cursor (literal cursor)
  atom : Progresses text cursor (atom cursor)
  attributes : Progresses text cursor (attributes cursor)

theorem movesOn {text : Bytes} (stands : (Cursor.start text).Leads cursor) :
    MovesOn text cursor where
  name := progresses stands (fun read => passes_of_shorter (leads_name read) (length_name read))
    fails_name
  value := progresses stands
    (fun read => passes_of_shorter (leads_value read) (length_value read)) fails_value
  list := by
    intro _
    have first := Cursor.leads_advance 1 cursor
    apply progresses stands
    · intro found behind read
      have shorter := length_listRest read
      rw [Cursor.length_rest_advance] at shorter
      exact passes_of_shorter (first.trans (leads_listRest read)) (by omega)
    · intro malformed failed
      exact (fails_listRest failed).widen first
  quoted := fun _ => progresses stands passes_quoted fails_quoted
  literal := progresses stands passes_literal fails_literal
  atom := progresses stands passes_atom fails_atom
  attributes := progresses stands
    (fun read => passes_of_shorter (leads_attributesFrom read) (length_attributesFrom read))
    fails_attributesFrom

end ImapDialogue.Response.Reader
