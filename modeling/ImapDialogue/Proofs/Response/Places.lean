import ImapDialogue.Proofs.Response.Progress
import ImapDialogue.Response.Scan

/-!
Where the responses begin that the search comes to. None begins within a literal of a response
that was decoded. Within a literal of one that could not be decoded another one may begin, for the
search goes on right behind its opening; but then its fault is reported.
-/

namespace ImapDialogue.Response

open Literal (Region)

/-- A response that the search comes to, by the place of its opening. -/
structure Sighting where
  place : Cursor
  sequence : Number
  length : Nat
  opened : opening? place = some (sequence, length)

namespace Sighting

def body (sighting : Sighting) : Cursor := sighting.place.advance sighting.length

def item (sighting : Sighting) : Item :=
  match Reader.attributes sighting.body with
  | .ok (attributes, _) => .record ⟨sighting.sequence, attributes⟩
  | .error malformed => .fault ⟨sighting.sequence, malformed⟩

def behind (sighting : Sighting) : Cursor :=
  match Reader.attributes sighting.body with
  | .ok (_, behind) => behind
  | .error _ => sighting.body

/-- The data of the literals that were accepted in the response, also if it could not be decoded
in the end. -/
def literals (sighting : Sighting) : List Region := Reader.attributesData sighting.body

theorem place_lt_body (sighting : Sighting) : sighting.place.offset < sighting.body.offset := by
  have long := length_opening? sighting.opened
  have filled := List.length_pos_iff.mpr (rest_ne_nil_of_opening? sighting.opened)
  rw [body, Cursor.offset_advance]
  omega

theorem leads_body (sighting : Sighting) : sighting.place.Leads sighting.body :=
  Cursor.leads_advance _ _

theorem leads_behind (sighting : Sighting) : sighting.body.Leads sighting.behind := by
  unfold behind
  split
  · next decoded => exact Reader.leads_attributesFrom decoded
  · exact .refl _

theorem length_behind (sighting : Sighting) :
    sighting.behind.rest.length < sighting.place.rest.length := by
  have long := length_opening? sighting.opened
  have filled := List.length_pos_iff.mpr (rest_ne_nil_of_opening? sighting.opened)
  obtain ⟨count, further⟩ := sighting.leads_behind
  rw [further, body, Cursor.length_rest_advance, Cursor.length_rest_advance]
  omega

/-- The literals of a response that was decoded lie between its opening and the place where the
search goes on. -/
theorem spans_literals {sighting : Sighting} {decoded : Record}
    (read : sighting.item = .record decoded) :
    Reader.Spans sighting.body sighting.behind sighting.literals := by
  unfold item at read
  unfold behind literals
  split at read
  · next found => exact Reader.spans_attributesFrom found
  · cases read

end Sighting

/-- The responses that the search comes to from a place on, in order. -/
def sightings (cursor : Cursor) : List Sighting :=
  match found : opening? cursor with
  | some (sequence, length) =>
      ⟨cursor, sequence, length, found⟩ ::
        sightings (Sighting.behind ⟨cursor, sequence, length, found⟩)
  | none =>
      match _rest : cursor.rest with
      | [] => []
      | _ :: _ => sightings (cursor.advance 1)
termination_by cursor.rest.length
decreasing_by
  · exact Sighting.length_behind _
  · have filled := congrArg List.length _rest
    rw [Cursor.length_rest_advance]
    simp only [List.length_cons] at filled
    omega

theorem items_sightings (cursor : Cursor) :
    (sightings cursor).map Sighting.item = scan cursor := by
  fun_induction sightings cursor with
  | case1 cursor sequence length found induction =>
      rw [scan.eq_def, List.map_cons, induction]
      split
      · next same =>
          rw [found] at same
          cases same
          unfold Sighting.item Sighting.behind Sighting.body
          dsimp only
          cases Reader.attributes (cursor.advance length) with
          | ok => rfl
          | error => rfl
      · next none => rw [found] at none; cases none
  | case2 cursor none empty =>
      rw [scan.eq_def]
      split
      · next found => rw [none] at found; cases found
      · split
        · rfl
        · next full => rw [empty] at full; cases full
  | case3 cursor none byte rest full induction =>
      rw [scan.eq_def, induction]
      split
      · next found => rw [none] at found; cases found
      · split
        · next empty => rw [full] at empty; cases empty
        · rfl

theorem item_mem_scan {cursor : Cursor} {sighting : Sighting}
    (seen : sighting ∈ sightings cursor) : sighting.item ∈ scan cursor := by
  rw [← items_sightings]
  exact List.mem_map_of_mem seen

theorem leads_sightings {cursor : Cursor} {sighting : Sighting}
    (seen : sighting ∈ sightings cursor) : cursor.Leads sighting.place := by
  fun_induction sightings cursor with
  | case1 cursor sequence length found induction =>
      rcases List.mem_cons.mp seen with rfl | later
      · exact .refl _
      · exact ((Sighting.leads_body _).trans (Sighting.leads_behind _)).trans (induction later)
  | case2 => cases seen
  | case3 cursor none byte rest full induction =>
      exact (Cursor.leads_advance 1 cursor).trans (induction seen)

/-- After each response, the search goes on at the place behind it if it was decoded and behind its
opening if not. -/
theorem sightings_behind {cursor : Cursor} {front back : List Sighting} {sighting : Sighting}
    (seen : sightings cursor = front ++ sighting :: back) : back = sightings sighting.behind := by
  fun_induction sightings cursor generalizing front with
  | case1 cursor sequence length found induction =>
      cases front with
      | nil =>
          obtain ⟨rfl, rfl⟩ := List.cons.inj seen
          rfl
      | cons first front => exact induction (List.cons.inj seen).2
  | case2 => simp at seen
  | case3 cursor none byte rest full induction => exact induction seen

/-- Nothing begins within a literal of a response that was decoded: what the search came to before
begins in front of it, and it goes on behind it. -/
theorem places_outside_literals {cursor : Cursor} {enclosing other : Sighting} {decoded : Record}
    {region : Region} (seen : enclosing ∈ sightings cursor) (seen' : other ∈ sightings cursor)
    (read : enclosing.item = .record decoded) (literal : region ∈ enclosing.literals) :
    region.contains other.place.offset = false := by
  have bounds := enclosing.spans_literals read region literal
  have opening := enclosing.place_lt_body
  have apart : other.place.offset ≤ enclosing.place.offset ∨
      enclosing.behind.offset ≤ other.place.offset := by
    fun_induction sightings cursor with
    | case1 cursor sequence length found induction =>
        rcases List.mem_cons.mp seen with rfl | later
        · rcases List.mem_cons.mp seen' with rfl | later'
          · exact .inl le_rfl
          · exact .inr (leads_sightings later').offset_le
        · rcases List.mem_cons.mp seen' with rfl | later'
          · exact .inl (((Sighting.leads_body _).trans (Sighting.leads_behind _)).trans
              (leads_sightings later)).offset_le
          · exact induction later later'
    | case2 => cases seen
    | case3 cursor none byte rest full induction => exact induction seen seen'
  simp only [Region.contains, Bool.and_eq_false_iff, decide_eq_false_iff_not]
  omega

/-- A response begins within a literal that was accepted while another one was read only if that
one could not be decoded in the end, and then its fault is among the ones that are reported. -/
theorem records_begin_outside_decoded_literals (bytes : Bytes) :
    let seen := sightings (.start bytes)
    seen.map Sighting.item = scan (.start bytes) ∧
      (∀ sighting ∈ seen, (Cursor.start bytes).Leads sighting.place) ∧
      (∀ front sighting back, seen = front ++ sighting :: back →
        back = sightings sighting.behind) ∧
      ∀ enclosing ∈ seen, ∀ region ∈ enclosing.literals, ∀ other ∈ seen,
        region.contains other.place.offset = true →
          ∃ fault, enclosing.item = .fault fault ∧ fault ∈ (collect bytes).2 := by
  refine ⟨items_sightings _, fun _ => leads_sightings, fun _ _ _ => sightings_behind, ?_⟩
  intro enclosing seen region literal other seen' within
  cases outcome : enclosing.item with
  | record decoded =>
      rw [places_outside_literals seen seen' outcome literal] at within
      cases within
  | fault reported =>
      have listed := item_mem_scan seen
      rw [outcome] at listed
      exact ⟨reported, rfl, List.mem_filterMap.mpr ⟨_, listed, rfl⟩⟩

/-- A message's text holds a whole response. Behind the message an attribute has no value, so the
response around it is at fault, and the one in the message is taken for one of the server's. -/
def quotingFault : Bytes :=
  Bytes.ofNarrow "* 1 FETCH (BODY[] {21}\r\n* 9 FETCH (UID 666)\r\n UID\r\n"

theorem record_begins_in_literal_of_faulty_response :
    ∃ enclosing ∈ sightings (.start quotingFault), ∃ region ∈ enclosing.literals,
      ∃ other ∈ sightings (.start quotingFault),
        region.contains other.place.offset = true ∧
          ∃ decoded, other.item = .record decoded ∧ decoded ∈ (collect quotingFault).1 := by
  have begins : ((sightings (.start quotingFault)).any fun enclosing =>
      enclosing.literals.any fun region => (sightings (.start quotingFault)).any fun other =>
        region.contains other.place.offset && other.item.record?.isSome) = true := by
    decide +kernel
  obtain ⟨enclosing, seen, begins⟩ := List.any_eq_true.mp begins
  obtain ⟨region, literal, begins⟩ := List.any_eq_true.mp begins
  obtain ⟨other, seen', begins⟩ := List.any_eq_true.mp begins
  obtain ⟨within, decoded⟩ := Bool.and_eq_true_iff.mp begins
  refine ⟨enclosing, seen, region, literal, other, seen', within, ?_⟩
  cases outcome : other.item with
  | record decoded =>
      have listed := item_mem_scan seen'
      rw [outcome] at listed
      exact ⟨decoded, rfl, List.mem_filterMap.mpr ⟨_, listed, rfl⟩⟩
  | fault => rw [outcome] at decoded; cases decoded

end ImapDialogue.Response
