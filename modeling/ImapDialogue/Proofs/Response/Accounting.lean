import ImapDialogue.Proofs.Response.Agreement
import ImapDialogue.Proofs.Response.Openings
import ImapDialogue.Proofs.Response.Places

/-!
What becomes of every opening in a text. Each one begins a record or a fault that is reported, or
it lies within the data of a record; and there is only one such record or fault. The records take
up data that does not overlap, in the order of the text.
-/

namespace ImapDialogue.Response

/-! ## The account of a text -/

/-- A record, and the data that it takes up from its opening to its closing parenthesis. -/
structure Decoded where
  start : Nat
  stop : Nat
  record : Record

/-- A fault, and where the response began that could not be decoded. -/
structure Undecoded where
  start : Nat
  fault : Fault

structure Decoded.ReadFrom (decoded : Decoded) (text : Bytes) : Prop where
  read : ∃ opening : Opening, opening.StandsAt text decoded.start ∧
    opening.sequence = decoded.record.sequence ∧
    decoded.start + opening.bytes.length < decoded.stop ∧
    Reader.attributes ((Cursor.start text).advance (decoded.start + opening.bytes.length)) =
      .ok (decoded.record.attributes, (Cursor.start text).advance decoded.stop)
  inside : decoded.stop ≤ text.length
  closed : (text.take decoded.stop).getLast? = some Byte.closeParen

def Undecoded.ReadFrom (undecoded : Undecoded) (text : Bytes) : Prop :=
  ∃ opening : Opening, opening.StandsAt text undecoded.start ∧
    opening.sequence = undecoded.fault.sequence ∧
    Reader.attributes ((Cursor.start text).advance (undecoded.start + opening.bytes.length)) =
      .error undecoded.fault.malformed

/-- An account of all openings in a text by the records and the faults that were found in it. -/
structure Accounts (text : Bytes) (decoded : List Decoded) (undecoded : List Undecoded) :
    Prop where
  records : decoded.map Decoded.record = (collect text).1
  faults : undecoded.map Undecoded.fault = (collect text).2
  read : ∀ response ∈ decoded, response.ReadFrom text
  failed : ∀ response ∈ undecoded, response.ReadFrom text
  apart : decoded.Pairwise fun first second => first.stop ≤ second.start
  ordered : undecoded.Pairwise fun first second => first.start < second.start
  once : ∀ (opening : Opening) (offset : Nat), opening.StandsAt text offset →
    decoded.countP (fun response => response.start = offset) +
      undecoded.countP (fun response =>
        response.start = offset ∧ response.fault.sequence = opening.sequence) +
      decoded.countP (fun response => response.start < offset ∧ offset < response.stop) = 1

/-! ## Ends of attributes -/

theorem previous_attributesFrom {known found : Attributes} {cursor behind : Cursor}
    (read : Reader.attributesFrom known cursor = .ok (found, behind)) :
    behind.previous = some Byte.closeParen := by
  fun_induction Reader.attributesFrom known cursor with
  | case1 known cursor rest full =>
      cases read
      have begins : 0 < cursor.skipSpaces.rest.length := by
        rw [full]
        exact Nat.succ_pos _
      rw [Cursor.previous_advance begins]
      simp only [full, List.getElem_cons_zero]
      rfl
  | case2 => cases read
  | case3 => cases read
  | case4 known cursor name place named value place' valued unclosed induction =>
      exact induction read

/-! ## Counting -/

theorem countP_eq_one {α : Type} {items : List α} {test : α → Bool}
    (apart : items.Pairwise fun first second => test first = true → test second = false)
    {item : α} (member : item ∈ items) (passes : test item = true) : items.countP test = 1 := by
  obtain ⟨front, back, rfl⟩ := List.append_of_mem member
  obtain ⟨-, apart, across⟩ := List.pairwise_append.mp apart
  have none : front.countP test = 0 := by
    apply List.countP_eq_zero.mpr
    intro other inFront passes'
    rw [across other inFront item List.mem_cons_self passes'] at passes
    cases passes
  have none' : back.countP test = 0 := by
    apply List.countP_eq_zero.mpr
    intro other inBack passes'
    rw [(List.pairwise_cons.mp apart).1 other inBack passes] at passes'
    cases passes'
  rw [List.countP_append, List.countP_cons_of_pos passes, none, none']

/-- A count is the sum of the counts of three kinds if every member is of one kind at most. -/
theorem countP_eq_add {α : Type} {items : List α} {test first second third : α → Bool}
    (split : ∀ item ∈ items,
      (test item).toNat = (first item).toNat + (second item).toNat + (third item).toNat) :
    items.countP test = items.countP first + items.countP second + items.countP third := by
  have counted : ∀ passes : Bool, (if passes = true then 1 else 0) = passes.toNat := by decide
  induction items with
  | nil => rfl
  | cons item items induction =>
      have here := split item List.mem_cons_self
      have others := induction fun other member => split other (List.mem_cons_of_mem item member)
      simp only [List.countP_cons, counted, here, others]
      omega

/-! ## Places of what was found -/

/-- Where an opening stands further on, a response begins that the search comes to, or the search
has come to one before and goes on behind the opening. -/
theorem mem_sightings_of_opening {cursor place : Cursor} {answer : Number × Nat}
    (leads : cursor.Leads place) (found : opening? place = some answer) :
    ∃ sighting ∈ sightings cursor,
      sighting.place.offset ≤ place.offset ∧ place.offset < sighting.behind.offset := by
  fun_induction sightings cursor with
  | case1 cursor sequence length opened induction =>
      let here : Sighting := ⟨cursor, sequence, length, opened⟩
      rcases Nat.lt_or_ge place.offset here.behind.offset with before | further
      · exact ⟨here, List.mem_cons_self, leads.offset_le, before⟩
      · have leads' := (here.leads_body.trans here.leads_behind).of_offset_le leads further
        obtain ⟨sighting, seen, within⟩ := induction leads'
        exact ⟨sighting, List.mem_cons_of_mem here seen, within⟩
  | case2 cursor none past =>
      obtain ⟨count, rfl⟩ := leads
      have filled := rest_ne_nil_of_opening? found
      rw [Cursor.rest_advance, past, List.drop_nil] at filled
      exact (filled rfl).elim
  | case3 cursor none byte rest full induction =>
      obtain ⟨count, rfl⟩ := leads
      cases count with
      | zero => rw [Cursor.advance, none] at found; cases found
      | succ count =>
          have leads' : (cursor.advance 1).Leads (cursor.advance (count + 1)) :=
            ⟨count, by rw [Cursor.advance_advance, Nat.add_comm]⟩
          exact induction leads'

/-- The search goes on behind each response before it comes to another one. -/
theorem pairwise_sightings (cursor : Cursor) :
    (sightings cursor).Pairwise fun first second => first.behind.Leads second.place := by
  fun_induction sightings cursor with
  | case1 cursor sequence length opened induction =>
      exact List.pairwise_cons.mpr ⟨fun _ seen => leads_sightings seen, induction⟩
  | case2 => exact List.Pairwise.nil
  | case3 cursor none byte rest full induction => exact induction

namespace Sighting

def decoded? (sighting : Sighting) : Option Decoded :=
  sighting.item.record?.map fun record => ⟨sighting.place.offset, sighting.behind.offset, record⟩

def undecoded? (sighting : Sighting) : Option Undecoded :=
  sighting.item.fault?.map fun fault => ⟨sighting.place.offset, fault⟩

theorem of_item_record {sighting : Sighting} {record : Record}
    (read : sighting.item = .record record) :
    sighting.sequence = record.sequence ∧
      Reader.attributes sighting.body = .ok (record.attributes, sighting.behind) := by
  unfold item at read
  unfold behind
  split at read
  · next attributes behind found =>
      cases read
      rw [found]
      exact ⟨rfl, rfl⟩
  · cases read

theorem of_item_fault {sighting : Sighting} {fault : Fault}
    (failed : sighting.item = .fault fault) :
    sighting.sequence = fault.sequence ∧ sighting.behind = sighting.body ∧
      Reader.attributes sighting.body = .error fault.malformed := by
  unfold item at failed
  unfold behind
  split at failed
  · cases failed
  · next malformed found =>
      cases failed
      rw [found]
      exact ⟨rfl, rfl, rfl⟩

variable {text : Bytes} {sighting : Sighting}

theorem stands (leads : (Cursor.start text).Leads sighting.place) :
    ∃ opening : Opening, opening.StandsAt text sighting.place.offset ∧
      opening.sequence = sighting.sequence ∧
      sighting.body = (Cursor.start text).advance (sighting.place.offset + opening.bytes.length) ∧
      sighting.body.offset = sighting.place.offset + opening.bytes.length := by
  have place : sighting.place = (Cursor.start text).advance sighting.place.offset :=
    leads.eq_advance
  have opened := sighting.opened
  rw [place] at opened
  obtain ⟨opening, stands, numbered, long⟩ :=
    Opening.StandsAt.of_found (Cursor.offset_le_length leads) opened
  have body : sighting.body =
      (Cursor.start text).advance (sighting.place.offset + opening.bytes.length) := by
    rw [Sighting.body, ← long, ← Cursor.advance_advance, ← place]
  refine ⟨opening, stands, numbered, body, ?_⟩
  rw [body, Cursor.offset_advance_of_le stands.within]
  exact Nat.zero_add _

theorem decoded?_eq_some_iff {decoded : Decoded} :
    sighting.decoded? = some decoded ↔ sighting.item = .record decoded.record ∧
      decoded.start = sighting.place.offset ∧ decoded.stop = sighting.behind.offset := by
  unfold decoded?
  obtain ⟨start, stop, record⟩ := decoded
  cases sighting.item with
  | record read =>
      simp only [Item.record?, Option.map_some, Option.some.injEq, Decoded.mk.injEq,
        Item.record.injEq]
      tauto
  | fault reported => simp [Item.record?]

theorem undecoded?_eq_some_iff {undecoded : Undecoded} :
    sighting.undecoded? = some undecoded ↔ sighting.item = .fault undecoded.fault ∧
      undecoded.start = sighting.place.offset := by
  unfold undecoded?
  obtain ⟨start, fault⟩ := undecoded
  cases sighting.item with
  | record read => simp [Item.fault?]
  | fault reported =>
      simp only [Item.fault?, Option.map_some, Option.some.injEq, Undecoded.mk.injEq,
        Item.fault.injEq]
      tauto

theorem readFrom_of_decoded? (leads : (Cursor.start text).Leads sighting.place)
    {decoded : Decoded} (found : sighting.decoded? = some decoded) : decoded.ReadFrom text := by
  obtain ⟨read, start, stop⟩ := decoded?_eq_some_iff.mp found
  obtain ⟨numbered, attributes⟩ := of_item_record read
  obtain ⟨opening, stands, numbered', body, length⟩ := sighting.stands leads
  have leads' := (leads.trans sighting.leads_body).trans sighting.leads_behind
  have behind : sighting.behind = (Cursor.start text).advance decoded.stop := by
    rw [stop]
    exact leads'.eq_advance
  have inside : decoded.stop ≤ text.length := by
    rw [stop]
    exact Cursor.offset_le_length leads'
  refine ⟨⟨opening, ?_, numbered'.trans numbered, ?_, ?_⟩, inside, ?_⟩
  · rw [start]
    exact stands
  · rw [start, stop, ← length]
    exact Reader.offset_lt_attributesFrom attributes
  · rw [start, ← body, ← behind]
    exact attributes
  · have last := previous_attributesFrom attributes
    rwa [behind, Cursor.start_advance inside] at last

theorem readFrom_of_undecoded? (leads : (Cursor.start text).Leads sighting.place)
    {undecoded : Undecoded} (found : sighting.undecoded? = some undecoded) :
    undecoded.ReadFrom text := by
  obtain ⟨failed, start⟩ := undecoded?_eq_some_iff.mp found
  obtain ⟨numbered, -, malformed⟩ := of_item_fault failed
  obtain ⟨opening, stands, numbered', body, -⟩ := sighting.stands leads
  refine ⟨opening, ?_, numbered'.trans numbered, ?_⟩
  · rw [start]
    exact stands
  · rw [start, ← body]
    exact malformed

/-- An opening that the search does not pass by is the one of a record or a fault, or it stands in
the data of a record: never two of these. -/
theorem split (leads : (Cursor.start text).Leads sighting.place) {opening : Opening} {offset : Nat}
    (stands : opening.StandsAt text offset) :
    (decide (sighting.place.offset ≤ offset ∧ offset < sighting.behind.offset)).toNat =
      (sighting.decoded?.any fun response => response.start = offset).toNat +
        (sighting.undecoded?.any fun response =>
          response.start = offset ∧ response.fault.sequence = opening.sequence).toNat +
        (sighting.decoded?.any fun response =>
          response.start < offset ∧ offset < response.stop).toNat := by
  have opened := sighting.place_lt_body
  have further := sighting.leads_behind.offset_le
  cases outcome : sighting.item with
  | record record =>
      have decoded : sighting.decoded? =
          some ⟨sighting.place.offset, sighting.behind.offset, record⟩ :=
        decoded?_eq_some_iff.mpr ⟨outcome, rfl, rfl⟩
      have undecoded : sighting.undecoded? = none := by
        rw [undecoded?, outcome]
        rfl
      rw [decoded, undecoded]
      simp only [Option.any_some, Option.any_none, Bool.toNat_false, Nat.add_zero]
      rcases Nat.lt_trichotomy sighting.place.offset offset with before | here | behind
      · simp [before, before.le, before.ne]
      · simp [here]
        omega
      · simp [behind.not_ge, behind.ne', behind.not_gt]
  | fault fault =>
      have decoded : sighting.decoded? = none := by
        rw [decoded?, outcome]
        rfl
      have undecoded : sighting.undecoded? = some ⟨sighting.place.offset, fault⟩ :=
        undecoded?_eq_some_iff.mpr ⟨outcome, rfl⟩
      obtain ⟨numbered, behind, -⟩ := of_item_fault outcome
      obtain ⟨opening', stands', numbered', -, length⟩ := sighting.stands leads
      have same : (sighting.place.offset ≤ offset ∧ offset < sighting.behind.offset) ↔
          (sighting.place.offset = offset ∧ fault.sequence = opening.sequence) := by
        rw [behind]
        constructor
        · rintro ⟨before, inside⟩
          -- The search has gone on behind the opening alone, and in it no other one can stand.
          have here : sighting.place.offset = offset := by
            by_contra other
            have := stands'.alone stands (Nat.lt_of_le_of_ne before other)
            omega
          have found := stands'.found
          rw [here, stands.found] at found
          refine ⟨here, ?_⟩
          rw [← numbered, ← numbered', (Prod.mk.inj (Option.some.inj found)).1]
        · rintro ⟨here, -⟩
          omega
      rw [decoded, undecoded]
      simp only [Option.any_some, Option.any_none, Bool.toNat_false, Nat.add_zero, Nat.zero_add,
        same]

end Sighting

theorem countP_sightings {opening : Opening} {text : Bytes} {offset : Nat}
    (stands : opening.StandsAt text offset) :
    (sightings (.start text)).countP
      (fun sighting => sighting.place.offset ≤ offset ∧ offset < sighting.behind.offset) = 1 := by
  have within := stands.within
  have place : ((Cursor.start text).advance offset).offset = offset := by
    rw [Cursor.start_advance (by omega)]
  obtain ⟨sighting, seen, covers⟩ :=
    mem_sightings_of_opening (Cursor.leads_advance offset _) stands.found
  rw [place] at covers
  apply countP_eq_one _ seen (decide_eq_true covers)
  apply (pairwise_sightings _).imp
  intro first second further covers
  have := further.offset_le
  simp only [decide_eq_true_eq, decide_eq_false_iff_not] at covers ⊢
  omega

/-- Every opening at the start of a line is accounted for, once and by itself: it begins a record,
or a fault that has its number, or it stands in the data of a record. -/
theorem openings_are_accounted_for_once (text : Bytes) :
    ∃ decoded undecoded, Accounts text decoded undecoded := by
  let seen := sightings (.start text)
  have apart : seen.Pairwise fun first second => first.behind.offset ≤ second.place.offset :=
    (pairwise_sightings _).imp Cursor.Leads.offset_le
  have collected : ∀ {α : Type} (kind : Item → Option α),
      seen.filterMap (fun sighting => kind sighting.item) =
        (scan (.start text)).filterMap kind := by
    intro α kind
    rw [← items_sightings, List.filterMap_map]
    rfl
  refine ⟨seen.filterMap Sighting.decoded?, seen.filterMap Sighting.undecoded?, ?_⟩
  constructor
  · rw [List.map_filterMap]
    simp only [Sighting.decoded?, Option.map_map, Function.comp_def, Option.map_id']
    exact collected Item.record?
  · rw [List.map_filterMap]
    simp only [Sighting.undecoded?, Option.map_map, Function.comp_def, Option.map_id']
    exact collected Item.fault?
  · intro response member
    obtain ⟨sighting, member, found⟩ := List.mem_filterMap.mp member
    exact Sighting.readFrom_of_decoded? (leads_sightings member) found
  · intro response member
    obtain ⟨sighting, member, found⟩ := List.mem_filterMap.mp member
    exact Sighting.readFrom_of_undecoded? (leads_sightings member) found
  · apply apart.filterMap
    intro first second further response found response' found'
    rw [(Sighting.decoded?_eq_some_iff.mp found).2.2, (Sighting.decoded?_eq_some_iff.mp found').2.1]
    exact further
  · apply apart.filterMap
    intro first second further response found response' found'
    have opened := first.place_lt_body
    have behind := first.leads_behind.offset_le
    rw [(Sighting.undecoded?_eq_some_iff.mp found).2,
      (Sighting.undecoded?_eq_some_iff.mp found').2]
    omega
  · intro opening offset stands
    have kept : ∀ {α : Type} (test : α → Bool) (response : Option α),
        (response.map test).getD false = response.any test := by
      intro α test response
      cases response <;> rfl
    simp only [List.countP_filterMap, kept]
    rw [← countP_eq_add fun sighting member => Sighting.split (leads_sightings member) stands]
    exact countP_sightings stands

end ImapDialogue.Response
