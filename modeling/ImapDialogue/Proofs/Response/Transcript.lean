import ImapDialogue.Proofs.Response.Decoding
import ImapDialogue.Proofs.Response.Modes

/-!
Every record of a transcript is found, in order, and nothing else: the search passes over what
stands between the responses and goes on right behind each one.
-/

namespace ImapDialogue.Response

/-! ## Names that come again -/

namespace Attributes

theorem eraseDups_concat (names : List String) (name : String) :
    (names ++ [name]).eraseDups =
      if name ∈ names then names.eraseDups else names.eraseDups ++ [name] := by
  rw [List.eraseDups_append, List.cons_removeAll]
  by_cases known : name ∈ names
  · have listed : ¬names.contains name = false := by simpa using known
    rw [if_neg listed, if_pos known]
    exact List.append_nil _
  · have unlisted : names.contains name = false := by simpa using known
    rw [if_pos unlisted, if_neg known]
    rfl

theorem nodup_eraseDups (names : List String) : names.eraseDups.Nodup := by
  induction names using List.reverseRecOn with
  | nil => exact List.nodup_nil
  | append_singleton names name induction =>
      rw [eraseDups_concat]
      split
      · exact induction
      · next new =>
          apply List.nodup_append.mpr
          refine ⟨induction, List.pairwise_singleton _ _, ?_⟩
          rintro known member other single rfl
          rw [List.mem_singleton.mp single] at member
          exact new (List.mem_eraseDups.mp member)

def entriesOf (value? : String → Option Value) (names : List String) : List (String × Value) :=
  names.filterMap fun name => (value? name).map fun value => (name, value)

theorem entriesOf_cons (value? : String → Option Value) (name : String) (names : List String) :
    entriesOf value? (name :: names) =
      match value? name with
      | none => entriesOf value? names
      | some value => (name, value) :: entriesOf value? names := by
  unfold entriesOf
  rw [List.filterMap_cons]
  cases value? name <;> rfl

/-- A name that is known keeps its place and takes the new value, and any other comes last. -/
theorem replace_entries {value? : String → Option Value} {names : List String}
    (distinct : names.Nodup) {name : String} (known : name ∈ names → (value? name).isSome = true)
    (value : Value) :
    replace name value (entriesOf value? names) =
      entriesOf (fun other => if other = name then some value else value? other)
        (if name ∈ names then names else names ++ [name]) := by
  induction names with
  | nil => simp [entriesOf, replace]
  | cons first others induction =>
      obtain ⟨new, distinct⟩ := List.nodup_cons.mp distinct
      by_cases here : first = name
      · subst here
        obtain ⟨old, first'⟩ := Option.isSome_iff_exists.mp (known List.mem_cons_self)
        have kept : entriesOf (fun other => if other = first then some value else value? other)
            others = entriesOf value? others := by
          apply List.filterMap_congr
          intro other member
          have apart : other ≠ first := by
            rintro rfl
            exact new member
          simp only [if_neg apart]
        rw [if_pos List.mem_cons_self, entriesOf_cons, entriesOf_cons, first', kept]
        simp only [if_true, replace]
      · have later := induction distinct fun member => known (List.mem_cons_of_mem _ member)
        have spread : (if name ∈ first :: others then first :: others
            else first :: others ++ [name]) =
            first :: (if name ∈ others then others else others ++ [name]) := by
          simp only [List.mem_cons, Ne.symm here, false_or]
          split <;> rfl
        rw [spread, entriesOf_cons, entriesOf_cons]
        simp only [if_neg here]
        cases value? first with
        | none => exact later
        | some old => simp only [replace, if_neg here, later]

theorem ofList_concat (settings : List (String × Value)) (name : String) (value : Value) :
    ofList (settings ++ [(name, value)]) = (ofList settings).set name value := by
  rw [ofList, List.foldl_append]
  rfl

/-- Taking one setting after the other leaves what came last. -/
theorem ofList_eq_latest (settings : List (String × Value)) :
    ofList settings = latest settings := by
  induction settings using List.reverseRecOn with
  | nil => rfl
  | append_singleton settings setting induction =>
      obtain ⟨name, value⟩ := setting
      have known : name ∈ (settings.map Prod.fst).eraseDups →
          (settings.reverse.lookup name).isSome = true := by
        intro listed
        obtain ⟨setting, member, rfl⟩ := List.mem_map.mp (List.mem_eraseDups.mp listed)
        exact List.lookup_isSome_iff.mpr ⟨setting, List.mem_reverse.mpr member, BEq.rfl⟩
      have values : (fun other => (settings ++ [(name, value)]).reverse.lookup other) =
          fun other => if other = name then some value else settings.reverse.lookup other := by
        funext other
        rw [List.reverse_append, List.reverse_singleton, List.singleton_append, List.lookup_cons]
        by_cases same : other = name
        · rw [if_pos same, beq_iff_eq.mpr same]
        · rw [if_neg same, beq_eq_false_iff_ne.mpr same]
      have replaced := @replace_entries (fun other => settings.reverse.lookup other) _
        (nodup_eraseDups _) name known value
      rw [ofList_concat, induction, set]
      simp only [List.mem_eraseDups] at replaced
      rw [← eraseDups_concat, ← values] at replaced
      simp only [latest, List.map_append, List.map_cons, List.map_nil]
      exact congrArg Attributes.mk replaced

theorem replace_new {name : String} {known : List (String × Value)}
    (new : name ∉ known.map Prod.fst) (value : Value) :
    replace name value known = known ++ [(name, value)] := by
  induction known with
  | nil => rfl
  | cons entry others induction =>
      obtain ⟨other, old⟩ := entry
      simp only [List.map_cons, List.mem_cons, not_or] at new
      have later := induction new.2
      rw [replace, if_neg fun same => new.1 same.symm, later, List.cons_append]

theorem latest_distinct {settings : List (String × Value)}
    (distinct : (settings.map Prod.fst).Nodup) : latest settings = ⟨settings⟩ := by
  rw [← ofList_eq_latest]
  induction settings using List.reverseRecOn with
  | nil => rfl
  | append_singleton settings setting induction =>
      rw [List.map_append] at distinct
      obtain ⟨apart, -, new⟩ := List.nodup_append.mp distinct
      rw [ofList_concat, induction apart, set, replace_new]
      intro member
      exact new _ member _ List.mem_cons_self rfl

end Attributes

/-! ## The search -/

variable {cursor : Cursor} {lines tail : Bytes}

theorem opening?_idle (idle : Idle lines)
    (whole : lines.getLast?.all Byte.isLineEnd = true ∨ tail = [])
    (full : cursor.rest = lines ++ tail) {count : Nat} (inside : count < lines.length) :
    opening? (cursor.advance count) = none := by
  cases answer : opening? (cursor.advance count) with
  | none => rfl
  | some found =>
      obtain ⟨starts, opening, begins, -, -⟩ := opening?_eq_some_iff.mp answer
      have length : (lines.take count).length = count := by
        rw [List.length_take, Nat.min_eq_left inside.le]
      have place : cursor.advance count = ⟨cursor.offset + count,
          (lines.take count).getLast?.or cursor.previous, lines.drop count ++ tail⟩ := by
        have moved := Cursor.advance_length cursor.offset cursor.previous (lines.take count)
          (lines.drop count ++ tail)
        rw [← List.append_assoc, List.take_append_drop, ← full, length] at moved
        exact moved
      rw [place] at begins starts
      refine (idle opening count ⟨?_, ?_⟩).elim
      · rw [Cursor.startsLine_eq] at starts
        cases last : (lines.take count).getLast? with
        | none => rfl
        | some byte =>
            rw [last] at starts
            exact starts
      · rcases whole with whole | rfl
        · have filled : lines.drop count ≠ [] := by
            rw [Ne, List.drop_eq_nil_iff]
            omega
          apply opening.inside_lines filled _ begins
          rw [List.getLast?_drop, if_neg (by omega)]
          exact whole
        · rwa [List.append_nil] at begins

theorem scan_over_idle {count : Nat} (inside : count ≤ cursor.rest.length)
    (idle : ∀ passed < count, opening? (cursor.advance passed) = none) :
    scan cursor = scan (cursor.advance count) := by
  induction count generalizing cursor with
  | zero => rfl
  | succ count induction =>
      obtain ⟨byte, rest, full⟩ := List.exists_cons_of_length_pos (Nat.lt_of_lt_of_le
        (Nat.succ_pos count) inside)
      have none : opening? cursor = none := idle 0 (Nat.succ_pos _)
      rw [scan_pass none full, induction, Cursor.advance_advance, Nat.add_comm]
      · rw [Cursor.length_rest_advance]
        omega
      · intro passed before
        rw [Cursor.advance_advance, Nat.add_comm]
        exact idle (passed + 1) (Nat.succ_lt_succ before)

theorem scan_over_lines (idle : Idle lines)
    (whole : lines.getLast?.all Byte.isLineEnd = true ∨ tail = [])
    (full : cursor.rest = lines ++ tail) : scan cursor = scan (cursor.advance lines.length) := by
  apply scan_over_idle
  · rw [full, List.length_append]
    exact Nat.le_add_right _ _
  · intro passed before
    exact opening?_idle idle whole full before

theorem startsLine_behind (whole : lines.getLast?.all Byte.isLineEnd = true)
    (starts : cursor.startsLine = true ∨ lines ≠ []) (full : cursor.rest = lines ++ tail) :
    (cursor.advance lines.length).startsLine = true := by
  have moved := Cursor.advance_length cursor.offset cursor.previous lines tail
  rw [← full] at moved
  rw [Cursor.startsLine_eq] at starts ⊢
  have behind : (cursor.advance lines.length).previous = lines.getLast?.or cursor.previous :=
    congrArg Cursor.previous moved
  rw [behind]
  cases last : lines.getLast? with
  | none =>
      rcases starts with starts | filled
      · exact starts
      · exact (filled (List.getLast?_eq_none_iff.mp last)).elim
  | some byte =>
      rw [last] at whole
      exact whole

/-- From the start of a line on, or from the closing parenthesis of a response, all records are
found and no fault. -/
theorem scan_transcript {records : List Record} {text : Bytes} (told : Transcript records text)
    (full : cursor.rest = text)
    (starts : cursor.startsLine = true ∨ text.head? = some Byte.closeParen) :
    scan cursor = records.map .record := by
  induction told generalizing cursor with
  | @idle text idle =>
      rw [← List.append_nil text] at full
      rw [scan_over_lines idle (Or.inr rfl) full, scan_end (Reader.rest_behind full)]
      rfl
  | @response lines written behind opening settings records idle whole exact lead spelled others
      induction =>
      have starts' : cursor.startsLine = true ∨ lines ≠ [] := by
        rcases starts with starts | closing
        · exact Or.inl starts
        · right
          rintro rfl
          cases closing
      have begins := Reader.rest_behind full
      have found : opening? (cursor.advance lines.length) =
          some (.finite (Bytes.decimal opening.digits : Nat), opening.bytes.length) := by
        apply opening?_eq_some_iff.mpr
        refine ⟨startsLine_behind whole starts' full, opening, ⟨_, begins.symm⟩, ?_, rfl⟩
        exact Number.ofNat_exact exact
      have inside := Reader.rest_behind begins
      have read := Reader.attributesFrom_spelled spelled .empty (Reader.rest_behind_spaces inside)
      rw [← Reader.attributesFrom_spaces inside] at read
      have ended := Reader.rest_behind (Reader.rest_behind_spaces inside)
      -- The search goes on right behind the response, the rest of the transcript a byte earlier.
      have none : opening? ((((cursor.advance lines.length).advance opening.bytes.length).advance
          lead).advance written.length) = none := by
        unfold opening?
        rw [ended]
        split <;> rfl
      have later := induction ended (Or.inr rfl)
      rw [scan_pass none ended] at later
      rw [scan_over_lines idle (Or.inl whole) full, scan_record found read,
        ← Cursor.advance_advance, later, List.map_cons, ← Attributes.ofList_eq_latest, Attributes.ofList,
        List.foldl_map]

theorem collect_transcript {records : List Record} {text : Bytes}
    (told : Transcript records text) : collect text = (records, []) := by
  have items := @scan_transcript (.start text) records text told rfl (Or.inl rfl)
  rw [collect, items, List.filterMap_map, List.filterMap_map]
  congr 1
  · exact List.filterMap_some
  · exact List.filterMap_eq_nil_iff.mpr fun _ _ => rfl

theorem idle_of_no_star {text : Bytes} (missing : Byte.star ∉ text) : Idle text := by
  intro opening offset stands
  have first : Byte.star ∈ opening.bytes := List.mem_cons_self
  exact missing (List.drop_subset offset text (stands.begins.subset first))

/-- All records of a transcript are found in order, and no fault, however it is written. -/
theorem transcripts_are_decoded {records : List Record} {text : Bytes}
    (told : Transcript records text) :
    collect text = (records, []) ∧ strict text = .ok records := by
  have found := collect_transcript told
  have faultless := congrArg Prod.snd found
  have strictly := strictFrom_of_faultless faultless
  refine ⟨found, strictly.trans ?_⟩
  exact congrArg Except.ok (congrArg Prod.fst found)

/-- Attributes in letters of any case with spaces wherever they may stand, a response in a literal,
backslashes that are not needed, and a name that comes again without a value. -/
def motleyBytes : Bytes :=
  Bytes.ofNarrow ("modseq 09  Flags ( \\Seen ( )  nIL ) binary[a b] \x7b0021+\x7d\r\n" ++
    "* 8 FETCH (UID 10)\r\n) x   \"\\a\\\"\r\n\" Modseq ")

def motleySettings : List (Label × Value) :=
  let modseq : Label :=
    ⟨Bytes.ofNarrow "MODSEQ", none, by decide, Bytes.forall_of_all (by decide), nofun⟩
  [(modseq, .number (.finite (9 : Nat))),
    (⟨Bytes.ofNarrow "FLAGS", none, by decide, Bytes.forall_of_all (by decide), nofun⟩,
      .list [.text "\\Seen", .list [], .nil]),
    (⟨Bytes.ofNarrow "BINARY", some (Bytes.ofNarrow "A B"), by decide,
        Bytes.forall_of_all (by decide), by rintro inner ⟨⟩; exact Bytes.forall_of_all (by decide)⟩,
      .bytes (Bytes.ofNarrow "* 8 FETCH (UID 10)\r\n)")),
    (⟨Bytes.ofNarrow "X", none, by decide, Bytes.forall_of_all (by decide), nofun⟩,
      .text "a\"\r\n"),
    (modseq, .nil)]

theorem motley_spelling : AttributesSpelling motleySettings motleyBytes := by
  let seen : Atom := ⟨Bytes.ofNarrow "\\Seen", by decide, Bytes.forall_of_all (by decide),
    by decide, by decide⟩
  have nine : ValueSpelling (.number (.finite (9 : Nat))) (Bytes.ofNarrow "09") :=
    .scalar (@ScalarSpelling.number (Bytes.ofNarrow "09") (by decide)
      (Bytes.forall_of_all (by decide)) (by decide))
  have listed : ValueSpelling (.list [.text "\\Seen", .list [], .nil])
      (Bytes.ofNarrow "( \\Seen ( )  nIL )") :=
    .list 1 (.more (.scalar (.atom seen)) 0 (.more (.list 1 .none) 1
      (.last (.scalar (@ScalarSpelling.nil (Bytes.ofNarrow "nIL") (by decide))) 1)))
  have enclosed : ValueSpelling (.bytes (Bytes.ofNarrow "* 8 FETCH (UID 10)\r\n)"))
      (Bytes.ofNarrow "\x7b0021+\x7d\r\n* 8 FETCH (UID 10)\r\n)") :=
    .scalar (@ScalarSpelling.literal (Bytes.ofNarrow "0021")
      (Bytes.ofNarrow "* 8 FETCH (UID 10)\r\n)") true (by decide) (Bytes.forall_of_all (by decide))
      (by decide) (by decide))
  have escaped : Escaped (Utf8.encode "a\"\r\n") (Bytes.ofNarrow "\\a\\\"\r\n") :=
    .marked (.marked (.bare (by decide) (by decide) (.bare (by decide) (by decide) .nil)))
  obtain ⟨written, spelled, same⟩ :
      ∃ written, AttributesSpelling motleySettings written ∧ written = motleyBytes :=
    ⟨_, @AttributesSpelling.more _ _ _ _ (Bytes.ofNarrow "modseq") _ _ (by decide) 0 nine 1
      (@AttributesSpelling.more _ _ _ _ (Bytes.ofNarrow "Flags") _ _ (by decide) 0 listed 0
        (@AttributesSpelling.more _ _ _ _ (Bytes.ofNarrow "binary[a b]") _ _ (by decide) 0
          enclosed 0
          (@AttributesSpelling.more _ _ _ _ (Bytes.ofNarrow "x") _ _ (by decide) 2
            (.scalar (.quoted escaped)) 0
            (@AttributesSpelling.bare _ (Bytes.ofNarrow "Modseq") (by decide) 1)))),
      by rfl⟩
  rw [← same]
  exact spelled

def motleyText : Bytes :=
  Bytes.ofNarrow "+ OK\r\n* 007 fetch (  " ++ (motleyBytes ++ Bytes.ofNarrow ")\r\n")

def motleyRecord : Record :=
  ⟨.finite (7 : Nat), ⟨[("MODSEQ", .nil), ("FLAGS", .list [.text "\\Seen", .list [], .nil]),
    ("BINARY[A B]", .bytes (Bytes.ofNarrow "* 8 FETCH (UID 10)\r\n)")), ("X", .text "a\"\r\n")]⟩⟩

theorem motley_transcript : Transcript [motleyRecord] motleyText := by
  let opening : Opening := ⟨Bytes.ofNarrow "007", Bytes.ofNarrow " fetch (", by decide,
    Bytes.forall_of_all (by decide), by decide⟩
  have response := @Transcript.response (Bytes.ofNarrow "+ OK\r\n") _ (Bytes.ofNarrow "\r\n")
    opening _ [] (idle_of_no_star (by decide)) (by decide) (by decide) 2 motley_spelling
    (.idle (idle_of_no_star (by decide)))
  have number : Bytes.decimal opening.digits = 7 := by decide
  have known : (motleySettings.map fun entry => (entry.1.text, entry.2)) =
      [("MODSEQ", .number (.finite (9 : Nat))), ("FLAGS", .list [.text "\\Seen", .list [], .nil]),
        ("BINARY[A B]", .bytes (Bytes.ofNarrow "* 8 FETCH (UID 10)\r\n)")), ("X", .text "a\"\r\n"),
        ("MODSEQ", .nil)] := by
    with_unfolding_all rfl
  have text : motleyText = Bytes.ofNarrow "+ OK\r\n" ++ (opening.bytes ++
      (spaces 2 ++ (motleyBytes ++ Byte.closeParen :: Bytes.ofNarrow "\r\n"))) := by
    rfl
  rw [known, number, ← text] at response
  exact response

theorem motley_text_is_decoded :
    Transcript [motleyRecord] motleyText ∧ collect motleyText = ([motleyRecord], []) ∧
      strict motleyText = .ok [motleyRecord] :=
  ⟨motley_transcript, transcripts_are_decoded motley_transcript⟩

end ImapDialogue.Response
