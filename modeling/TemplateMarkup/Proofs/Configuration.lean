import Mathlib.Data.List.Nodup
import TemplateMarkup.Proofs.Json.Pretty
import TemplateMarkup.Proofs.Settings.Overlay

/-! A configuration text comes to the defaults overlaid by what its members state, however it is
written, or to the first problem among them. -/
namespace TemplateMarkup
namespace Settings
open Json

variable {settings : Settings} {field : Field} {seen : List Field} {name : String} {value : Json}
  {members : List (String × Json)} {items : List Json} {cs text rest : List Char} {c : Char}

/-! One value. -/

/-- A value that is no container is read for what it is, unless it is too large a number. -/
theorem readAtom_strict (h : AtomText value text) (stop : Stops isNumeric rest) :
    readAtom .strict (text ++ rest) =
      if value.isHuge then .error .malformed else .ok (value, rest) := by
  split
  · next huge =>
    cases h with
    | number proper marks => exact readAtom_huge proper marks huge stop
    | null | yes | no | string => cases huge
  · next small =>
    have accepts : Accepts .strict value := by
      intro _ n mem
      cases h with
      | number proper marks =>
        rw [List.mem_singleton.1 mem]
        exact Bool.eq_false_iff.2 small
      | null | yes | no | string => cases mem
    obtain ⟨seen, same, read⟩ := h.read accepts
    rw [read rest stop, same rfl]

theorem set?_array (settings : Settings) (field : Field) (items : List Json) :
    settings.set? field (.array items) = none := by
  cases field <;> rfl

theorem set?_object (settings : Settings) (field : Field) (members : List (String × Json)) :
    settings.set? field (.object members) = none := by
  cases field <;> rfl

/-- The value of a field is set, unless it is a number too large or no value of its type. -/
theorem readField_text (h : Text value text) (start : skipSpace cs = text ++ rest)
    (stop : Stops isNumeric rest) (settings : Settings) (field : Field) :
    readField settings field cs =
      if value.isHuge then .error .malformed
      else
        match settings.set? field value with
        | none => .error .mistyped
        | some settings => .ok (settings, rest) := by
  rw [readField, start]
  cases h with
  | atom atom =>
    obtain ⟨c, tail, cons, -, noArray, noObject⟩ := atom.cons
    split
    · next same =>
      rw [cons, List.cons_append] at same
      cases same
      exact absurd rfl noArray
    · next same =>
      rw [cons, List.cons_append] at same
      cases same
      exact absurd rfl noObject
    · rw [readAtom_strict atom stop]
      cases value.isHuge with
      | true => rfl
      | false =>
        simp only [Bool.false_eq_true, if_false]
        cases settings.set? field value <;> rfl
  | emptyArray | array =>
    rw [set?_array]
    rfl
  | emptyObject | object =>
    rw [set?_object]
    rfl

/-- A member is read for what it states, whatever its name and value. -/
theorem readMemberValue_text {behind : List Char} (colon : readColon behind = .ok cs)
    (h : Text value text) (start : skipSpace cs = text ++ rest) (stop : Stops isNumeric rest)
    (settings : Settings) (seen : List Field) (name : String) :
    readMemberValue settings seen name behind =
      (overlayMember settings seen name value).map fun result => (result, rest) := by
  rw [readMemberValue, overlayMember]
  cases Field.ofName? name with
  | none =>
    have passes : Accepts .lenient value := nofun
    obtain ⟨passed, -, read⟩ := readInside_text h passes
    simp only [colon]
    rw [readValue, read [] cs rest start stop, resume]
    rfl
  | some field =>
    simp only [colon, readField_text h start stop]
    split
    · rfl
    · split
      · rfl
      · cases settings.set? field value <;> rfl

/-! Objects. -/

/-- The reader of members without the proofs that it ends. -/
theorem readMembers_eq {behind : List Char} (named : readName .strict cs = .ok (name, behind))
    (settings : Settings) (seen : List Field) :
    readMembers settings seen cs =
      match readMemberValue settings seen name behind with
      | .error category => .error category
      | .ok ((settings, seen), behind) =>
        match skipSpace behind with
        | [] => .error .ended
        | '\x7d' :: rest => .ok (settings, rest)
        | ',' :: rest => readMembers settings seen rest
        | _ => .error .malformed := by
  conv => lhs; rw [readMembers]
  split
  · next failed => cases named.symm.trans failed
  · next found =>
    cases named.symm.trans found
    split
    · next failed => rw [failed]
    · next read =>
      rw [read]
      split <;> next found => simp only [found]

theorem readMembers_text (h : MembersText members text) (settings : Settings) (seen : List Field)
    (start : skipSpace cs = skipSpace (text ++ rest)) :
    readMembers settings seen cs =
      (overlay settings seen members).map fun result => (result, rest) := by
  induction members generalizing settings seen cs text with
  | nil => cases h
  | cons member members ih =>
    cases h with
    | @last name value label before text after named front here back =>
      obtain ⟨seenName, same, readName⟩ := named.read .strict
      obtain rfl := same rfl
      obtain ⟨behind, found, colon⟩ := readName (before ++ (text ++ (after ++ '\x7d' :: rest)))
      have label : Json.readName .strict cs = .ok (seenName, behind) := by
        rw [← found]
        refine readName_congr ?_
        simp only [start, List.append_assoc]
        rfl
      rw [readMembers_eq label, overlay,
        readMemberValue_text colon here (here.skip front _) (stops_gap_cons back rfl)]
      cases overlayMember settings seen seenName value with
      | error category => rfl
      | ok result =>
        simp only [Except.map]
        rw [skipSpace_gap_cons back rfl]
        rfl
    | @cons name value members label before text after below named front here back others =>
      obtain ⟨seenName, same, readName⟩ := named.read .strict
      obtain rfl := same rfl
      obtain ⟨behind, found, colon⟩ :=
        readName (before ++ (text ++ (after ++ ',' :: (below ++ rest))))
      have label : Json.readName .strict cs = .ok (seenName, behind) := by
        rw [← found]
        refine readName_congr ?_
        simp only [start, List.append_assoc]
        rfl
      rw [readMembers_eq label, overlay,
        readMemberValue_text colon here (here.skip front _) (stops_gap_cons back rfl)]
      cases overlayMember settings seen seenName value with
      | error category => rfl
      | ok result =>
        simp only [Except.map]
        rw [skipSpace_gap_cons back rfl]
        exact ih others result.1 result.2 rfl

/-! Arrays. -/

/-- A field that is not stated yet takes the value of a member of its name. -/
theorem overlayMember_field (fresh : field ∉ seen) (settings : Settings) (value : Json) :
    overlayMember settings seen field.name value =
      if value.isHuge then .error .malformed
      else
        match settings.set? field value with
        | none => .error .mistyped
        | some settings => .ok (settings, field :: seen) := by
  rw [overlayMember, ofName?_eq_some.2 rfl]
  exact if_neg fresh

theorem readItems_end {gap : List Char} (gaps : IsGap gap) (first : Bool) (fields : List Field)
    (settings : Settings) (rest : List Char) :
    readItems first fields settings (gap ++ ']' :: rest) = .ok (settings, rest) := by
  rw [readItems, skipSpace_gap_cons gaps rfl]
  rfl

theorem readItems_comma {gap : List Char} (gaps : IsGap gap) (field : Field) (fields : List Field)
    (settings : Settings) (rest : List Char) :
    readItems false (field :: fields) settings (gap ++ ',' :: rest) =
      readField settings field rest >>= fun result => readItems false fields result.1 result.2 := by
  rw [readItems, skipSpace_gap_cons gaps rfl]
  rfl

theorem readItems_first (opened : skipSpace cs = c :: rest) (filled : c ≠ ']') (field : Field)
    (fields : List Field) (settings : Settings) :
    readItems true (field :: fields) settings cs =
      readField settings field cs >>= fun result => readItems false fields result.1 result.2 := by
  have same : readField settings field (c :: rest) = readField settings field cs := by
    rw [readField, readField, ← opened, skipSpace_skipSpace]
  rw [readItems, opened]
  split
  · next none => cases none
  · next closed =>
    cases closed
    exact absurd rfl filled
  · next found =>
    cases found
    rw [← same]
    rfl

/-- The items of an array are read as if they were members of the names of the next fields. -/
theorem readItems_text {item : Json} {fields : List Field} (h : ItemsText (item :: items) text)
    (enough : items.length ≤ fields.length) (distinct : (field :: fields).Nodup)
    (fresh : ∀ other ∈ field :: fields, other ∉ seen) (settings : Settings)
    (start : skipSpace cs = skipSpace (text ++ rest)) :
    (readField settings field cs >>= fun result => readItems false fields result.1 result.2) =
      (overlay settings seen ((field.name, item) :: (fields.map Field.name).zip items)).map
        fun result => (result, rest) := by
  induction items generalizing settings seen cs text field fields item with
  | nil =>
    cases h with
    | @last item before text after front here back =>
      have start' : skipSpace cs = text ++ (after ++ ']' :: rest) := by
        simp only [start, List.append_assoc, here.skip front]
        rfl
      rw [readField_text here start' (stops_gap_cons back rfl), overlay,
        overlayMember_field (fresh field List.mem_cons_self), List.zip_nil_right]
      split
      · rfl
      · cases settings.set? field item with
        | none => rfl
        | some result => exact readItems_end back false fields result rest
    | cons front here back others => cases others
  | cons next items ih =>
    cases h with
    | @cons item items before text after below front here back others =>
      have start' : skipSpace cs = text ++ (after ++ ',' :: (below ++ rest)) := by
        simp only [start, List.append_assoc, here.skip front, List.cons_append]
      rw [readField_text here start' (stops_gap_cons back rfl), overlay,
        overlayMember_field (fresh field List.mem_cons_self)]
      split
      · rfl
      · cases settings.set? field item with
        | none => rfl
        | some result =>
          obtain ⟨field', fields, rfl⟩ := List.exists_cons_of_length_pos
            (Nat.lt_of_lt_of_le (Nat.succ_pos _) enough)
          rw [List.nodup_cons] at distinct
          have fresh' : ∀ other ∈ field' :: fields, other ∉ field :: seen := by
            intro other mem old
            rcases List.mem_cons.1 old with rfl | old
            · exact distinct.1 mem
            · exact fresh other (List.mem_cons_of_mem _ mem) old
          have others' := ih others (Nat.le_of_succ_le_succ enough) distinct.2 fresh' result rfl
          rw [← readItems_comma back] at others'
          exact others'

/-! Whole texts. -/

/-- Once the settings are read, white space may follow. -/
theorem read_end {after : List Char} (back : IsGap after) (result : Except Category Settings) :
    ((result.map fun settings => (settings, after)) >>= fun read => do
      readEnd read.2
      return read.1) = result := by
  cases result with
  | error category => rfl
  | ok settings =>
    simp only [Except.map, bind, Except.bind, readEnd_gap back]
    rfl

/-- An object is read for what its members state. -/
theorem read_object {source : String} (h : Written (.object members) source) :
    read source = overlay {} [] members := by
  obtain @⟨before, text, after, front, here, back⟩ := h
  rw [read, String.toList_ofList, here.skip front]
  cases here with
  | atom atom => cases atom
  | @emptyObject gap inside =>
    have closed : skipSpace ((gap ++ ['\x7d']) ++ after) = '\x7d' :: after := by
      rw [List.append_assoc]
      exact skipSpace_gap_cons inside rfl after
    simp only [List.cons_append, closed]
    exact read_end back (.ok {})
  | @object members text inside =>
    obtain ⟨cs, opened⟩ := inside.skip after
    have all : readMembers {} [] (text ++ after) = _ := readMembers_text inside {} [] rfl
    simp only [List.cons_append, opened]
    rw [← read_end back (overlay {} [] _), ← all]
    rfl

/-- The members of an object that names the fields of an array's items. -/
def itemMembers (items : List Json) : List (String × Json) := (Field.all.map Field.name).zip items

/-- An array of no more items than fields is read for what such members state. -/
theorem read_array {source : String} (h : Written (.array items) source)
    (enough : items.length ≤ Field.all.length) :
    read source = overlay {} [] (itemMembers items) := by
  obtain @⟨before, text, after, front, here, back⟩ := h
  rw [read, String.toList_ofList, here.skip front]
  cases here with
  | atom atom => cases atom
  | @emptyArray gap inside =>
    have none : readItems true Field.all {} ((gap ++ [']']) ++ after) = .ok ({}, after) := by
      rw [List.append_assoc]
      exact readItems_end inside true _ _ after
    simp only [List.cons_append, none]
    exact read_end back (.ok {})
  | @array items text inside =>
    cases items with
    | nil => cases inside
    | cons item items =>
      obtain ⟨c, behind, opened, other⟩ := inside.skip after
      have all : (readField {} .defaultTag (text ++ after) >>= _) = _ :=
        @readItems_text .defaultTag [] items _ text after item [.tabSize, .encoding, .fileName]
          inside (Nat.le_of_succ_le_succ enough) (by decide) (by simp) {} rfl
      rw [← read_end back (overlay {} [] _)]
      simp only [List.cons_append]
      rw [itemMembers]
      refine Eq.trans ?_ (congrArg (· >>= _) all)
      rw [← readItems_first opened other]
      rfl

theorem admits_itemMembers
    (typed : ∀ field item, (field, item) ∈ Field.all.zip items → Field.Fits field item) :
    Admits (itemMembers items) := by
  refine ⟨fun field => ?_, fun field value mem => ?_⟩
  · have distinct : (Field.all.map Field.name).Nodup := by decide
    have names : ((itemMembers items).map Prod.fst).Sublist (Field.all.map Field.name) := by
      rw [itemMembers, List.zip_eq_zip_take_min, List.map_fst_zip (by simp)]
      exact List.take_sublist _ _
    exact List.nodup_iff_count_le_one.1 (distinct.sublist names) field.name
  · rw [itemMembers, List.zip_map_left] at mem
    obtain ⟨⟨other, item⟩, paired, same⟩ := List.mem_map.1 mem
    obtain ⟨named, rfl⟩ := Prod.mk.inj same
    rw [← name_injective named]
    exact typed other item paired

/-- Settings are the defaults overlaid by what the text states. An object that states no field
twice, and each with a value of its type, is read for it, whatever else it holds; an array of such
values comes to the same as an object that names their fields in any order. Any other object is
refused for its first problem: as malformed if that is a new field's number which overflows when
the reader scales it, as mistyped otherwise. -/
theorem read_overlays :
    (∀ (members : List (String × Json)) (source : String), Written (.object members) source →
      Admits members → ∃ settings, read source = .ok settings ∧ settings.Overlays members) ∧
    (∀ (items : List Json) (members : List (String × Json)) (source other : String),
      items.length ≤ 4 → (∀ field item, (field, item) ∈ Field.all.zip items → field.Fits item) →
      members.Perm (itemMembers items) → Written (.array items) source →
      Written (.object members) other →
      ∃ settings, read source = .ok settings ∧ read other = .ok settings) ∧
    ∀ (members : List (String × Json)) (source : String), Written (.object members) source →
      ¬ Admits members → ∃ category, read source = .error category ∧ Problem members category := by
  refine ⟨fun members source written admits => ?_,
    fun items members source other few typed same written written' => ?_,
    fun members source written problem => ?_⟩
  · rw [read_object written]
    exact overlay_of_admits admits
  · have admits := admits_itemMembers typed
    obtain ⟨settings, ok, overlays⟩ := overlay_of_admits admits
    obtain ⟨settings', ok', overlays'⟩ := overlay_of_admits (admits.perm same.symm)
    refine ⟨settings, ?_, ?_⟩
    · rw [read_array written few, ok]
    · rw [read_object written', ok', (overlays'.perm same).unique overlays]
  · rw [read_object written]
    exact overlay_of_not_admits problem

theorem isProper_huge : Numeral.IsProper ⟨false, ['1'], [], ['9', '9', '9']⟩ :=
  ⟨⟨by decide, List.all_eq_true.1 rfl⟩, by decide, .inl rfl,
    .inr (.plain ⟨by decide, List.all_eq_true.1 rfl⟩)⟩

/-- A number that overflows when it is read is refused as malformed, though it is JSON of another
type than the field's. -/
theorem huge_malformed :
    Written (.object [("tab_size", .number ⟨false, ['1'], [], ['9', '9', '9']⟩)])
      "\x7b\n  \"tab_size\": 1e999\n\x7d" ∧
    ¬ Field.tabSize.Fits (.number ⟨false, ['1'], [], ['9', '9', '9']⟩) ∧
    read "\x7b\n  \"tab_size\": 1e999\n\x7d" = .error .malformed ∧
    read "\x7b\n  \"tab_size\": 1e999\n\x7d" ≠ .error .mistyped := by
  have written : Written (.object [("tab_size", .number ⟨false, ['1'], [], ['9', '9', '9']⟩)])
      "\x7b\n  \"tab_size\": 1e999\n\x7d" :=
    (written_pretty (by exact List.forall_mem_singleton.2 isProper_huge)).1
  have read : read "\x7b\n  \"tab_size\": 1e999\n\x7d" = .error .malformed := by
    rw [read_object written]
    decide +kernel
  refine ⟨written, ?_, read, ?_⟩
  · rintro ⟨digits, same, -⟩
    cases same
  · rw [read]
    nofun

/-- An object whose other names come twice and hold a number of any size, an array that comes to the
same as an object, and a field that is stated twice. -/
theorem read_overlays_stated :
    (∃ settings, read (Json.pretty (.object [("x", .number ⟨false, ['1'], [], ['9', '9', '9']⟩),
        ("default_tag", .string "p"), ("x", .array [.object []])])) = .ok settings ∧
      settings.defaultTag = "p" ∧ settings.tabSize = 4) ∧
    (∃ settings, read (Json.pretty (.array [.string "p", .number ⟨false, ['8'], [], []⟩])) =
        .ok settings ∧
      read (Json.pretty (.object [("tab_size", .number ⟨false, ['8'], [], []⟩),
        ("default_tag", .string "p")])) = .ok settings) ∧
    ∃ category, read (Json.pretty (.object [("file_name", .null), ("file_name", .null)])) =
      .error category ∧ Problem [("file_name", .null), ("file_name", .null)] category := by
  have eight : Numeral.IsProper ⟨false, ['8'], [], []⟩ :=
    ⟨⟨by decide, List.all_eq_true.1 rfl⟩, by decide, .inl rfl, .inl rfl⟩
  refine ⟨?_, ?_, ?_⟩
  · have admits : Admits [("x", .number ⟨false, ['1'], [], ['9', '9', '9']⟩),
        ("default_tag", .string "p"), ("x", .array [.object []])] := by
      constructor
      · intro field
        cases field <;> decide
      · intro field value mem
        cases field <;> simp [Field.name] at mem
        exact ⟨"p", mem⟩
    obtain ⟨settings, ok, overlays⟩ := read_overlays.1 _ _
      (written_pretty (by exact List.forall_mem_singleton.2 isProper_huge)).1 admits
    refine ⟨settings, ok, ?_, overlays.unstated .tabSize (by decide)⟩
    have tag := overlays.stated .defaultTag (.string "p") (by simp [Field.name])
    exact (Json.string.inj tag).symm
  · refine read_overlays.2.1 [.string "p", .number ⟨false, ['8'], [], []⟩] _ _ _ (by decide) ?_
      (List.Perm.swap _ _ [])
      (written_pretty (by exact List.forall_mem_singleton.2 eight)).1
      (written_pretty (by exact List.forall_mem_singleton.2 eight)).1
    intro field item mem
    simp only [Field.all, List.zip_cons_cons, List.zip_nil_right, List.mem_cons, Prod.mk.injEq,
      List.not_mem_nil, or_false] at mem
    obtain ⟨rfl, rfl⟩ | ⟨rfl, rfl⟩ := mem
    · exact ⟨"p", rfl⟩
    · exact ⟨['8'], rfl, by decide⟩
  · refine read_overlays.2.2 _ _ (written_pretty (by exact nofun)).1 fun admits => ?_
    exact absurd (admits.once .fileName) (by decide)

end Settings
end TemplateMarkup
