import TemplateMarkup.Proofs.Json.Reading

/-! The reader takes every JSON text for the value that it writes, and a lenient one passes over
it. -/
namespace TemplateMarkup
namespace Json

variable {care : Care} {c : Char} {cs inner text rest : List Char}

/-- What no value starts with: white space, and what closes a container. -/
def isBetween (c : Char) : Bool := isSpace c || c = ']' || c = '}'

theorem AtomText.cons {value : Json} (h : AtomText value text) :
    ∃ c cs, text = c :: cs ∧ isBetween c = false ∧ c ≠ '[' ∧ c ≠ '{' := by
  cases h with
  | null => exact ⟨_, _, rfl, by decide⟩
  | yes => exact ⟨_, _, rfl, by decide⟩
  | no => exact ⟨_, _, rfl, by decide⟩
  | string => exact ⟨_, _, rfl, by decide⟩
  | @number n mark proper marks =>
    obtain ⟨c, cs, written, numeric⟩ := written_cons proper mark
    have other : ∀ d ∈ [' ', '\n', '\t', '\r', ']', '}', '[', '{'], c ≠ d := by
      intro d mem same
      have none : [' ', '\n', '\t', '\r', ']', '}', '[', '{'].all
          (fun d => !(decide (d = '-') || d.isDigit)) := by decide
      have plain := List.all_eq_true.1 none d mem
      rw [← same, numeric] at plain
      cases plain
    refine ⟨c, cs, written, ?_, other _ (by simp), other _ (by simp)⟩
    simp only [isBetween, isSpace, Bool.or_eq_false_iff, decide_eq_false_iff_not]
    simp [other]

theorem Text.cons {value : Json} (h : Text value text) :
    ∃ c cs, text = c :: cs ∧ isBetween c = false := by
  cases h with
  | atom atom =>
    obtain ⟨c, cs, rfl, outside, -⟩ := atom.cons
    exact ⟨c, cs, rfl, outside⟩
  | emptyArray | array | emptyObject | object => exact ⟨_, _, rfl, by decide⟩

theorem readInside_array (start : skipSpace cs = '[' :: inner) (frames : List Frame) :
    readInside care frames cs =
      match skipSpace inner with
      | ']' :: rest => resume care (array []) frames rest
      | rest => readInside care (.array [] :: frames) rest := by
  conv => lhs; rw [readInside]
  split
  · next found =>
    cases start.symm.trans found
    split
    · next closed => simp only [closed]
    · next other =>
      split
      · next closed => exact absurd closed (other _)
      · rfl
  · next found => cases start.symm.trans found
  · next other _ => exact absurd start (other _)

theorem readInside_object (start : skipSpace cs = '{' :: inner) (frames : List Frame) :
    readInside care frames cs =
      match skipSpace inner with
      | '}' :: rest => resume care (object []) frames rest
      | rest => readMember care [] frames rest := by
  conv => lhs; rw [readInside]
  split
  · next found => cases start.symm.trans found
  · next found =>
    cases start.symm.trans found
    split
    · next closed => simp only [closed]
    · next other =>
      split
      · next closed => exact absurd closed (other _)
      · rfl
  · next other => exact absurd start (other _)

theorem readInside_atom (noArray : ∀ inner, skipSpace cs ≠ '[' :: inner)
    (noObject : ∀ inner, skipSpace cs ≠ '{' :: inner) {value : Json}
    (read : readAtom care (skipSpace cs) = .ok (value, rest)) (frames : List Frame) :
    readInside care frames cs = resume care value frames rest := by
  rw [readInside]
  split
  · next found => exact absurd found (noArray _)
  · next found => exact absurd found (noObject _)
  · split
    · next failed => cases read.symm.trans failed
    · next found =>
      cases read.symm.trans found
      rfl

theorem readMember_of_name {name : String} {behind : List Char}
    (read : readName care cs = .ok (name, behind)) (colon : readColon behind = .ok rest)
    (members : List (String × Json)) (frames : List Frame) :
    readMember care members frames cs = readInside care (.object members name :: frames) rest := by
  rw [readMember]
  split
  · next failed => cases read.symm.trans failed
  · next found =>
    cases read.symm.trans found
    split
    · next failed => cases colon.symm.trans failed
    · next found =>
      cases colon.symm.trans found
      rfl

theorem resume_array (found : skipSpace cs = c :: rest) (value : Json) (items : List Json)
    (frames : List Frame) :
    resume care value (.array items :: frames) cs =
      if c = ']' then resume care (array (value :: items).reverse) frames rest
      else if c = ',' then readInside care (.array (value :: items) :: frames) rest
      else .error .malformed := by
  conv => lhs; rw [resume]
  split
  · next none => cases found.symm.trans none
  · next found' =>
    cases found.symm.trans found'
    rfl
  · next found' =>
    cases found.symm.trans found'
    rfl
  · next noEnd noComma =>
    rw [if_neg, if_neg]
    · rintro rfl
      exact noComma rest found
    · rintro rfl
      exact noEnd rest found

theorem resume_object (found : skipSpace cs = c :: rest) (value : Json)
    (members : List (String × Json)) (name : String) (frames : List Frame) :
    resume care value (.object members name :: frames) cs =
      if c = '}' then resume care (object ((name, value) :: members).reverse) frames rest
      else if c = ',' then readMember care ((name, value) :: members) frames rest
      else .error .malformed := by
  conv => lhs; rw [resume]
  split
  · next none => cases found.symm.trans none
  · next found' =>
    cases found.symm.trans found'
    rfl
  · next found' =>
    cases found.symm.trans found'
    rfl
  · next noEnd noComma =>
    rw [if_neg, if_neg]
    · rintro rfl
      exact noComma rest found
    · rintro rfl
      exact noEnd rest found

theorem Text.skip {value : Json} {gap : List Char} (h : Text value text) (gaps : IsGap gap)
    (rest : List Char) : skipSpace (gap ++ (text ++ rest)) = text ++ rest := by
  obtain ⟨c, cs, rfl, outside⟩ := h.cons
  have filled : isSpace c = false := by
    simp only [isBetween, Bool.or_eq_false_iff] at outside
    exact outside.1.1
  rw [skipSpace_append gaps, List.cons_append, skipSpace_cons filled]

theorem NameText.skip {name : String} (h : NameText name text) :
    ∃ behind, ∀ rest, skipSpace (text ++ rest) = '"' :: (behind ++ rest) := by
  cases h with
  | @mk before chars after front content back =>
    refine ⟨chars ++ '"' :: (after ++ [':']), fun rest => ?_⟩
    simp only [List.append_assoc, List.cons_append]
    rw [skipSpace_append front, skipSpace_cons rfl]

theorem readName_congr {other : List Char} (same : skipSpace cs = skipSpace other) :
    readName care cs = readName care other := by
  rw [readName, readName, same]

theorem ItemsText.skip {items : List Json} (h : ItemsText items text) (rest : List Char) :
    ∃ c cs, skipSpace (text ++ rest) = c :: cs ∧ c ≠ ']' := by
  have item : ∀ {value : Json} {before here : List Char}, IsGap before → Text value here →
      ∀ behind, ∃ c cs, skipSpace (before ++ (here ++ behind)) = c :: cs ∧ c ≠ ']' := by
    intro value before here front written behind
    obtain ⟨c, cs, same, outside⟩ := written.cons
    refine ⟨c, cs ++ behind, ?_, ?_⟩
    · rw [written.skip front, same, List.cons_append]
    · rintro rfl
      cases outside
  cases h with
  | last front here back =>
    rw [List.append_assoc, List.append_assoc]
    exact item front here _
  | cons front here back others =>
    rw [List.append_assoc, List.append_assoc]
    exact item front here _

theorem MembersText.skip {members : List (String × Json)} (h : MembersText members text)
    (rest : List Char) : ∃ cs, skipSpace (text ++ rest) = '"' :: cs := by
  cases h with
  | last named | cons named =>
    obtain ⟨behind, skip⟩ := named.skip
    rw [List.append_assoc, skip]
    exact ⟨_, rfl⟩

theorem Accepts.of_items {item : Json} {items : List Json}
    (h : Accepts care (array (item :: items))) : Accepts care item ∧ Accepts care (array items) := by
  refine ⟨fun strict n mem => h strict n ?_, fun strict n mem => h strict n ?_⟩ <;>
    · simp only [numerals, numeralsOfItems, List.mem_append] at mem ⊢
      simp [mem]

theorem Accepts.of_members {name : String} {value : Json} {members : List (String × Json)}
    (h : Accepts care (object ((name, value) :: members))) :
    Accepts care value ∧ Accepts care (object members) := by
  refine ⟨fun strict n mem => h strict n ?_, fun strict n mem => h strict n ?_⟩ <;>
    · simp only [numerals, numeralsOfMembers, List.mem_append] at mem ⊢
      simp [mem]

mutual

/-- A value is read together with the white space in front of it. -/
theorem readInside_text {value : Json} {text : List Char} (h : Text value text)
    (accepts : Accepts care value) :
    ∃ seen, (care = .strict → seen = value) ∧ ∀ frames cs rest, skipSpace cs = text ++ rest →
      Stops isNumeric rest → readInside care frames cs = resume care seen frames rest := by
  cases h with
  | atom atom =>
    obtain ⟨seen, same, read⟩ := atom.read accepts
    obtain ⟨c, tail, cons, -, noArray, noObject⟩ := atom.cons
    refine ⟨seen, same, fun frames cs rest found stop => ?_⟩
    have start : skipSpace cs = c :: (tail ++ rest) := by rw [found, cons, List.cons_append]
    refine readInside_atom ?_ ?_ (found ▸ read rest stop) frames
    · intro inner opened
      cases start.symm.trans opened
      exact noArray rfl
    · intro inner opened
      cases start.symm.trans opened
      exact noObject rfl
  | @emptyArray gap inside =>
    refine ⟨array [], fun _ => rfl, fun frames cs rest found _ => ?_⟩
    have closed : skipSpace ((gap ++ [']']) ++ rest) = ']' :: rest := by
      rw [List.append_assoc]
      exact skipSpace_gap_cons inside rfl rest
    rw [List.cons_append] at found
    rw [readInside_array found, closed]
    rfl
  | array inside =>
    obtain ⟨seen, same, read⟩ := readInside_items inside accepts
    refine ⟨array seen, fun strict => by rw [same strict], fun frames cs rest found _ => ?_⟩
    obtain ⟨c, behind, opened, other⟩ := inside.skip rest
    rw [List.cons_append] at found
    rw [readInside_array found, opened]
    split
    · next closed =>
      cases closed
      exact absurd rfl other
    · rw [← opened]
      exact read [] frames _ rest (skipSpace_skipSpace _)
  | @emptyObject gap inside =>
    refine ⟨object [], fun _ => rfl, fun frames cs rest found _ => ?_⟩
    have closed : skipSpace ((gap ++ ['}']) ++ rest) = '}' :: rest := by
      rw [List.append_assoc]
      exact skipSpace_gap_cons inside rfl rest
    rw [List.cons_append] at found
    rw [readInside_object found, closed]
    rfl
  | object inside =>
    obtain ⟨seen, same, read⟩ := readMember_members inside accepts
    refine ⟨object seen, fun strict => by rw [same strict], fun frames cs rest found _ => ?_⟩
    obtain ⟨behind, opened⟩ := inside.skip rest
    rw [List.cons_append] at found
    rw [readInside_object found, opened]
    split
    · next closed => cases closed
    · rw [← opened]
      exact read [] frames _ rest (skipSpace_skipSpace _)

/-- The items of an array are read up to its end. -/
theorem readInside_items {items : List Json} {text : List Char} (h : ItemsText items text)
    (accepts : Accepts care (array items)) :
    ∃ seen, (care = .strict → seen = items) ∧ ∀ done frames cs rest,
      skipSpace cs = skipSpace (text ++ rest) →
      readInside care (.array done :: frames) cs =
        resume care (array (done.reverse ++ seen)) frames rest := by
  cases h with
  | @last item before text after front here back =>
    obtain ⟨seen, same, read⟩ := readInside_text here accepts.of_items.1
    refine ⟨[seen], fun strict => by rw [same strict], fun done frames cs rest found => ?_⟩
    have start : skipSpace cs = text ++ (after ++ ']' :: rest) := by
      simp only [found, List.append_assoc, here.skip front]
      rfl
    rw [read _ _ _ start (stops_gap_cons back rfl),
      resume_array (skipSpace_gap_cons back rfl rest), if_pos rfl, List.reverse_cons]
  | @cons item items before text after below front here back others =>
    obtain ⟨seen, same, read⟩ := readInside_text here accepts.of_items.1
    obtain ⟨more, same', read'⟩ := readInside_items others accepts.of_items.2
    refine ⟨seen :: more, fun strict => by rw [same strict, same' strict],
      fun done frames cs rest found => ?_⟩
    have start : skipSpace cs = text ++ (after ++ ',' :: (below ++ rest)) := by
      simp only [found, List.append_assoc, here.skip front, List.cons_append]
    rw [read _ _ _ start (stops_gap_cons back rfl),
      resume_array (skipSpace_gap_cons back rfl _), if_neg (by decide), if_pos rfl,
      read' _ _ _ _ rfl, List.reverse_cons, List.append_assoc]
    rfl

/-- The members of an object are read up to its end. -/
theorem readMember_members {members : List (String × Json)} {text : List Char}
    (h : MembersText members text) (accepts : Accepts care (object members)) :
    ∃ seen, (care = .strict → seen = members) ∧ ∀ done frames cs rest,
      skipSpace cs = skipSpace (text ++ rest) →
      readMember care done frames cs =
        resume care (object (done.reverse ++ seen)) frames rest := by
  cases h with
  | @last name value label before text after named front here back =>
    obtain ⟨seenName, sameName, readName⟩ := named.read care
    obtain ⟨seen, same, read⟩ := readInside_text here accepts.of_members.1
    refine ⟨[(seenName, seen)], fun strict => by rw [same strict, sameName strict],
      fun done frames cs rest found => ?_⟩
    obtain ⟨behind, found', colon⟩ := readName (before ++ (text ++ (after ++ '}' :: rest)))
    have label : Json.readName care cs = .ok (seenName, behind) := by
      rw [← found']
      refine readName_congr ?_
      simp only [found, List.append_assoc]
      rfl
    rw [readMember_of_name label colon,
      read _ _ _ (here.skip front _) (stops_gap_cons back rfl),
      resume_object (skipSpace_gap_cons back rfl rest), if_pos rfl, List.reverse_cons]
  | @cons name value members label before text after below named front here back others =>
    obtain ⟨seenName, sameName, readName⟩ := named.read care
    obtain ⟨seen, same, read⟩ := readInside_text here accepts.of_members.1
    obtain ⟨more, same', read'⟩ := readMember_members others accepts.of_members.2
    refine ⟨(seenName, seen) :: more, fun strict => ?_, fun done frames cs rest found => ?_⟩
    · rw [same strict, sameName strict, same' strict]
    obtain ⟨behind, found', colon⟩ :=
      readName (before ++ (text ++ (after ++ ',' :: (below ++ rest))))
    have label : Json.readName care cs = .ok (seenName, behind) := by
      rw [← found']
      refine readName_congr ?_
      simp only [found, List.append_assoc]
      rfl
    rw [readMember_of_name label colon,
      read _ _ _ (here.skip front _) (stops_gap_cons back rfl),
      resume_object (skipSpace_gap_cons back rfl _), if_neg (by decide), if_pos rfl,
      read' _ _ _ _ rfl, List.reverse_cons, List.append_assoc]
    rfl

end

theorem readEnd_gap {gap : List Char} (gaps : IsGap gap) : readEnd gap = .ok () := by
  have none := skipSpace_append gaps []
  rw [List.append_nil] at none
  rw [readEnd, none]
  rfl

/-- A source is read for the value that it writes, if no number in it overflows. -/
theorem Written.parse {value : Json} {source : String} (h : Written value source)
    (small : ∀ n ∈ value.numerals, n.isHuge = false) : Json.parse source = .ok value := by
  obtain @⟨before, text, after, front, here, back⟩ := h
  obtain ⟨seen, same, read⟩ := readInside_text here fun _ => small
  have stop : Stops isNumeric (after ++ []) := stops_gap back stops_nil
  rw [List.append_nil] at stop
  rw [Json.parse, String.toList_ofList, readValue, read [] _ after (here.skip front after) stop,
    resume, same rfl]
  simp only [bind, Except.bind, readEnd_gap back]
  rfl

end Json
end TemplateMarkup
