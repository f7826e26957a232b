import TemplateMarkup.Proofs.Json.Values

/-! The indented text of a value is one of its texts, so it is read back as the same value. -/
namespace TemplateMarkup

theorem Numeral.chars_eq_written (n : Numeral) : n.chars = n.written 'e' := by
  simp only [chars, written, List.append_assoc]

namespace Json

theorem eq_ofNat_of_toNat_eq {c : Char} {n : Nat} (h : c.toNat = n) : c = Char.ofNat n := by
  rw [← h, Char.ofNat_toNat]

/-- The code of a control character has two digits, and two zeros in front of them. -/
theorem hexDigits_control {n : Nat} (small : n < 32) :
    HexDigits n ['0', '0', Nat.digitChar (n / 16), Nat.digitChar (n % 16)] := by
  refine ⟨?_, ?_, ?_, .lower (by omega)⟩
  · rw [Nat.div_eq_of_lt (by omega)]
    exact .lower (by decide)
  · rw [Nat.div_eq_of_lt (by omega)]
    exact .lower (by decide)
  · rw [Nat.mod_eq_of_lt (by omega)]
    exact .lower (by omega)

theorem escape_charText (c : Char) : CharText c (escape c) := by
  rw [escape]
  split
  · next quote => exact .short (by rw [quote]; decide)
  · next quoteless =>
    split
    · next slash => exact .short (by rw [slash]; decide)
    · next slashless =>
      split
      · next control =>
        split
        · next same => exact .short (by rw [same]; decide)
        · split
          · next same => exact .short (by rw [same]; decide)
          · split
            · next same => exact .short (by rw [same]; decide)
            · split
              · next same => exact .short (by rw [eq_ofNat_of_toNat_eq same]; decide)
              · split
                · next same => exact .short (by rw [eq_ofNat_of_toNat_eq same]; decide)
                · exact .code (hexDigits_control control)
      · next visible => exact .plain (Nat.le_of_not_lt visible) quoteless slashless

theorem flatMap_escape_charsText (cs : List Char) : CharsText cs (cs.flatMap escape) := by
  induction cs with
  | nil => exact .nil
  | cons c cs ih => exact .cons (escape_charText c) ih

theorem isGap_newLine (margin : Nat) : IsGap (newLine margin) := by
  intro c mem
  rcases List.mem_cons.1 mem with rfl | blank
  · rfl
  · rw [List.eq_of_mem_replicate blank]
    rfl

theorem isGap_nil : IsGap [] := nofun

theorem newLine_nameText (margin : Nat) (name : String) :
    NameText name (newLine margin ++ (quote name ++ [':'])) := by
  have text := NameText.mk (isGap_newLine margin) (flatMap_escape_charsText name.toList) isGap_nil
  simpa only [quote, List.cons_append, List.append_assoc, List.nil_append] using text

variable {text : List Char}

mutual

theorem indented_text (value : Json) (proper : ∀ n ∈ value.numerals, n.IsProper) (margin : Nat) :
    Text value (indented margin value) := by
  match value with
  | .null => exact .atom .null
  | .bool true => exact .atom .yes
  | .bool false => exact .atom .no
  | .number n =>
    rw [indented, n.chars_eq_written]
    exact .atom (.number (proper n List.mem_cons_self) (.inl rfl))
  | .string s => exact .atom (.string (flatMap_escape_charsText s.toList))
  | .array [] => exact .emptyArray isGap_nil
  | .array (item :: items) =>
    rw [numerals, numeralsOfItems] at proper
    have first := indented_text item (fun n mem => proper n (List.mem_append_left _ mem)) (margin + 2)
    have all := indentedItems_text items (fun n mem => proper n (List.mem_append_right _ mem))
      (margin + 2) margin first
    simpa only [indented, List.append_assoc] using Text.array all
  | .object [] => exact .emptyObject isGap_nil
  | .object ((name, value) :: members) =>
    rw [numerals, numeralsOfMembers] at proper
    have first := indented_text value (fun n mem => proper n (List.mem_append_left _ mem)) (margin + 2)
    have all := indentedMembers_text members (fun n mem => proper n (List.mem_append_right _ mem))
      (margin + 2) margin name first
    simpa only [indented, List.append_assoc, List.cons_append] using Text.object all

/-- The items of an array on their lines, from the first one on. -/
theorem indentedItems_text (items : List Json)
    (proper : ∀ n ∈ numeralsOfItems items, n.IsProper) (margin outer : Nat) {item : Json}
    {text : List Char} (first : Text item text) :
    ItemsText (item :: items)
      (newLine margin ++ (text ++ (indentedItems margin items ++ (newLine outer ++ [']'])))) := by
  match items with
  | [] => exact .last (isGap_newLine margin) first (isGap_newLine outer)
  | next :: items =>
    rw [numeralsOfItems] at proper
    have second := indented_text next (fun n mem => proper n (List.mem_append_left _ mem)) margin
    have others := indentedItems_text items (fun n mem => proper n (List.mem_append_right _ mem))
      margin outer second
    have all := ItemsText.cons (isGap_newLine margin) first isGap_nil others
    simpa only [indentedItems, List.append_assoc, List.cons_append, List.nil_append] using all

/-- The members of an object on their lines, from the first one on. -/
theorem indentedMembers_text (members : List (String × Json))
    (proper : ∀ n ∈ numeralsOfMembers members, n.IsProper) (margin outer : Nat) (name : String)
    {value : Json} {text : List Char} (first : Text value text) :
    MembersText ((name, value) :: members)
      (newLine margin ++ (quote name ++ ':' :: ' ' ::
        (text ++ (indentedMembers margin members ++ (newLine outer ++ ['}']))))) := by
  have space : IsGap [' '] := by decide
  match members with
  | [] =>
    have all := MembersText.last (newLine_nameText margin name) space first (isGap_newLine outer)
    simpa only [indentedMembers, List.append_assoc, List.cons_append, List.nil_append] using all
  | (next, value) :: members =>
    rw [numeralsOfMembers] at proper
    have second := indented_text value (fun n mem => proper n (List.mem_append_left _ mem)) margin
    have others := indentedMembers_text members
      (fun n mem => proper n (List.mem_append_right _ mem)) margin outer next second
    have all := MembersText.cons (newLine_nameText margin name) space first isGap_nil others
    simpa only [indentedMembers, List.append_assoc, List.cons_append, List.nil_append] using all

end

/-- The indented text of a value, and the one with a line end behind it. -/
theorem written_pretty {value : Json} (proper : ∀ n ∈ value.numerals, n.IsProper) :
    Written value value.pretty ∧ Written value (value.pretty ++ "\n") := by
  have text := indented_text value proper 0
  constructor
  · have written := Written.mk isGap_nil text isGap_nil
    rwa [List.nil_append, List.append_nil] at written
  · have written := Written.mk isGap_nil text (isGap_newLine 0)
    have same : String.ofList ([] ++ (indented 0 value ++ newLine 0)) = value.pretty ++ "\n" := by
      rw [← String.toList_inj]
      simp [pretty, newLine]
    rwa [same] at written

end Json
end TemplateMarkup
