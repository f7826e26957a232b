import TemplateMarkup.Text.Remark

/-! Texts without a remark, which cutting leaves as they are, and what a remark cuts off. -/
namespace TemplateMarkup

/-- Every hash sign of a text is escaped by a backslash or opens a splice. -/
def IsUnremarked (text : List Char) : Prop :=
  ∀ before after, text = before ++ '#' :: after →
    before.getLast? = some '\\' ∨ after.head? = some '{'

/-- The same for a text behind a character that is a backslash or is none. -/
def IsUnremarkedAfter (escaped : Bool) (text : List Char) : Prop :=
  ∀ before after, text = before ++ '#' :: after →
    (before = [] ∧ escaped = true) ∨ before.getLast? = some '\\' ∨ after.head? = some '{'

theorem isUnremarkedAfter_nil (escaped : Bool) : IsUnremarkedAfter escaped [] := by
  intro before after split
  simp at split

theorem isUnremarkedAfter_cons {escaped : Bool} {c : Char} {cs : List Char} :
    IsUnremarkedAfter escaped (c :: cs) ↔
      (c = '#' → escaped = true ∨ cs.head? = some '{') ∧ IsUnremarkedAfter (c = '\\') cs := by
  constructor
  · intro h
    constructor
    · rintro rfl
      obtain ⟨-, here⟩ | last | splice := h [] cs rfl
      · exact .inl here
      · cases last
      · exact .inr splice
    · rintro before after rfl
      obtain ⟨empty, -⟩ | last | splice := h (c :: before) after rfl
      · cases empty
      · cases before with
        | nil => exact .inl ⟨rfl, by simpa using last⟩
        | cons d before => exact .inr (.inl (by simpa [List.getLast?_cons_cons] using last))
      · exact .inr (.inr splice)
  · rintro ⟨here, onward⟩ before after split
    cases before with
    | nil =>
      obtain ⟨rfl, rfl⟩ := List.cons.inj split
      obtain escaped | splice := here rfl
      · exact .inl ⟨rfl, escaped⟩
      · exact .inr (.inr splice)
    | cons d before =>
      obtain ⟨rfl, rfl⟩ := List.cons.inj split
      obtain ⟨rfl, backslash⟩ | last | splice := onward before after rfl
      · exact .inr (.inl (by simpa using backslash))
      · exact .inr (.inl (by simp [List.getLast?_cons, last]))
      · exact .inr (.inr splice)

theorem cutRemarkAfter_eq_self {escaped : Bool} {text : List Char} :
    cutRemarkAfter escaped text = text ↔ IsUnremarkedAfter escaped text := by
  fun_induction cutRemarkAfter escaped text with
  | case1 escaped => simp [isUnremarkedAfter_nil]
  | case2 escaped cs ih => simp [isUnremarkedAfter_cons, ih]
  | case3 cs _ ih => simp [isUnremarkedAfter_cons, ih]
  | case4 escaped cs noSplice plain =>
    have other : cs.head? ≠ some '{' := by
      intro splice
      obtain ⟨rest, rfl⟩ := List.head?_eq_some_iff.1 splice
      exact noSplice rest rfl
    simp [isUnremarkedAfter_cons, plain, other]
  | case5 escaped c cs _ other ih =>
    have plain : c ≠ '#' := fun hash => other hash
    simp [isUnremarkedAfter_cons, plain, ih]

theorem cutRemark_eq_self {text : List Char} : cutRemark text = text ↔ IsUnremarked text := by
  rw [cutRemark, cutRemarkAfter_eq_self]
  simp [IsUnremarkedAfter, IsUnremarked]

theorem cutRemarkAfter_hash (escaped : Bool) (cs : List Char) :
    cutRemarkAfter escaped ('#' :: cs) =
      if cs.head? = some '{' ∨ escaped = true then '#' :: cutRemarkAfter false cs else [] := by
  cases cs with
  | nil => simp [cutRemarkAfter]
  | cons c cs =>
    by_cases splice : c = '{'
    · subst splice
      simp [cutRemarkAfter]
    · simp [cutRemarkAfter, splice]

theorem cutRemarkAfter_cons {c : Char} (plain : c ≠ '#') (escaped : Bool) (cs : List Char) :
    cutRemarkAfter escaped (c :: cs) = c :: cutRemarkAfter (c = '\\') cs := by
  rw [cutRemarkAfter]
  · exact fun _ hash _ => plain hash
  · exact plain

/-- Nothing behind a hash sign that opens a remark is kept. -/
theorem cutRemarkAfter_remark {escaped : Bool} {text : List Char}
    (first : text = [] → escaped = false) (last : text.getLast? ≠ some '\\') {x y : List Char}
    (hx : x.head? ≠ some '{') (hy : y.head? ≠ some '{') :
    cutRemarkAfter escaped (text ++ '#' :: x) = cutRemarkAfter escaped (text ++ '#' :: y) := by
  induction text generalizing escaped with
  | nil => simp [cutRemarkAfter_hash, first rfl, hx, hy]
  | cons c text ih =>
    have behind : text.getLast? ≠ some '\\' := by
      intro same
      exact last (by simp [List.getLast?_cons, same])
    rw [List.cons_append, List.cons_append]
    by_cases hash : c = '#'
    · subst hash
      have head : (text ++ '#' :: x).head? = (text ++ '#' :: y).head? := by
        cases text <;> rfl
      rw [cutRemarkAfter_hash, cutRemarkAfter_hash, head, ih (fun _ => rfl) behind]
    · rw [cutRemarkAfter_cons hash, cutRemarkAfter_cons hash, ih _ behind]
      rintro rfl
      simpa using last

theorem cutRemark_remark {text x y : List Char} (last : text.getLast? ≠ some '\\')
    (hx : x.head? ≠ some '{') (hy : y.head? ≠ some '{') :
    cutRemark (text ++ '#' :: x) = cutRemark (text ++ '#' :: y) :=
  cutRemarkAfter_remark (fun _ => rfl) last hx hy

instance (text : List Char) : Decidable (IsUnremarked text) :=
  decidable_of_iff (cutRemark text = text) cutRemark_eq_self

/-- White space, and perhaps a remark behind it. -/
def IsTrailingRemark (text : List Char) : Prop :=
  ∃ white remark, text = white ++ remark ∧ isBlank white = true ∧ ∀ c ∈ remark.head?, c = '#'

theorem isRemarkOnly_iff {text : List Char} : isRemarkOnly text = true ↔ IsTrailingRemark text := by
  constructor
  · intro only
    refine ⟨text.takeWhile isWhite, trimLeft text, List.takeWhile_append_dropWhile.symm, ?_, ?_⟩
    · exact List.all_takeWhile
    · intro c first
      unfold isRemarkOnly at only
      split at only
      · next empty =>
        rw [empty] at first
        cases first
      · next d rest filled =>
        rw [filled] at first
        cases first
        simpa using only
  · rintro ⟨white, remark, rfl, blank, hash⟩
    have skipped : trimLeft (white ++ remark) = trimLeft remark := by
      unfold trimLeft
      exact List.dropWhile_append_of_pos (by simpa [isBlank] using blank)
    unfold isRemarkOnly
    rw [skipped]
    cases remark with
    | nil => rfl
    | cons c rest =>
      obtain rfl := hash c rfl
      rfl

end TemplateMarkup
