import TemplateMarkup.Text.White
import TemplateMarkup.Text.Word

/-! Word characters and white space are told apart, and trimming keeps what is neither at an end. -/
namespace TemplateMarkup

/-- The code points of white space. -/
def whiteCodes : List Nat :=
  [9, 10, 11, 12, 13, 32, 0x85, 0xA0, 0x1680, 0x2000, 0x2001, 0x2002, 0x2003, 0x2004, 0x2005, 0x2006,
    0x2007, 0x2008, 0x2009, 0x200A, 0x2028, 0x2029, 0x202F, 0x205F, 0x3000]

theorem toNat_mem_whiteCodes {c : Char} (h : isWhite c = true) : c.toNat ∈ whiteCodes := by
  simp only [isWhite] at h
  generalize c.toNat = n at h ⊢
  simp only [whiteCodes, List.mem_cons, List.not_mem_nil, or_false]
  split at h
  · simp only [Bool.or_eq_true, Bool.and_eq_true, decide_eq_true_eq] at h
    omega
  · simp only [Bool.or_eq_true, Bool.and_eq_true, decide_eq_true_eq] at h
    omega

theorem isWord_of_isWhite {c : Char} (h : isWhite c = true) : isWord c = false := by
  have none_is_word : ∀ n ∈ whiteCodes, isWord (Char.ofNat n) = false := by decide +kernel
  have := none_is_word c.toNat (toNat_mem_whiteCodes h)
  rwa [Char.ofNat_toNat] at this

theorem isWhite_of_isWord {c : Char} (h : isWord c = true) : isWhite c = false := by
  cases white : isWhite c with
  | false => rfl
  | true =>
    rw [isWord_of_isWhite white] at h
    cases h

theorem ne_of_isWord {c d : Char} (hc : isWord c = true) (hd : isWord d = false) : c ≠ d := by
  intro same
  rw [same, hd] at hc
  cases hc

theorem trimLeft_cons_of_not_white {c : Char} (h : isWhite c = false) (cs : List Char) :
    trimLeft (c :: cs) = c :: cs := by
  simp [trimLeft, h]

theorem trimLeft_cons_of_white {c : Char} (h : isWhite c = true) (cs : List Char) :
    trimLeft (c :: cs) = trimLeft cs := by
  simp [trimLeft, h]

theorem trim_space_cons (cs : List Char) : trim (' ' :: cs) = trim cs := by
  rw [trim, trimLeft_cons_of_white (by decide), ← trim]

theorem trimRight_concat {c : Char} (h : isWhite c = false) (cs : List Char) :
    trimRight (cs ++ [c]) = cs ++ [c] := by
  simp [trimRight, h]

theorem trimRight_append_blank (cs : List Char) :
    ∃ white, cs = trimRight cs ++ white ∧ isBlank white = true := by
  refine ⟨(cs.reverse.takeWhile isWhite).reverse, ?_, ?_⟩
  · rw [trimRight, ← List.reverse_append, List.takeWhile_append_dropWhile, List.reverse_reverse]
  · rw [isBlank, List.all_reverse]
    exact List.all_takeWhile

theorem trimLeft_append_of_blank {ws : List Char} (h : isBlank ws = true) (cs : List Char) :
    trimLeft (ws ++ cs) = trimLeft cs := by
  unfold trimLeft
  apply List.dropWhile_append_of_pos
  simpa [isBlank] using h

/-- What trimming leaves does not end with white space. -/
theorem getLast_of_trim {cs : List Char} (h : trim cs = cs) {c : Char}
    (last : cs.getLast? = some c) : isWhite c = false := by
  have back : cs.reverse = (trimLeft cs).reverse.dropWhile isWhite := by
    rw [← List.reverse_inj, List.reverse_reverse]
    exact h.symm
  have head := List.head?_dropWhile_not isWhite (trimLeft cs).reverse
  rw [← back, List.head?_reverse, last] at head
  exact head

end TemplateMarkup
