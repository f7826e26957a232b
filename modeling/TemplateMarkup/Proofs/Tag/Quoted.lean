import TemplateMarkup.Tag.Quoted

/-! Quoted values: which texts a pair of quotes can hold. -/
namespace TemplateMarkup

/-- Braces in pairs. -/
inductive Balanced : List Char → Prop
  | nil : Balanced []
  | char {c : Char} {cs : List Char} (opening : c ≠ '\x7b') (closing : c ≠ '\x7d')
      (rest : Balanced cs) : Balanced (c :: cs)
  | pair {inner cs : List Char} (inside : Balanced inner) (rest : Balanced cs) :
      Balanced ('\x7b' :: (inner ++ '\x7d' :: cs))

/-- A text that may stand between two quotes: it holds the quote in splices only, and each splice is
closed by the brace that pairs with the one that opens it. -/
inductive Quotable (quote : Char) : List Char → Prop
  | nil : Quotable quote []
  | char {c : Char} {cs : List Char} (other : c ≠ quote)
      (noSplice : c = '#' → cs.head? ≠ some '\x7b') (rest : Quotable quote cs) :
      Quotable quote (c :: cs)
  | splice {inner cs : List Char} (inside : Balanced inner) (rest : Quotable quote cs) :
      Quotable quote ('#' :: '\x7b' :: (inner ++ '\x7d' :: cs))

/-- A text with its braces in pairs is read at any depth without a change of the depth. -/
theorem readQuoted_balanced {inner : List Char} (balanced : Balanced inner) (quote : Char)
    (depth : Nat) (rest : List Char) :
    readQuoted quote (depth + 1) (inner ++ rest) =
      (readQuoted quote (depth + 1) rest).map fun (value, left) => (inner ++ value, left) := by
  induction balanced generalizing depth rest with
  | nil => simp
  | char opening closing _ ih =>
    rw [List.cons_append, readQuoted, if_neg opening, if_neg closing, ih, Option.map_map]
    rfl
  | pair _ _ inside behind =>
    rw [List.cons_append, List.append_assoc, List.cons_append, readQuoted, if_pos rfl, inside,
      readQuoted, if_neg (by decide), if_pos rfl, behind]
    simp [Option.map_map, Function.comp_def]

/-- What may stand between two quotes is read whatever follows, unless that turns a hash sign at its
end into a splice. -/
theorem readQuoted_append {quote : Char} {front : List Char} (quotable : Quotable quote front)
    {rest : List Char} (apart : rest.head? ≠ some '\x7b') :
    readQuoted quote 0 (front ++ rest) =
      (readQuoted quote 0 rest).map fun (value, left) => (front ++ value, left) := by
  induction quotable with
  | nil => simp
  | @char c cs other noSplice _ ih =>
    have plain : ∀ more, c = '#' → cs ++ rest = '\x7b' :: more → False := by
      intro more mark opened
      cases cs with
      | nil => exact apart (by rw [List.nil_append] at opened; rw [opened]; rfl)
      | cons d cs => exact noSplice mark (congrArg some (List.cons.inj opened).1)
    rw [List.cons_append, readQuoted, if_neg other, ih, Option.map_map]
    · rfl
    · exact plain
  | splice inside _ ih =>
    rw [List.cons_append, List.cons_append, List.append_assoc, List.cons_append, readQuoted,
      readQuoted_balanced inside, readQuoted, if_neg (by decide), if_pos rfl, ih]
    simp [Option.map_map, Function.comp_def]

/-- What may stand between two quotes is read back from there. -/
theorem readQuoted_quotable {quote : Char} (mark : quote = '"' ∨ quote = '\'') {value : List Char}
    (quotable : Quotable quote value) (rest : List Char) :
    readQuoted quote 0 (value ++ quote :: rest) = some (value, rest) := by
  have apart : (quote :: rest).head? ≠ some '\x7b' := by rcases mark with rfl | rfl <;> simp
  have closed : readQuoted quote 0 (quote :: rest) = some ([], rest) := by
    rcases mark with rfl | rfl
    · rw [readQuoted, if_pos rfl]
      simp
    · rw [readQuoted, if_pos rfl]
      simp
  rw [readQuoted_append quotable apart, closed]
  simp

/-- A text that closes so many braces and then may go on up to a quote. -/
def Closing (quote : Char) : Nat → List Char → Prop
  | 0, cs => Quotable quote cs
  | depth + 1, cs =>
    ∃ inner rest, cs = inner ++ '\x7d' :: rest ∧ Balanced inner ∧ Closing quote depth rest

theorem closing_of_readQuoted {quote : Char} {depth : Nat} {cs value rest : List Char}
    (h : readQuoted quote depth cs = some (value, rest)) : Closing quote depth value := by
  fun_induction readQuoted quote depth cs generalizing value rest with
  | case1 => cases h
  | case2 cs ih =>
    obtain ⟨⟨v, r⟩, read, same⟩ := Option.map_eq_some_iff.1 h
    obtain ⟨inner, behind, rfl, inside, onward⟩ := ih read
    cases same
    exact .splice inside onward
  | case3 cs =>
    cases h
    exact .nil
  | case4 c cs noSplice other ih =>
    obtain ⟨⟨v, r⟩, read, same⟩ := Option.map_eq_some_iff.1 h
    cases same
    refine .char other ?_ (ih read)
    rintro rfl opened
    obtain ⟨more, rfl⟩ := List.head?_eq_some_iff.1 opened
    exact noSplice _ rfl (eq_append_of_readQuoted read)
  | case5 depth c cs ih =>
    obtain ⟨⟨v, r⟩, read, same⟩ := Option.map_eq_some_iff.1 h
    cases same
    have onward := ih read
    split at onward
    · next opened =>
      obtain ⟨inner, -, rfl, inside, inner', behind, rfl, inside', onward⟩ := onward
      exact ⟨c :: (inner ++ '\x7d' :: inner'), behind, by simp, opened ▸ .pair inside inside', onward⟩
    · next closed =>
      split at onward
      · next shut => exact ⟨[], v, by rw [shut]; rfl, .nil, onward⟩
      · next open' =>
        obtain ⟨inner, behind, rfl, inside, onward⟩ := onward
        exact ⟨c :: inner, behind, rfl, .char closed open' inside, onward⟩

/-- What is read up to a quote may stand between two. -/
theorem quotable_of_readQuoted {quote : Char} {cs value rest : List Char}
    (h : readQuoted quote 0 cs = some (value, rest)) : Quotable quote value :=
  closing_of_readQuoted h

/-- Without a brace that closes a splice there is no value, wherever quotes follow. -/
theorem readQuoted_unclosed {quote : Char} {front inner : List Char} (quotable : Quotable quote front)
    (unclosed : ∀ span rest, inner = span ++ '\x7d' :: rest → ¬ Balanced span) :
    readQuoted quote 0 (front ++ '#' :: '\x7b' :: inner) = none := by
  have apart : ('#' :: '\x7b' :: inner).head? ≠ some '\x7b' := by simp
  have inside : readQuoted quote 1 inner = none := by
    cases read : readQuoted quote 1 inner with
    | none => rfl
    | some result =>
      obtain ⟨value, rest⟩ := result
      obtain ⟨span, behind, rfl, balanced, -⟩ := closing_of_readQuoted read
      refine absurd balanced (unclosed span (behind ++ quote :: rest) ?_)
      rw [eq_append_of_readQuoted read, List.append_assoc, List.cons_append]
  rw [readQuoted_append quotable apart, readQuoted, inside]
  rfl

/-- Quoted values are read by their grammar. What is read is the one text of the grammar that a quote
follows, and its bytes and those of the quote are gone. If there is none, nothing is read, and so it
is where a splice stays open. -/
theorem readQuoted_exact {quote : Char} (mark : quote = '"' ∨ quote = '\'') (cs : List Char) :
    (∀ value rest, readQuoted quote 0 cs = some (value, rest) ↔
      cs = value ++ quote :: rest ∧ Quotable quote value) ∧
    (∀ value rest, readQuoted quote 0 cs = some (value, rest) →
      (String.ofList cs).utf8ByteSize =
        (String.ofList (value ++ [quote])).utf8ByteSize + (String.ofList rest).utf8ByteSize ∧
      ∀ value' rest', cs = value' ++ quote :: rest' → Quotable quote value' →
        value' = value ∧ rest' = rest) ∧
    (readQuoted quote 0 cs = none ↔
      ∀ value rest, cs = value ++ quote :: rest → ¬ Quotable quote value) ∧
    ∀ front inner, cs = front ++ '#' :: '\x7b' :: inner → Quotable quote front →
      (∀ span rest, inner = span ++ '\x7d' :: rest → ¬ Balanced span) →
      readQuoted quote 0 cs = none := by
  have accepts (value rest : List Char) : readQuoted quote 0 cs = some (value, rest) ↔
      cs = value ++ quote :: rest ∧ Quotable quote value := by
    constructor
    · intro read
      exact ⟨eq_append_of_readQuoted read, quotable_of_readQuoted read⟩
    · rintro ⟨rfl, quotable⟩
      exact readQuoted_quotable mark quotable rest
  refine ⟨accepts, ?_, ?_, ?_⟩
  · intro value rest read
    obtain ⟨whole, -⟩ := (accepts value rest).1 read
    constructor
    · rw [whole, List.append_cons, String.ofList_append, String.utf8ByteSize_append]
    · intro value' rest' split quotable
      have read' := (accepts value' rest').2 ⟨split, quotable⟩
      simpa using Option.some.inj (read'.symm.trans read)
  · rw [Option.eq_none_iff_forall_ne_some]
    constructor
    · intro none value rest split quotable
      exact none (value, rest) ((accepts value rest).2 ⟨split, quotable⟩)
    · rintro none ⟨value, rest⟩ read
      obtain ⟨split, quotable⟩ := (accepts value rest).1 read
      exact none value rest split quotable
  · rintro front inner rfl quotable unclosed
    exact readQuoted_unclosed quotable unclosed

/-- A splice may hold quotes and braces in pairs; outside of it a closing brace stands for itself, and
so does a hash sign in front of the quote. In other quotes the same text is not closed. -/
theorem readQuoted_exact_splice :
    Quotable '"' "é\x7d#\x7bb[\"\x7b\x7d\"]\x7d#".toList ∧
    (String.ofList "é\x7d#\x7bb[\"\x7b\x7d\"]\x7d#\" x\"".toList).utf8ByteSize = 15 + 3 ∧
    ∀ value rest, "é\x7d#\x7bb[\"\x7b\x7d\"]\x7d#\" x\"".toList = value ++ '\'' :: rest →
      ¬ Quotable '\'' value := by
  have double := readQuoted_exact (.inl rfl) "é\x7d#\x7bb[\"\x7b\x7d\"]\x7d#\" x\"".toList
  have single := readQuoted_exact (.inr rfl) "é\x7d#\x7bb[\"\x7b\x7d\"]\x7d#\" x\"".toList
  have read : readQuoted '"' 0 "é\x7d#\x7bb[\"\x7b\x7d\"]\x7d#\" x\"".toList =
      some ("é\x7d#\x7bb[\"\x7b\x7d\"]\x7d#".toList, " x\"".toList) := by decide
  exact ⟨((double.1 _ _).1 read).2, (double.2.1 _ _ read).1, single.2.2.1.1 (by decide)⟩

end TemplateMarkup
