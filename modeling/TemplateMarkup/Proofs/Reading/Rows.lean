import TemplateMarkup.Proofs.Builder.Rows
import TemplateMarkup.Proofs.Reading.Dispatched

/-! The rows of a tree at every moment of a reading. A space is only ever placed where a word is due,
so it is followed by one; what holds of the row it is put into goes on to hold of what is before it. -/
namespace TemplateMarkup
open Builder

def CodeOwner.isTag : CodeOwner → Bool
  | tag .. => true
  | control | output _ => false

theorem CodeOwner.role_withCode {owner : CodeOwner} (tag : owner.isTag = true) (code : String) :
    (owner.withCode code).role = .word := by
  cases owner <;> first | rfl | cases tag

/-- Whether the construct under way will put a word into the innermost block. -/
def Phase.owesWord : Phase → Bool
  | attributes .. => true
  | code owner _ _ => owner.isTag
  | text block => !block.text.isEmpty
  | start | ready | remark => false

theorem Phase.owesWord_of_free {phase : Phase} (free : phase.isFree = true) :
    phase.owesWord = false := by
  cases phase <;> first | rfl | cases free

namespace TextBlock

@[simp] theorem text_startAt (column : Nat) (text : List Char) : (startAt column text).text = text := by
  simp [startAt, TextBlock.text]

/-- A text only ever grows. -/
theorem text_add {block more : TextBlock} {tab : Nat} {line : Line}
    (h : block.add tab line = .ok more) : ∃ piece, more.text = block.text ++ piece := by
  unfold add at h
  split at h
  · cases h
    exact ⟨[], (List.append_nil _).symm⟩
  · simp only at h
    split at h
    · cases h
      exact ⟨_, by simp [TextBlock.text]; rfl⟩
    · cases h

end TextBlock

namespace Head

theorem ofAngle_ne_text (cs : List Char) (glued : Bool) (text : List Char) :
    ofAngle cs ≠ .text glued text := by
  unfold ofAngle
  split
  · simp
  · split
    · simp
    · simp
    · split
      · simp
      · split <;> simp
    · simp

theorem cutRemark_ofHash {cs text : List Char} {glued : Bool} (h : ofHash cs = .text glued text) :
    cutRemark text ≠ [] := by
  unfold ofHash at h
  split at h
  · cases h
    simp [cutRemark, cutRemarkAfter]
  · split at h <;> cases h

theorem cutRemark_cons {c : Char} (plain : c ≠ '#') (cs : List Char) : cutRemark (c :: cs) ≠ [] := by
  unfold cutRemark cutRemarkAfter
  split <;> simp_all

/-- A text that is set apart has at least its first character, which is no remark. -/
theorem cutRemark_read {cs text : List Char} (h : read cs = .text false text) (filled : cs ≠ []) :
    cutRemark text ≠ [] := by
  unfold read at h
  split at h
  · cases h
  · cases h
  · exact absurd h (ofAngle_ne_text _ _ _)
  · exact cutRemark_ofHash h
  · cases h
  · next noHash _ =>
    split at h
    · cases h
    · cases h
      obtain ⟨c, cs, rfl⟩ := List.exists_cons_of_ne_nil filled
      exact cutRemark_cons (fun hash => noHash cs (hash ▸ rfl)) cs

end Head

namespace State

/-- All rows of the tree are parted, the innermost once the construct under way has put its word. -/
def HasRows (P : List Role → Prop) (s : State) : Prop := s.builder.HasRows P s.phase.owesWord

variable {P : List Role → Prop} {settings : Settings} {line : Line} {s t u : State}

theorem hasRows_takeCode (idle : s.builder.awaiting = none) {owner : CodeOwner}
    (h : s.builder.HasRows P owner.isTag) (segments : List (List Char)) (line : Line)
    (cs : List Char) : (s.takeCode owner segments line cs).HasRows P := by
  unfold takeCode
  simp only
  split
  · exact h
  · exact (h.begin idle fun tag => CodeOwner.role_withCode tag _).breakLine

theorem hasRows_takeTail (idle : s.builder.awaiting = none) (h : s.builder.HasRows P true) (tab : Nat)
    (tag : TagHead) (line : Line) (tail : Tail) : (s.takeTail tab tag line tail).HasRows P := by
  have begun : (s.builder.begin (.tag tag.name tag.attrs)).HasRows P false :=
    h.begin idle fun _ => rfl
  cases tail with
  | output mark cs => exact hasRows_takeCode idle h _ line cs
  | void => exact (h.placeWord (.voidTag tag.name tag.attrs) rfl).breakLine
  | block => exact begun.breakLine
  | text inline => exact begun.of_not_due

theorem hasRows_takeAttributes (idle : s.builder.awaiting = none) (h : s.builder.HasRows P true)
    {tab : Nat} {tag : TagHead} {close : Option Char} {cs : List Char}
    (taken : s.takeAttributes tab tag close line cs = .ok t) : t.HasRows P := by
  obtain ⟨attrs, rest, -, ⟨bracket, -, rfl⟩ | ⟨angle, behind, tail, -, -, rfl⟩⟩ :=
    takeAttributes_cases taken
  · exact h.breakLine
  · exact hasRows_takeTail idle h tab _ line tail

/-- The space that sets a line apart is one that a word is due behind. -/
theorem hasRows_separate (h : s.builder.HasRows P false)
    (before : s.gap = true → ∀ top ∈ s.builder.rows.head?, P top) :
    s.separate.builder.HasRows P true := by
  unfold separate
  split
  · next due => exact h.placeSpace (before due) " "
  · exact h.of_not_due

/-- A tag is taken by its attributes, once it is set apart. -/
theorem takeAttributes_of_tag {name : Option (List Char)} {cs : List Char}
    (taken : takeHead settings s line (.tag name cs) = .ok t) : ∃ tag close inner,
      s.separate.takeAttributes settings.tabSize tag close line inner = .ok t := by
  obtain ⟨close, inner, -, same⟩ := takeTag_eq settings.tabSize
    ((name.map String.ofList).getD settings.defaultTag) line cs
  exact ⟨_, close, inner, (same s.separate).symm.trans taken⟩

theorem hasRows_takeHead (idle : s.builder.awaiting = none) (h : s.builder.HasRows P false)
    {head : Head} (before : head.isSpaced = true → s.gap = true → ∀ top ∈ s.builder.rows.head?, P top)
    (filled : ∀ cs, head = .text false cs → cutRemark cs ≠ [])
    (taken : takeHead settings s line head = .ok t) : t.HasRows P := by
  cases head with
  | control cs =>
    cases taken
    exact hasRows_takeCode idle h _ line cs
  | output mark cs =>
    cases taken
    exact hasRows_takeCode idle h _ line cs
  | embedded engine =>
    cases taken
    exact h.breakLine.begin (awaiting_place_eq_none idle _) (by simp)
  | comment spaced cs =>
    cases taken
    exact (h.begin idle (by simp)).of_not_due
  | tag name cs =>
    obtain ⟨tag, close, inner, listed⟩ := takeAttributes_of_tag taken
    exact hasRows_takeAttributes (awaiting_separate idle) (hasRows_separate h (before rfl)) listed
  | conditional condition =>
    cases taken
    exact (h.begin idle (by simp)).breakLine
  | remark =>
    cases taken
    exact h.breakLine
  | doctype value =>
    cases taken
    exact (h.placeOther (.doctype _) (by simp [Node.role])).breakLine
  | text glued cs =>
    cases taken
    cases glued with
    | true => exact h.of_not_due
    | false =>
      have shown := filled cs rfl
      have owes : Phase.owesWord (.text (if (cutRemark cs).isEmpty then .empty false 1
          else .startAt ({ s.separate with gap := true }.builder.width + 0) (cutRemark cs))) = true := by
        simp [shown, Phase.owesWord]
      have spaced := hasRows_separate h (before rfl)
      rw [← owes] at spaced
      exact spaced
  | unknown rest => cases taken

theorem hasRows_settle (h : s.HasRows P) {block : TextBlock} (under : s.phase = .text block) :
    (s.settle block).builder.HasRows P false := by
  rw [HasRows, under] at h
  unfold settle
  simp only
  split
  · next empty =>
    rw [Phase.owesWord, empty] at h
    exact h.placeBreaks _
  · exact (h.placeWord (.interpolate _) rfl).placeBreaks _

theorem hasRows_beforeDispatch (h : s.HasRows P) (before : s.beforeDispatch? settings line = some t) :
    t.builder.HasRows P false := by
  obtain ⟨free, phase, rfl⟩ | ⟨block, under, -, rfl⟩ := beforeDispatch_cases before
  · rw [HasRows, Phase.owesWord_of_free free] at h
    exact h
  · exact hasRows_settle h under

theorem hasRows_dispatches (h : s.HasRows P) (here : s.Dispatches settings line u) :
    u.builder.HasRows P false := by
  obtain @⟨r, builder, moved, before, -, -, fit⟩ := here
  exact ((hasRows_beforeDispatch h before).align fit).record _

theorem hasRows_header (h : s.builder.HasRows P false) (value : String) :
    HasRows P { (s.place (.doctype value)).breakLine with phase := .ready } :=
  (h.placeOther (.doctype value) (by simp [Node.role])).breakLine

/-- A line that belongs to nothing before it and is not dispatched is blank or a doctype header. -/
theorem hasRows_opening (h : s.HasRows P) (found : s.beforeDispatch? settings line = some u)
    (other : ∀ v, ¬ s.Dispatches settings line v) (fed : s.feed settings line = .ok t) :
    t.HasRows P := by
  have built := hasRows_beforeDispatch h found
  by_cases start : s.phase = .start
  · obtain rfl : s = u := by simpa [beforeDispatch?, start] using found
    rw [feed_of_start line start, takeFirst] at fed
    split at fed
    · cases fed
      simpa [HasRows, breakLine, place, start, Phase.owesWord] using built.breakLine
    · next filled =>
      split at fed
      · next plain =>
        obtain ⟨blank, -⟩ | ⟨builder, moved, -, fit, -⟩ := dispatch_cases fed
        · exact absurd blank filled
        · exact absurd (.intro found (eq_false_of_ne_true filled) (fun _ => plain) fit) (other _)
      · split at fed
        · cases fed
          exact hasRows_header (s := { s with number := s.number + 1 }) built _
        · cases fed
  · rw [feed_of_beforeDispatch found start] at fed
    obtain ⟨-, rfl⟩ | ⟨builder, moved, filled, fit, -⟩ := dispatch_cases fed
    · exact built.breakLine
    · exact absurd (.intro found filled (fun first => absurd first start) fit) (other _)

/-- A line is taken in keeping with all rows, if `P` holds of what it is to be set apart from. -/
theorem hasRows_feed (h : s.HasRows P) (steady : s.Steady)
    (before : ∀ u, s.Dispatches settings line u → (Head.read (trimLeft line)).isSpaced = true →
      u.gap = true → ∀ top ∈ u.builder.rows.head?, P top)
    (fed : s.feed settings line = .ok t) : t.HasRows P := by
  by_cases dispatched : ∃ u, s.Dispatches settings line u
  · obtain ⟨u, here⟩ := dispatched
    rw [here.feed_eq] at fed
    exact hasRows_takeHead here.idle (hasRows_dispatches h here) (before u here)
      (fun cs text => Head.cutRemark_read text here.filled) fed
  · have other := not_exists.1 dispatched
    have built := h
    unfold HasRows at built
    cases step_of_feed fed with
    | blank start _ => exact hasRows_opening (u := s) h (by simp [beforeDispatch?, start]) other fed
    | header value rest start _ _ =>
      exact hasRows_opening (u := s) h (by simp [beforeDispatch?, start]) other fed
    | dispatch u t found _ => exact hasRows_opening h found other fed
    | code owner segments last under =>
      rw [under] at built
      exact hasRows_takeCode (s := { s with number := s.number + 1 })
        (steady (by rw [under]; rfl)) built segments line line
    | attributes t tag close under taken =>
      rw [under] at built
      exact hasRows_takeAttributes (s := { s with number := s.number + 1 })
        (steady (by rw [under]; rfl)) built taken
    | text block more under joined taken =>
      -- A text that owes a word goes on to do so; one that does not finds no space to fill up.
      rw [under] at built
      obtain ⟨piece, grown⟩ := TextBlock.text_add taken
      cases empty : block.text with
      | nil =>
        rw [Phase.owesWord, empty] at built
        exact built.of_not_due
      | cons c cs =>
        simp only [Phase.owesWord, empty] at built
        simpa [HasRows, Phase.owesWord, grown, empty] using built
    | remark under inside =>
      simpa [HasRows, breakLine, place, under, Phase.owesWord] using built.breakLine

/-- At every moment of a reading all rows are parted, if `P` holds at every moment before of what a
line was to be set apart from. -/
theorem hasRows_foldlM {lines : List Line}
    (before : ∀ front line back s u, lines = front ++ line :: back →
      front.foldlM (feed settings) {} = .ok s → s.Dispatches settings line u →
      (Head.read (trimLeft line)).isSpaced = true → u.gap = true →
      ∀ top ∈ u.builder.rows.head?, P top)
    (ht : lines.foldlM (feed settings) {} = .ok t) : t.HasRows P := by
  induction lines using List.reverseRecOn generalizing t with
  | nil =>
    cases ht
    exact Builder.HasRows.start
  | append_singleton lines line ih =>
    obtain ⟨s, hs, fed⟩ := foldlM_concat ht
    have kept : s.HasRows P := by
      refine ih ?_ hs
      intro front other back r u split
      refine before front other (back ++ [line]) r u ?_
      simp [split]
    exact hasRows_feed kept (steady_foldlM hs) (fun u => before lines line [] s u rfl hs) fed

theorem hasRows_finish (h : s.HasRows P) {b : Builder} (hb : s.finish = .ok b) : b.tree.HasRows P := by
  obtain ⟨free, rfl⟩ | ⟨block, under, rfl⟩ := finish_cases hb
  · rw [HasRows, Phase.owesWord_of_free free] at h
    exact h.tree
  · exact (hasRows_settle h under).tree

end State

end TemplateMarkup
