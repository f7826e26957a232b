import Mathlib.Data.List.Forall2
import TemplateMarkup.Proofs.Reading.Scaled

/-! Only the order of indentation widths matters for structure. Lines that are indented with spaces
can be indented with more or fewer, as long as the order of their widths stays, if no text goes on
over several lines. -/
namespace TemplateMarkup
open Builder

/-- The line with `f w` spaces in front in place of `w`. -/
def respace (f : Nat → Nat) (line : Line) : Line :=
  List.replicate (f (line.takeWhile (· = ' ')).length) ' ' ++ line.dropWhile (· = ' ')

/-- No tab stands in the line's indentation. -/
def IsSpaced (line : Line) : Prop := Stops isIndent (line.dropWhile (· = ' '))

instance (line : Line) : Decidable (IsSpaced line) := inferInstanceAs (Decidable (Stops _ _))

/-- Whatever lines of a template a text takes, they are blank by some measure. -/
def TextsTakeOnly (settings : Settings) (blank : TextBlock → Line → Bool) (source : String) : Prop :=
  ∀ before line after s, linesOf source.toList = before ++ line :: after →
    before.foldlM (State.feed settings) {} = .ok s → s.GivesOnly settings blank line

variable {f : Nat → Nat} {line : Line}

theorem takeWhile_space (line : Line) :
    line.takeWhile (· = ' ') = List.replicate (line.takeWhile (· = ' ')).length ' ' := by
  refine List.eq_replicate_iff.2 ⟨rfl, ?_⟩
  intro c mem
  simpa using List.mem_takeWhile_imp mem

theorem IsSpaced.indentWidth (h : IsSpaced line) (tab : Nat) :
    indentWidth tab line = (line.takeWhile (· = ' ')).length := by
  conv => lhs; rw [← List.takeWhile_append_dropWhile (p := (· = ' ')) (l := line), takeWhile_space]
  exact indentWidth_replicate _ _ _ (h.indentWidth_eq_zero tab)

theorem doctypeHeader?_spaces {n : Nat} (indented : 0 < n) (cs : List Char) :
    doctypeHeader? (List.replicate n ' ' ++ cs) = none := by
  obtain ⟨n, rfl⟩ := Nat.exists_eq_add_of_lt indented
  rfl

theorem respaced_respace (mono : StrictMono f) (zero : f 0 = 0) (tab : Nat) (h : IsSpaced line) :
    Respaced f tab line (respace f line) := by
  have front : line = List.replicate (line.takeWhile (· = ' ')).length ' ' ++
      line.dropWhile (· = ' ') := by
    rw [← takeWhile_space, List.takeWhile_append_dropWhile]
  refine ⟨?_, ?_, ?_⟩
  · rw [h.indentWidth, respace]
    exact indentWidth_replicate _ _ _ (h.indentWidth_eq_zero tab)
  · rw [respace, trimLeft_spaces]
    conv => rhs; rw [front, trimLeft_spaces]
  · cases width : (line.takeWhile (· = ' ')).length with
    | zero =>
      rw [width] at front
      rw [respace, width, zero]
      exact congrArg doctypeHeader? front.symm
    | succ n =>
      have indented : 0 < f (n + 1) := by simpa [zero] using mono n.succ_pos
      rw [width] at front
      rw [respace, width, doctypeHeader?_spaces indented, front, doctypeHeader?_spaces n.succ_pos]

/-- Only the order of indentation widths matters. If the lines of a template are indented with
spaces only and its texts take blank lines only, it can be indented by other widths of the same
order: it has the same tree, or the cause and the line of its fault are the same. -/
theorem parse_respaced {settings : Settings} {source other : String} (mono : StrictMono f)
    (zero : f 0 = 0) (spaced : ∀ line ∈ linesOf source.toList, IsSpaced line)
    (blank : TextsTakeOnly settings TextBlock.isBlankLine source)
    (respaced : linesOf other.toList = (linesOf source.toList).map (respace f)) :
    (∀ tree, parse settings other = .ok tree ↔ parse settings source = .ok tree) ∧
    ∀ cause number,
      (∃ d, parse settings other = .error d ∧ d.cause = cause ∧ d.number = number) ↔
        ∃ d, parse settings source = .error d ∧ d.cause = cause ∧ d.number = number := by
  have lines : List.Forall₂ (Respaced f settings.tabSize) (linesOf source.toList)
      (linesOf other.toList) := by
    rw [respaced, List.forall₂_map_right_iff, List.forall₂_same]
    exact fun line mem => respaced_respace mono zero settings.tabSize (spaced line mem)
  have start : State.Scaled f {} {} := ⟨rfl, rfl, rfl, .free .start rfl⟩
  have same : SameCause (fun b c => c = b.scale f) (readLines settings (linesOf source.toList))
      (readLines settings (linesOf other.toList)) :=
    (State.sameCause_foldlM mono zero start lines blank).bind fun _ _ _ h =>
      State.sameCause_finish h
  generalize hx : readLines settings (linesOf source.toList) = x at same
  generalize hy : readLines settings (linesOf other.toList) = y at same
  cases same with
  | @ok b c scaled =>
    have tree : c.tree = b.tree := by rw [scaled]; rfl
    rw [parse_of_ok hx, parse_of_ok hy, tree]
    simp
  | error cause number =>
    rw [parse_of_error hx, parse_of_error hy]
    simp [cause, number]

/-- A marker on a line of its own is no text, so its column does not matter. -/
theorem parse_respaced_marker : ∃ tree, parse {} "- if x\n  >\n  = y" = .ok tree ∧
    parse {} "- if x\n          >\n          = y" = .ok tree := by
  have blank : TextsTakeOnly {} TextBlock.isBlankLine "- if x\n  >\n  = y" := by
    intro before line after s split run block under takes
    have lines : linesOf "- if x\n  >\n  = y".toList =
        ["- if x".toList, "  >".toList, "  = y".toList] := by decide
    rw [lines] at split
    rcases before with _ | ⟨_, _ | ⟨_, _ | ⟨_, before⟩⟩⟩
    · cases run
      cases under
    · cases split
      cases run
      cases under
    · cases split
      cases run
      cases under
      cases takes
    · simp at split
  have tree : parse {} "- if x\n  >\n  = y" = .ok (.multi [.control "if x" (.multi
      [.newline, .newline, .output true "y" (.multi [.newline])])]) := by
    rfl
  have mono : StrictMono (5 * ·) := fun _ _ less => Nat.mul_lt_mul_of_pos_left less (by decide)
  exact ⟨_, tree, ((parse_respaced mono rfl (by decide) blank (by decide)).1 _).2 tree⟩

/-- In an embedded block a marker is text like any other, and more spaces in front of it are more
text. So it is not enough that texts take blank lines and markers. -/
theorem not_parse_respaced_verbatim :
    ¬ ∀ (f : Nat → Nat) (settings : Settings) (source other : String), StrictMono f → f 0 = 0 →
      (∀ line ∈ linesOf source.toList, IsSpaced line) →
      TextsTakeOnly settings (fun _ => isBlankText) source →
      linesOf other.toList = (linesOf source.toList).map (respace f) →
      (∀ tree, parse settings other = .ok tree ↔ parse settings source = .ok tree) ∧
      ∀ cause number,
        (∃ d, parse settings other = .error d ∧ d.cause = cause ∧ d.number = number) ↔
          ∃ d, parse settings source = .error d ∧ d.cause = cause ∧ d.number = number := by
  intro claim
  have lines : linesOf "<sass:\n >\n  >".toList = ["<sass:".toList, " >".toList, "  >".toList] := by
    decide
  have marks : TextsTakeOnly {} (fun _ => isBlankText) "<sass:\n >\n  >" := by
    intro before line after s split run block under _
    rw [lines] at split
    cases before with
    | nil =>
      cases run
      cases under
    | cons first before =>
      have behind : line ∈ [" >".toList, "  >".toList] := by
        rw [(List.cons.inj split).2]
        simp
      have all : ∀ line ∈ [" >".toList, "  >".toList], isBlankText line = true := by decide
      exact all line behind
  have tree : parse {} "<sass:\n >\n  >" = .ok (.multi [.newline, .embedded "sass" (.multi
      [.interpolate ">\n >", .newline, .newline])]) := by
    rfl
  have wider : parse {} "<sass:\n  >\n    >" = .ok (.multi [.newline, .embedded "sass" (.multi
      [.interpolate ">\n  >", .newline, .newline])]) := by
    rfl
  have mono : StrictMono (2 * ·) := fun _ _ less => Nat.mul_lt_mul_of_pos_left less (by decide)
  have same := ((claim (2 * ·) {} "<sass:\n >\n  >" "<sass:\n  >\n    >" mono rfl (by decide) marks
    (by decide)).1 _).2 tree
  rw [wider] at same
  simp at same

end TemplateMarkup
