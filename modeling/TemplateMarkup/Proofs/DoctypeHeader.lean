import TemplateMarkup.Proofs.Line.Readers
import TemplateMarkup.Proofs.Locality
import TemplateMarkup.Proofs.Reading.Simulation
import TemplateMarkup.Proofs.Text.Remarks

/-! The doctype header that a template may start with. Blank lines may stand in front of it, and
nothing but a remark behind its angle bracket. Without one, all of the line is its value. -/
namespace TemplateMarkup
open Builder

variable {settings : Settings} {source : String} {line : Line} {value : List Char}
  {behind : Option (List Char)} {blanks after : List Line}

namespace State

theorem foldlM_blanks (settings : Settings) (blank : ∀ above ∈ blanks, isBlank above = true)
    (n : Nat) (log : List Event) :
    ∃ later, blanks.foldlM (feed settings)
        { number := n, builder := { root := List.replicate n .newline, log := log } } =
      .ok { number := n + blanks.length,
            builder := { root := List.replicate (n + blanks.length) .newline, log := later } } := by
  induction blanks generalizing n log with
  | nil => exact ⟨log, rfl⟩
  | cons above blanks ih =>
    obtain ⟨here, below⟩ := List.forall_mem_cons.1 blank
    obtain ⟨later, run⟩ := ih below (n + 1) (.placed .newline :: log)
    refine ⟨later, ?_⟩
    rw [List.length_cons, Nat.add_comm blanks.length 1, ← Nat.add_assoc, ← run, List.foldlM_cons,
      feed_of_start above rfl, takeFirst, if_pos here]
    rfl

/-- A reading that goes on from nothing fails on one of its own lines. -/
theorem one_le_fault {lines : List Line} {halt : Halt}
    (failed : lines.foldlM (feed settings) { phase := .ready } >>= finish = .error halt) :
    1 ≤ halt.fault.number := by
  cases run : lines.foldlM (feed settings) { phase := .ready } with
  | error refused =>
    rw [run] at failed
    cases failed
    obtain ⟨before, line, after, t, -, -, refused⟩ := refused_line run
    rw [(lineFault_feed refused).number]
    exact Nat.succ_pos _
  | ok t =>
    rw [run] at failed
    have start : Progress lines (lines ++ []) { phase := .ready } :=
      ⟨(List.append_nil lines).symm, trivial⟩
    have progress := run_induction progress_step (steady_of_complete rfl) start run
    exact (fault_finish progress.recalls failed).2.isLine.1

end State

open State

theorem IsHeader.filled (header : IsHeader line value behind) : isBlank line = false := by
  obtain ⟨cs, rfl, -⟩ := header
  rfl

/-- A template that starts with a doctype header goes on behind it as from nothing. -/
theorem readLines_header (blank : ∀ above ∈ blanks, isBlank above = true)
    (header : IsHeader line value behind) (clean : IsTrailingRemark (behind.getD [])) :
    Agree (Over (.newline :: .doctype (String.ofList (trim value)) ::
        List.replicate blanks.length .newline)) (blanks.length + 1)
      (after.foldlM (feed settings) { phase := .ready } >>= finish)
      (readLines settings (blanks ++ line :: after)) := by
  obtain ⟨log, run⟩ := foldlM_blanks settings blank 0 []
  rw [Nat.zero_add] at run
  set base : List Node := .newline :: .doctype (String.ofList (trim value)) ::
    List.replicate blanks.length .newline
  set later : List Event := .placed .newline ::
    .placed (.doctype (String.ofList (trim value))) :: log
  have taken : State.feed settings
      ⟨blanks.length, { root := List.replicate blanks.length .newline, log := log }, false, .start⟩
      line = .ok ⟨blanks.length + 1, { root := base, log := later }, false, .ready⟩ := by
    rw [feed_of_start line rfl, takeFirst, header.filled, header.read]
    simp only [Bool.false_eq_true, if_false, isRemarkOnly_iff.2 clean, if_true]
    rfl
  have alike : Alike (Over base) (blanks.length + 1) { phase := .ready }
      ⟨blanks.length + 1, { root := base, log := later }, false, .ready⟩ :=
    ⟨(Nat.zero_add _).symm, ⟨rfl, rfl, rfl⟩, rfl, fun _ => rfl⟩
  rw [readLines_append run, List.foldlM_cons, taken]
  exact agree_rest (over_congruence base) alike settings after

theorem readLines_header_refused (blank : ∀ above ∈ blanks, isBlank above = true)
    {text : List Char} (header : IsHeader line value (some text))
    (content : ¬ IsTrailingRemark text) : ∃ log,
      readLines settings (blanks ++ line :: after) = .error ⟨⟨.contentAfterDoctype,
        blanks.length + 1, line, line.length - (trimLeft text).length⟩, log⟩ := by
  obtain ⟨log, run⟩ := foldlM_blanks settings blank 0 []
  rw [Nat.zero_add] at run
  refine ⟨log, readLines_refused run ?_ after⟩
  rw [← isRemarkOnly_iff, Bool.not_eq_true] at content
  rw [feed_of_start line rfl, takeFirst, header.filled, header.read]
  simp only [Bool.false_eq_true, if_false, Option.getD_some, content]
  rfl

/-- The doctype header that a template starts with. If nothing but white space and a remark stands
behind its angle bracket, it is accepted: the tree starts with the blank lines above it, the doctype
with its value trimmed, and its line end, and every fault is on a line below. Anything else behind
the bracket is refused where it starts. The value of a header that has no bracket is all of its
line, what looks like a remark with it. -/
theorem doctype_header (split : linesOf source.toList = blanks ++ line :: after)
    (blank : ∀ above ∈ blanks, isBlank above = true) (header : IsHeader line value behind) :
    (IsTrailingRemark (behind.getD []) →
      (∀ d, parse settings source = .error d → blanks.length + 1 < d.number) ∧
      ∀ tree, parse settings source = .ok tree → ∃ more, tree = .multi
        (List.replicate blanks.length .newline ++
          .doctype (String.ofList (trim value)) :: .newline :: more)) ∧
    ∀ text, behind = some text → ¬ IsTrailingRemark text →
      parse settings source = .error ⟨⟨.contentAfterDoctype, blanks.length + 1, line,
        line.length - (trimLeft text).length⟩, settings.shownFile⟩ := by
  constructor
  · intro clean
    have agree : Agree _ _ _ (readLines settings (blanks ++ line :: after)) :=
      readLines_header blank header clean
    rw [← split] at agree
    generalize below : after.foldlM (feed settings) { phase := .ready } >>= finish = x at agree
    generalize whole : readLines settings (linesOf source.toList) = y at agree
    cases agree with
    | @ok b c above =>
      rw [parse_of_ok whole]
      constructor
      · rintro d ⟨⟩
      · rintro tree ⟨⟩
        refine ⟨b.root.reverse, ?_⟩
        rw [tree, above.root]
        simp
    | error fault =>
      rw [parse_of_error whole]
      constructor
      · rintro d ⟨⟩
        have first := one_le_fault below
        rw [fault]
        change blanks.length + 1 < _ + (blanks.length + 1)
        omega
      · rintro tree ⟨⟩
  · rintro text rfl content
    have refused : ∃ log, readLines settings (blanks ++ line :: after) = .error ⟨_, log⟩ :=
      readLines_header_refused blank header content
    obtain ⟨log, failed⟩ := refused
    rw [← split] at failed
    exact parse_of_error failed

/-- Behind a blank line, with a remark that has an angle bracket in it; and with text behind the
bracket. -/
theorem doctype_header_both :
    (∃ more, parse {} "\n<DocType  html > # a>b\n- c" =
      .ok (.multi (.newline :: .doctype "html" :: .newline :: more))) ∧
    parse {} "<doctype html>  x" =
      .error ⟨⟨.contentAfterDoctype, 1, "<doctype html>  x".toList, 16⟩, "(__TEMPLATE__)"⟩ := by
  constructor
  · have lines : linesOf "\n<DocType  html > # a>b\n- c".toList =
        [[]] ++ "<DocType  html > # a>b".toList :: ["- c".toList] := by decide
    have header : IsHeader "<DocType  html > # a>b".toList " html ".toList (some " # a>b".toList) :=
      ⟨_, rfl, ⟨"DocType".toList, ' ', rfl, rfl, rfl⟩, by decide⟩
    have remark : IsTrailingRemark " # a>b".toList :=
      ⟨" ".toList, "# a>b".toList, rfl, rfl, by rintro c ⟨⟩; rfl⟩
    have tree : parse {} "\n<DocType  html > # a>b\n- c" = .ok (.multi [.newline, .doctype "html",
      .newline, .control "c" (.multi [.newline])]) := rfl
    obtain ⟨more, same⟩ := ((doctype_header lines (by decide) header).1 remark).2 _ tree
    exact ⟨more, tree.trans (congrArg _ same)⟩
  · have header : IsHeader "<doctype html>  x".toList "html".toList (some "  x".toList) :=
      ⟨_, rfl, ⟨"doctype".toList, ' ', rfl, rfl, rfl⟩, by decide⟩
    have content : ¬ IsTrailingRemark "  x".toList := by
      rw [← isRemarkOnly_iff]
      decide
    have lines : linesOf "<doctype html>  x".toList = [] ++ "<doctype html>  x".toList :: [] := rfl
    exact (doctype_header lines (by decide) header).2 _ rfl content

/-- Without an angle bracket a remark becomes a part of the value, and one that has an angle bracket
in it is even refused. -/
theorem doctype_remark_taken_for_value :
    parse {} "<doctype html # c" = .ok (.multi [.doctype "html # c", .newline]) ∧
    (¬ ∃ more, parse {} "<doctype html # c" = .ok (.multi (.doctype "html" :: .newline :: more))) ∧
    parse {} "<doctype html # a>b" =
      .error ⟨⟨.contentAfterDoctype, 1, "<doctype html # a>b".toList, 18⟩, "(__TEMPLATE__)"⟩ := by
  have tree : parse {} "<doctype html # c" = .ok (.multi [.doctype "html # c", .newline]) := rfl
  refine ⟨tree, ?_, rfl⟩
  rintro ⟨more, other⟩
  rw [tree] at other
  simp at other

end TemplateMarkup
