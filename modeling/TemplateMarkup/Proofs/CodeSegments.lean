import TemplateMarkup.Proofs.Tag.Ended

/-! Code that goes on over several lines. It is cut into segments, one a line, and the first of them
that does not end in a backslash is the last one. Nothing else about a line matters until then:
neither where it stands nor what it starts with. -/
namespace TemplateMarkup

def EndsInBackslash (segment : List Char) : Prop := ['\\'] <:+ segment

instance (segment : List Char) : Decidable (EndsInBackslash segment) :=
  inferInstanceAs (Decidable (_ <:+ _))

/-- The segments of some code: what is left of its first line, and the lines below. -/
def codeSegments (rest : List Char) (below : List Line) : List (List Char) :=
  trim rest :: below.map trim

theorem continues_iff {segment : List Char} :
    continues segment = true ↔ EndsInBackslash segment := by
  simp [continues, EndsInBackslash, List.getLast?_eq_some_iff, List.IsSuffix, eq_comm]

theorem trim_of_isBlank {line : Line} (blank : isBlank line = true) : trim line = [] := by
  rw [trim, trimLeft_eq_nil_iff.2 blank, trimRight_nil]

theorem codeSegments_concat (rest : List Char) (below : List Line) (line : Line) :
    codeSegments rest (below ++ [line]) = codeSegments rest below ++ [trim line] := by
  simp [codeSegments]

theorem codeSegments_take (rest : List Char) (below : List Line) (k : Nat) :
    codeSegments rest (below.take k) = (codeSegments rest below).take (k + 1) := by
  simp [codeSegments, List.map_take]

namespace State

/-- A line states code, and the owner that waits for it: a statement, an output, or a tag that holds
an output. The last state is the one that takes `rest`, which follows the marks of an output. -/
inductive StartsCode (settings : Settings) (s : State) (line : Line) :
    CodeOwner → List Char → State → Prop
  | control {u : State} {rest : List Char} (here : s.Dispatches settings line u)
      (text : trimLeft line = '-' :: rest) : StartsCode settings s line .control rest u
  | output {u : State} {cs : List Char} (here : s.Dispatches settings line u)
      (text : trimLeft line = '=' :: cs) :
      StartsCode settings s line (.output (OutputMark.read cs).1) (OutputMark.read cs).2 u
  | tag {u : State} {tag : TagHead} {angle : Bool} {behind cs : List Char}
      (ended : s.EndsTag settings line tag angle behind u) (text : trimLeft behind = '=' :: cs) :
      StartsCode settings s line (.tag tag.name tag.attrs (OutputMark.read cs).1)
        (OutputMark.read cs).2 u

/-- Code is under way: its segments so far wait for `count` lines to be followed by one more. -/
def underCode (s : State) (count : Nat) (owner : CodeOwner) (segments : List (List Char))
    (last : Line) : State :=
  { s with number := s.number + count, phase := .code owner segments.reverse last }

/-- Code is complete `count` lines further down, and its block is open. -/
def openCode (s : State) (count : Nat) (owner : CodeOwner) (segments : List (List Char)) : State :=
  let s := { s with number := s.number + count, gap := owner.leavesGap, phase := .ready }
  (s.begin (owner.withCode (String.ofList (List.intercalate ['\n'] segments)))).breakLine

variable {settings : Settings} {s u : State} {line last : Line} {owner : CodeOwner}
  {rest : List Char} {segments : List (List Char)}

theorem StartsCode.feed_eq (h : s.StartsCode settings line owner rest u) :
    s.feed settings line = .ok (u.takeCode owner [] line rest) := by
  cases h with
  | control here text => rw [here.feed_eq, text, Head.read, takeHead]
  | output here text => rw [here.feed_eq, text, Head.read, takeHead]
  | tag ended text => simp only [ended.feed_eq, takeBehind, Tail.read, text, takeTail]

theorem StartsCode.number (h : s.StartsCode settings line owner rest u) :
    u.number = s.number + 1 := by
  cases h with
  | control here text => exact here.number
  | output here text => exact here.number
  | tag ended text => exact ended.number

/-! One line of code. -/

theorem takeCode_onward {cs : List Char} (onward : EndsInBackslash (trim cs)) (s : State)
    (owner : CodeOwner) (segments : List (List Char)) (line : Line) :
    s.takeCode owner segments.reverse line cs = s.underCode 0 owner (segments ++ [trim cs]) line := by
  simp [takeCode, underCode, continues_iff.2 onward]

theorem takeCode_last {cs : List Char} (ended : ¬ EndsInBackslash (trim cs)) (s : State)
    (owner : CodeOwner) (segments : List (List Char)) (line : Line) :
    s.takeCode owner segments.reverse line cs = s.openCode 0 owner (segments ++ [trim cs]) := by
  have stop : continues (trim cs) = false := by rwa [← Bool.not_eq_true, continues_iff]
  simp [takeCode, openCode, joinCode, stop]

/-- The lines below are taken for code whatever they are. -/
theorem feed_underCode (s : State) (count : Nat) (owner : CodeOwner)
    (segments : List (List Char)) (last line : Line) :
    (s.underCode count owner segments last).feed settings line =
      .ok (if EndsInBackslash (trim line) then s.underCode (count + 1) owner (segments ++ [trim line]) line
        else s.openCode (count + 1) owner (segments ++ [trim line])) := by
  set t : State := { s.underCode count owner segments last with number := s.number + count + 1 }
  change Except.ok (t.takeCode owner segments.reverse line line) = _
  split
  · next onward => rw [takeCode_onward onward]; rfl
  · next ended => rw [takeCode_last ended]; rfl

/-! A run of lines of code. -/

/-- As long as every segment ends in a backslash, code is under way and nothing is done to the
tree. -/
theorem foldlM_underCode (starts : s.StartsCode settings line owner rest u) {below : List Line}
    (onward : ∀ segment ∈ codeSegments rest below, EndsInBackslash segment) :
    (line :: below).foldlM (feed settings) s =
      .ok (u.underCode below.length owner (codeSegments rest below) (below.getLastD line)) := by
  induction below using List.reverseRecOn with
  | nil =>
    have first := onward (trim rest) List.mem_cons_self
    rw [List.foldlM_cons, starts.feed_eq, ← List.reverse_nil, takeCode_onward first]
    rfl
  | append_singleton below next ih =>
    rw [codeSegments_concat] at onward ⊢
    obtain ⟨before, here⟩ := List.forall_mem_append.1 onward
    rw [← List.cons_append, List.foldlM_append, ih before]
    change (u.underCode _ _ _ _).feed settings next >>= pure = _
    rw [bind_pure, feed_underCode, if_pos (here _ List.mem_cons_self)]
    simp

/-- The first segment that does not is the last one, and opens the block. -/
theorem foldlM_openCode (starts : s.StartsCode settings line owner rest u) {below : List Line}
    {front : List (List Char)} {segment : List Char}
    (split : codeSegments rest below = front ++ [segment])
    (onward : ∀ earlier ∈ front, EndsInBackslash earlier) (ended : ¬ EndsInBackslash segment) :
    (line :: below).foldlM (feed settings) s =
      .ok (u.openCode below.length owner (codeSegments rest below)) := by
  induction below using List.reverseRecOn with
  | nil =>
    obtain ⟨rfl, same⟩ : front = [] ∧ [trim rest] = [segment] := by
      have lengths := congrArg List.length split
      simp [codeSegments] at lengths
      subst lengths
      exact ⟨rfl, split⟩
    obtain rfl := List.singleton_inj.1 same
    rw [List.foldlM_cons, starts.feed_eq, ← List.reverse_nil, takeCode_last ended]
    rfl
  | append_singleton below next ih =>
    rw [codeSegments_concat] at split ⊢
    obtain ⟨rfl, same⟩ := List.append_inj' split rfl
    obtain rfl := List.singleton_inj.1 same
    rw [← List.cons_append, List.foldlM_append, foldlM_underCode starts onward]
    change (u.underCode _ _ _ _).feed settings next >>= pure = _
    rw [bind_pure, feed_underCode, if_neg ended]
    simp

theorem finish_underCode (s : State) (count : Nat) (owner : CodeOwner)
    (segments : List (List Char)) (last : Line) :
    (s.underCode count owner segments last).finish =
      .error ⟨⟨.unexpectedEnd, s.number + count, last, last.length⟩, s.builder.log⟩ := rfl

/-- A blank line is an empty segment, so it is the last one. -/
theorem foldlM_openCode_blank (starts : s.StartsCode settings line owner rest u)
    {below : List Line} {blank : Line} (empty : isBlank blank = true)
    (onward : ∀ earlier ∈ codeSegments rest below, EndsInBackslash earlier) :
    (line :: (below ++ [blank])).foldlM (feed settings) s =
      .ok (u.openCode (below.length + 1) owner (codeSegments rest below ++ [[]])) := by
  have split := codeSegments_concat rest below blank
  rw [trim_of_isBlank empty] at split
  rw [foldlM_openCode starts split onward (by decide), split, List.length_append,
    List.length_singleton]

end State

open State

variable {settings : Settings} {s u : State} {line : Line} {owner : CodeOwner} {rest : List Char}

/-- Code is told by its segments alone, in whatever state its first line is met. The first segment
that does not end in a backslash is the last one: no line down to it is taken for anything else, the
block opens with the segments joined by line breaks, and the next line is dispatched. If every
segment down to the end of a template ends in a backslash, the template is refused behind the end of
its last line. A blank line is always the last one. -/
theorem code_extracted (starts : s.StartsCode settings line owner rest u) (below : List Line) :
    (∀ k segment, (codeSegments rest below)[k]? = some segment → ¬ EndsInBackslash segment →
      (∀ earlier ∈ (codeSegments rest below).take k, EndsInBackslash earlier) →
        (line :: below.take k).foldlM (feed settings) s =
          .ok (u.openCode k owner ((codeSegments rest below).take (k + 1))) ∧
        (∀ j < k, ∃ last, (line :: below.take j).foldlM (feed settings) s =
          .ok (u.underCode j owner ((codeSegments rest below).take (j + 1)) last)) ∧
        ∀ next, (u.openCode k owner ((codeSegments rest below).take (k + 1))).feed settings next =
          dispatch settings { u.openCode k owner ((codeSegments rest below).take (k + 1)) with
            number := s.number + k + 2 } next) ∧
    ((∀ segment ∈ codeSegments rest below, EndsInBackslash segment) →
      ∀ source before, linesOf source.toList = before ++ line :: below →
        before.foldlM (feed settings) {} = .ok s → ∀ last ∈ (line :: below).getLast?,
          parse settings source = .error ⟨⟨.unexpectedEnd, (linesOf source.toList).length, last,
            last.length⟩, settings.shownFile⟩) ∧
    ∀ k blank, below[k]? = some blank → isBlank blank = true →
      (∀ earlier ∈ (codeSegments rest below).take (k + 1), EndsInBackslash earlier) →
        (line :: below.take (k + 1)).foldlM (feed settings) s =
          .ok (u.openCode (k + 1) owner ((codeSegments rest below).take (k + 1) ++ [[]])) := by
  refine ⟨?_, ?_, ?_⟩
  · intro k segment found ended onward
    have within : k ≤ below.length := by
      have bound := (List.getElem?_eq_some_iff.1 found).1
      simp only [codeSegments, List.length_cons, List.length_map] at bound
      omega
    have split : codeSegments rest (below.take k) =
        (codeSegments rest below).take k ++ [segment] := by
      rw [codeSegments_take, List.take_add_one, found, Option.toList_some]
    refine ⟨?_, ?_, ?_⟩
    · rw [foldlM_openCode starts split onward ended, codeSegments_take, List.length_take,
        Nat.min_eq_left within]
    · intro j before
      have earlier : ∀ segment ∈ codeSegments rest (below.take j), EndsInBackslash segment := by
        intro segment mem
        have inside : j + 1 ≤ k := before
        rw [codeSegments_take, ← Nat.min_eq_left inside, ← List.take_take] at mem
        exact onward segment (List.mem_of_mem_take mem)
      refine ⟨(below.take j).getLastD line, ?_⟩
      rw [foldlM_underCode starts earlier, codeSegments_take, List.length_take,
        Nat.min_eq_left (by omega)]
    · intro next
      have number : u.number + k + 1 = s.number + k + 2 := by
        rw [starts.number]
        omega
      rw [← number]
      rfl
  · intro onward source before lines run last mem
    have count : s.number = before.length := by
      simpa using number_foldlM steady_start run
    have same : below.getLastD line = last := by
      rw [List.getLast?_cons, Option.mem_some] at mem
      rw [List.getLastD_eq_getLast?, mem]
    have failed : readLines settings (linesOf source.toList) =
        .error ⟨⟨.unexpectedEnd, u.number + below.length, last, last.length⟩, u.builder.log⟩ := by
      rw [lines, readLines_append run, foldlM_underCode starts onward, same]
      exact finish_underCode u _ owner _ last
    have total : u.number + below.length = (linesOf source.toList).length := by
      rw [lines, starts.number, count, List.length_append, List.length_cons]
      omega
    rw [parse_of_error failed, total]
  · intro k blank found empty onward
    have split : below.take (k + 1) = below.take k ++ [blank] := by
      rw [List.take_add_one, found, Option.toList_some]
    have within : k < below.length := (List.getElem?_eq_some_iff.1 found).1
    rw [← codeSegments_take] at onward ⊢
    rw [split, foldlM_openCode_blank starts empty onward, List.length_take,
      Nat.min_eq_left within.le]

/-- Behind an attribute list that goes over two lines, with a line below that looks like a statement
and a blank one; and without the blank one, at the end of the template. -/
theorem code_extracted_tag :
    let s : State := ⟨1, (({} : Builder).record (.dispatched 1 0 "<p(a".toList)).place .newline, false,
      .attributes ⟨"p", [.flag "a"], 1, "<p(a".toList⟩ ')'⟩
    ["  b)>== x \\".toList, "\t- y\\".toList, []].foldlM (feed {}) s =
      .ok ({ s with number := 2 }.openCode 2 (.tag "p" [.flag "a", .flag "b"] ⟨false, true⟩)
        ["x \\".toList, "- y\\".toList, []]) ∧
    parse {} "<p(a\n  b)>== x \\\n\t- y\\" =
      .error ⟨⟨.unexpectedEnd, 3, "\t- y\\".toList, 5⟩, "(__TEMPLATE__)"⟩ := by
  intro s
  have list : EndsList (some ')') "  b)>== x \\".toList [.flag "b"] true "== x \\".toList :=
    ⟨")>== x \\".toList, by with_unfolding_all rfl, rfl⟩
  have under : s.phase = .attributes ⟨"p", [.flag "a"], 1, "<p(a".toList⟩ ')' := rfl
  have text : trimLeft "== x \\".toList = '=' :: "= x \\".toList := by decide
  have starts : s.StartsCode {} "  b)>== x \\".toList
      (.tag "p" [.flag "a", .flag "b"] ⟨false, true⟩) " x \\".toList { s with number := 2 } :=
    .tag (.below under list) text
  have run : ["<p(a".toList].foldlM (feed {}) {} = .ok s := by with_unfolding_all rfl
  constructor
  · exact ((code_extracted starts ["\t- y\\".toList, [], "z".toList]).1 2 [] (by decide) (by decide)
      (by decide)).1
  · exact (code_extracted starts ["\t- y\\".toList]).2.1 (by decide) _ ["<p(a".toList] (by decide)
      run _ rfl

end TemplateMarkup
