import TemplateMarkup.Proofs.InlineRemarks
import TemplateMarkup.Proofs.Line.Grammar
import TemplateMarkup.Proofs.Locality

/-! What a line is taken for. A line that is dispatched becomes what its characters spell, and one
that spells nothing is refused; no other line is refused for that cause. -/
namespace TemplateMarkup
open Builder

/-! The construct that a reading has in hand. -/

def Owner.construct : Owner → Construct
  | control _ => .control
  | output escape _ => .output (!escape)
  | tag name _ | outputTag name .. => .tag name
  | comment => .comment
  | conditional condition => .conditional condition
  | embedded engine => .embedded engine

def CodeOwner.construct : CodeOwner → Construct
  | control => .control
  | output mark => .output (!mark.escape)
  | tag name .. => .tag name

@[simp] theorem CodeOwner.construct_withCode (code : String) (owner : CodeOwner) :
    (owner.withCode code).construct = owner.construct := by
  cases owner <;> rfl

/-- What an event tells of the line that it belongs to, if anything. -/
def Event.construct? : Event → Option Construct
  | opened owner _ => some owner.construct
  | placed (.voidTag name _) => some (.tag name)
  | placed (.doctype value) => some (.doctype value)
  | _ => none

namespace Builder

/-- What the line that was dispatched last has put into the tree, if that is a block or a node of
its own. -/
def construct? (b : Builder) : Option Construct :=
  (b.log.takeWhile (·.dispatched?.isNone)).findSome? Event.construct?

@[simp] theorem construct?_begin (b : Builder) (owner : Owner) :
    (b.begin owner).construct? = some owner.construct := rfl

theorem construct?_place (b : Builder) (node : Node) :
    (b.place node).construct? = (Event.construct? (.placed node)).or b.construct? := by
  unfold construct?
  rw [log_place, List.takeWhile_cons_of_pos rfl, List.findSome?_cons]
  cases Event.construct? (.placed node) <;> rfl

@[simp] theorem construct?_newline (b : Builder) : (b.place .newline).construct? = b.construct? :=
  construct?_place b .newline

theorem construct?_dispatched {b : Builder} {number width : Nat} {text : List Char}
    {log : List Event} (h : b.log = .dispatched number width text :: log) :
    b.construct? = none := by
  rw [construct?, h]
  rfl

end Builder

namespace State

/-- What the line that was dispatched last has become: code or an attribute list that goes on, a
remark, what it has put into the tree, or a text that is under way and belongs to nothing else. -/
def construct? (s : State) : Option Construct :=
  match s.phase with
  | .code owner _ _ => some owner.construct
  | .attributes tag _ => some (.tag tag.name)
  | .remark => some .remark
  | .text _ => s.builder.construct?.or (some .text)
  | .start | .ready => s.builder.construct?

variable {settings : Settings} {s t u : State} {line : Line} {halt : Halt}

theorem construct?_takeCode (s : State) (owner : CodeOwner) (segments : List (List Char))
    (line : Line) (cs : List Char) :
    (s.takeCode owner segments line cs).construct? = some owner.construct := by
  unfold takeCode
  simp only
  split
  · rfl
  · change ((s.builder.begin (owner.withCode _)).place .newline).construct? = _
    rw [construct?_newline, construct?_begin, CodeOwner.construct_withCode]

theorem construct?_takeTail (s : State) (tab : Nat) (tag : TagHead) (line : Line) (tail : Tail) :
    (s.takeTail tab tag line tail).construct? = some (.tag tag.name) := by
  cases tail with
  | output mark cs => exact construct?_takeCode _ _ _ _ _
  | void =>
    change ((s.builder.place (.voidTag tag.name tag.attrs)).place .newline).construct? = _
    rw [construct?_newline, construct?_place]
    rfl
  | block | text => rfl

theorem construct?_takeAttributes {tab : Nat} {tag : TagHead} {close : Option Char}
    {cs : List Char} (taken : s.takeAttributes tab tag close line cs = .ok t) :
    t.construct? = some (.tag tag.name) := by
  obtain ⟨attrs, rest, -, ⟨bracket, -, rfl⟩ | ⟨angle, behind, tail, -, -, rfl⟩⟩ :=
    takeAttributes_cases taken
  · rfl
  · exact construct?_takeTail _ _ _ _ _

/-- A line that is dispatched becomes what its head stands for. -/
theorem construct?_takeHead {head : Head} {number width : Nat} {text : List Char} {log : List Event}
    (told : s.builder.log = .dispatched number width text :: log)
    (taken : takeHead settings s line head = .ok t) :
    t.construct? = head.construct? settings.defaultTag := by
  cases head with
  | control cs =>
    cases taken
    exact construct?_takeCode _ _ _ _ _
  | output mark cs =>
    cases taken
    exact construct?_takeCode _ _ _ _ _
  | tag name cs =>
    rw [takeHead, takeTag_openList] at taken
    exact construct?_takeAttributes taken
  | doctype value =>
    cases taken
    change ((s.builder.place (.doctype _)).place .newline).construct? = _
    rw [construct?_newline, construct?_place]
    rfl
  | text glued cs =>
    cases taken
    have plain := construct?_dispatched told
    have apart : s.separate.builder.construct? = none := by
      unfold separate
      split
      · exact (construct?_place s.builder (.static " ")).trans plain
      · exact plain
    cases glued with
    | false => exact congrArg (·.or (some .text)) apart
    | true => exact congrArg (·.or (some .text)) plain
  | unknown rest => cases taken
  | embedded | comment | conditional | remark =>
    cases taken
    rfl

theorem Dispatches.construct? (here : s.Dispatches settings line u)
    (taken : s.feed settings line = .ok t) :
    t.construct? = (Head.read (trimLeft line)).construct? settings.defaultTag := by
  obtain ⟨old, -, told⟩ := here.log_eq
  rw [here.feed_eq] at taken
  exact construct?_takeHead told taken

/-- Every construct but a tag is taken whatever follows. -/
theorem exists_takeHead {head : Head} {c : Construct} (settings : Settings) (s : State)
    (line : Line) (known : head.construct? settings.defaultTag = some c)
    (other : ∀ name, c ≠ .tag name) : ∃ t, takeHead settings s line head = .ok t := by
  cases head with
  | tag name cs =>
    cases known
    exact absurd rfl (other _)
  | unknown rest => cases known
  | control | output | embedded | comment | conditional | remark | doctype | text =>
    exact ⟨_, rfl⟩

end State

/-! Lines that are refused because they spell nothing. The readers of a tag's attributes, the fitting
of a line to the open blocks, and texts refuse lines for other causes. -/

theorem readAttributes_cause {close : Option Char} {cs : List Char} {snag : Snag}
    (h : readAttributes close cs = .error snag) : snag.cause ≠ .unknownIndicator := by
  obtain ⟨text, refused⟩ := exists_refused_value h
  obtain ⟨quote, -, rfl⟩ | rfl := readValue_error refused
  · simp
  · simp

namespace State

variable {settings : Settings} {s u : State} {line : Line} {halt : Halt}

theorem takeAttributes_cause {tab : Nat} {tag : TagHead} {close : Option Char} {cs : List Char}
    (h : s.takeAttributes tab tag close line cs = .error halt) :
    halt.fault.cause ≠ .unknownIndicator := by
  unfold takeAttributes at h
  split at h
  · next snag read =>
    cases h
    exact readAttributes_cause read
  · simp only at h
    split at h
    · next snag ended =>
      cases h
      simp [Fault.before, readListEnd_error ended]
    · cases h
    · split at h
      · next snag tail =>
        cases h
        simp [Fault.before, Tail.read_error tail]
      · cases h

theorem unknown_of_takeHead {head : Head} (h : takeHead settings s line head = .error halt)
    (cause : halt.fault.cause = .unknownIndicator) : ∃ rest, head = .unknown rest := by
  cases head with
  | tag name cs =>
    rw [takeHead, takeTag_openList] at h
    exact absurd cause (takeAttributes_cause h)
  | unknown rest => exact ⟨rest, rfl⟩
  | control | output | embedded | comment | conditional | remark | doctype | text => cases h

/-- A line that belongs to what is before it is refused for some other cause, -/
theorem joined_cause (joined : s.beforeDispatch? settings line = none)
    (h : s.feed settings line = .error halt) : halt.fault.cause ≠ .unknownIndicator := by
  obtain ⟨number, builder, gap, phase⟩ := s
  cases phase with
  | start | ready => cases joined
  | code owner segments last => cases h
  | attributes tag close => exact takeAttributes_cause (s := ⟨number + 1, builder, gap, _⟩) h
  | text block =>
    simp only [beforeDispatch?, feed] at joined h
    split at joined
    · next inside =>
      rw [if_pos inside] at h
      split at h
      · cases h
      · next cause refused =>
        cases h
        simp [Fault.before, TextBlock.add_error refused]
    · cases joined
  | remark =>
    simp only [beforeDispatch?, feed] at joined h
    split at joined
    · next inside =>
      rw [if_pos inside] at h
      cases h
    · cases joined

/-- and so is a doctype header that a template opens with. -/
theorem opening_cause (start : s.phase = .start) (header : doctypeHeader? line ≠ none)
    (h : s.feed settings line = .error halt) : halt.fault.cause ≠ .unknownIndicator := by
  rw [feed_of_start line start, takeFirst] at h
  split at h
  · cases h
  · split at h
    · next none_ => exact absurd none_ header
    · split at h <;> cases h
      simp [Fault.before]

/-- The only lines that are refused because they spell nothing are dispatched. -/
theorem dispatches_of_unknown (h : s.feed settings line = .error halt)
    (cause : halt.fault.cause = .unknownIndicator) :
    ∃ u rest, s.Dispatches settings line u ∧ Head.read (trimLeft line) = .unknown rest := by
  cases before : s.beforeDispatch? settings line with
  | none => exact absurd cause (joined_cause before h)
  | some t =>
    have plain : s.phase = .start → doctypeHeader? line = none := by
      intro start
      by_contra header
      exact opening_cause start header h cause
    cases blank : isBlank line with
    | true =>
      by_cases start : s.phase = .start
      · simp [feed_of_start line start, takeFirst, blank] at h
      · rw [feed_of_beforeDispatch before start, dispatch_blank blank] at h
        cases h
    | false =>
      have taken := h
      rw [feed_of_filled before blank plain] at h
      cases fit : t.builder.align (indentWidth settings.tabSize line) with
      | error misfit =>
        rw [dispatch_misfit (s := { t with number := t.number + 1 }) blank fit] at h
        cases h
        obtain rfl | rfl := align_error fit
        · cases cause
        · cases cause
      | ok result =>
        have here : s.Dispatches settings line _ := .intro before blank plain fit
        rw [here.feed_eq] at taken
        obtain ⟨rest, unknown⟩ := unknown_of_takeHead taken cause
        exact ⟨_, rest, here, unknown⟩

/-- What is refused is the character behind the angle bracket. -/
theorem Dispatches.refused {rest : List Char} (here : s.Dispatches settings line u)
    (text : trimLeft line = '<' :: rest) (read : Head.read (trimLeft line) = .unknown rest) :
    s.feed settings line = .error ⟨⟨.unknownIndicator, s.number + 1, line,
      line.length - (trimLeft line).length + 1⟩, u.builder.log⟩ := by
  have within := trimLeft_length_le line
  have column : line.length - (trimLeft line).length + 1 = line.length - rest.length := by
    rw [text, List.length_cons] at within ⊢
    omega
  rw [here.feed_eq, read, column, ← here.number]
  rfl

end State

open State

variable {settings : Settings} {source : String}

/-- Lines are taken by what they spell. A line that is dispatched becomes the construct that its
characters spell, from the first one that is not white space, and no construct but a tag is ever
refused. A line that spells none starts with an angle bracket and is refused behind it, and no
template is refused for that cause in any other way. -/
theorem line_grammar_exact (settings : Settings) :
    (∀ s line u, State.Dispatches settings s line u →
      (∀ t, s.feed settings line = .ok t → ∀ c,
        Spells settings.defaultTag (trimLeft line) c ↔ t.construct? = some c) ∧
      (∀ c, Spells settings.defaultTag (trimLeft line) c → (∀ name, c ≠ .tag name) →
        ∃ t, s.feed settings line = .ok t) ∧
      ((∀ c, ¬ Spells settings.defaultTag (trimLeft line) c) →
        (trimLeft line).head? = some '<' ∧
        s.feed settings line = .error ⟨⟨.unknownIndicator, s.number + 1, line,
          line.length - (trimLeft line).length + 1⟩, u.builder.log⟩)) ∧
    ∀ source,
      (∀ before line after s u, linesOf source.toList = before ++ line :: after →
        before.foldlM (feed settings) {} = .ok s → s.Dispatches settings line u →
        (∀ c, ¬ Spells settings.defaultTag (trimLeft line) c) →
          parse settings source = .error ⟨⟨.unknownIndicator, before.length + 1, line,
            line.length - (trimLeft line).length + 1⟩, settings.shownFile⟩) ∧
      ∀ d, parse settings source = .error d → d.cause = .unknownIndicator →
        ∃ before line after s u, linesOf source.toList = before ++ line :: after ∧
          before.foldlM (feed settings) {} = .ok s ∧ s.Dispatches settings line u ∧
          (∀ c, ¬ Spells settings.defaultTag (trimLeft line) c) ∧ d.number = before.length + 1 := by
  have refused {s : State} {line : Line} {u : State} (here : s.Dispatches settings line u)
      (unspelled : ∀ c, ¬ Spells settings.defaultTag (trimLeft line) c) :
      (trimLeft line).head? = some '<' ∧
        s.feed settings line = .error ⟨⟨.unknownIndicator, s.number + 1, line,
          line.length - (trimLeft line).length + 1⟩, u.builder.log⟩ := by
    obtain ⟨rest, text, read⟩ := (unspelled_iff here.filled).1 unspelled
    exact ⟨by rw [text]; rfl, here.refused text read⟩
  refine ⟨fun s line u here => ⟨?_, ?_, refused here⟩, fun source => ⟨?_, ?_⟩⟩
  · intro t taken c
    rw [spells_iff here.filled, here.construct? taken]
  · intro c spelled other
    rw [here.feed_eq]
    exact exists_takeHead settings u line (construct_of_spells spelled) other
  · intro before line after s u split run here unspelled
    have count : s.number = before.length := by simpa using number_foldlM steady_start run
    have failed := readLines_refused run (refused here unspelled).2 after
    rw [← split, count] at failed
    exact parse_of_error failed
  · intro d failed cause
    obtain ⟨halt, read, rfl⟩ := error_of_parse failed
    cases failedRead_of_readLines read with
    | refused before line after s split run failed refusal =>
      obtain ⟨u, rest, here, unknown⟩ := dispatches_of_unknown failed cause
      have text := angle_of_unknown unknown
      exact ⟨before, line, after, s, u, split, run, here,
        (unspelled_iff here.filled).2 ⟨rest, text, unknown⟩, refusal.number⟩
    | unfinished s run failed =>
      have final := (fault_finish (progress_foldlM [] run).recalls failed).1
      change halt.fault.cause = _ at cause
      rw [cause] at final
      cases final

/-- A condition with brackets of its own, and a colon that has no engine in front of it. -/
theorem line_grammar_exact_two :
    (∃ t, ({} : State).feed {} "#[ a[0] ] ".toList = .ok t ∧
      t.construct? = some (.conditional "a[0]")) ∧
    parse {} "- a\n<: b" = .error ⟨⟨.unknownIndicator, 2, "<: b".toList, 1⟩, "(__TEMPLATE__)"⟩ := by
  constructor
  · have fit : ({} : Builder).align (indentWidth 4 "#[ a[0] ] ".toList) = .ok ({}, false) := rfl
    have here : Dispatches {} {} "#[ a[0] ] ".toList _ := .intro rfl rfl (fun _ => rfl) fit
    have enclosed : IsCondition "[ a[0] ] ".toList " a[0] ".toList :=
      ⟨" ".toList, rfl, rfl⟩
    have spelled : Spells "div" "#[ a[0] ] ".toList (.conditional "a[0]") := .conditional enclosed
    obtain ⟨t, taken⟩ := ((line_grammar_exact {}).1 _ _ _ here).2.1 _ spelled (by simp)
    exact ⟨t, taken, (((line_grammar_exact {}).1 _ _ _ here).1 t taken _).1 spelled⟩
  · set b : Builder := ((({} : Builder).record (.dispatched 1 0 "- a".toList)).begin
      (.control "a")).place .newline
    have run : ["- a".toList].foldlM (feed {}) {} = .ok ⟨1, b, false, .ready⟩ := rfl
    have fit : b.align (indentWidth 4 "<: b".toList) = .ok (b.closeAwaiting, false) := rfl
    have here : Dispatches {} ⟨1, b, false, .ready⟩ "<: b".toList _ :=
      .intro rfl rfl (fun _ => rfl) fit
    refine ((line_grammar_exact {}).2 _).1 _ _ [] _ _ (by decide) run here ?_
    exact (unspelled_iff (by decide)).2 ⟨": b".toList, rfl, by decide⟩

end TemplateMarkup
