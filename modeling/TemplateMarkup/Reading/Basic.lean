import TemplateMarkup.Reading.Feed
import TemplateMarkup.Text.Lines

/-! Reading a whole template: its tree or its first fault, and the log of the reading. -/
namespace TemplateMarkup

structure Reading where
  outcome : Except Fault Node
  /-- What happened, in order. -/
  log : List Event

/-- Feeds every line and then the end. -/
def readLines (settings : Settings) (lines : List Line) : Except Halt Builder := do
  (← lines.foldlM (State.feed settings) {}).finish

def readTemplate (settings : Settings) (source : String) : Reading :=
  match readLines settings (linesOf source.toList) with
  | .ok builder => ⟨.ok builder.tree, builder.log.reverse⟩
  | .error halt => ⟨.error halt.fault, halt.log.reverse⟩

/-- The tree of a template, or what is wrong with it and where. -/
def parse (settings : Settings) (source : String) : Except Diagnostic Node :=
  (readTemplate settings source).outcome.mapError fun fault => ⟨fault, settings.shownFile⟩

example : parse {} "<p.a x=1>= y\n  z" =
    .ok (.multi [.tag "p" [.shortcut "class" "a", .valued "x" (.interpolate "1")]
      (.output true "y" (.multi [.newline, .interpolate "z", .newline]))]) := by cbv

example : parse {} "<br/>\n  <b" =
    .error ⟨⟨.unexpectedIndentation, 2, "  <b".toList, 2⟩, "(__TEMPLATE__)"⟩ := by cbv

example : parse {} "> a\n  b # note\n" =
    .ok (.multi [.interpolate " a\n b ", .newline, .newline]) := by rfl

end TemplateMarkup
