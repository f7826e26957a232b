import TemplateMarkup.Tag.Attributes
import TemplateMarkup.Text.Remark

/-! What stands on a tag's line after its attributes. -/
namespace TemplateMarkup

inductive Tail where
  | output (mark : OutputMark) (code : List Char)
  /-- The tag closes itself. -/
  | void
  | block
  | text (text : List Char)
  deriving DecidableEq

/-- A lone slash closes the tag only if no angle bracket did. One space before text is dropped. -/
def Tail.read (angle : Bool) (cs : List Char) : Except Snag Tail :=
  match trimLeft cs with
  | [] => .ok .block
  | '=' :: code => let (mark, code) := OutputMark.read code; .ok (.output mark code)
  | '/' :: '>' :: rest =>
    if isRemarkOnly rest then .ok .void else .error ⟨.contentAfterVoidTag, []⟩
  | rest =>
    if !angle && trimRight rest = ['/'] then .ok .void
    else
      match cs with
      | ' ' :: inline => .ok (.text inline)
      | inline => .ok (.text inline)

example : Tail.read true "  two".toList = .ok (.text " two".toList) := rfl
example : Tail.read true "/".toList = .ok (.text "/".toList) := rfl
example : Tail.read false " / ".toList = .ok .void := rfl
example : Tail.read false "/> # void".toList = .ok .void := rfl
example : Tail.read false "/> void".toList = .error ⟨.contentAfterVoidTag, []⟩ := rfl

end TemplateMarkup
