import TemplateMarkup.Diagnostic

/-! What a caller may set for reading templates. -/
namespace TemplateMarkup

structure Settings where
  /-- The name of a tag that starts with an id or class shortcut. -/
  defaultTag : String := "div"
  /-- The columns a tab stands for in an indentation. -/
  tabSize : Nat := 4
  /-- How template files are encoded; UTF-8 if not given. -/
  encoding : Option String := none
  /-- The name that faults are reported under. -/
  fileName : Option String := none
  deriving DecidableEq

def Settings.withFileName (settings : Settings) (name : String) : Settings :=
  { settings with fileName := some name }

/-- The file name that diagnostics show. -/
def Settings.shownFile (settings : Settings) : String := settings.fileName.getD unnamedFile

end TemplateMarkup
