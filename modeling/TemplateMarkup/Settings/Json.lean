import TemplateMarkup.Json.Numeral
import TemplateMarkup.Settings.Basic

/-! The fields of the settings, and what JSON values set them to. -/
namespace TemplateMarkup

/-- A field of the settings that a JSON text may state. -/
inductive Field where
  | defaultTag | tabSize | encoding | fileName
  deriving DecidableEq

namespace Field

/-- The fields in the order of an array. -/
def all : List Field := [defaultTag, tabSize, encoding, fileName]

def name : Field → String
  | defaultTag => "default_tag"
  | tabSize => "tab_size"
  | encoding => "text_encoding"
  | fileName => "file_name"

def ofName? (name : String) : Option Field := all.find? (·.name == name)

end Field

namespace Settings

/-- Sets a field to a JSON value of its type: a string, a whole number below `2^64`, or for the
last two fields a string or null. -/
def set? (settings : Settings) : Field → Json → Option Settings
  | .defaultTag, .string s => some { settings with defaultTag := s }
  | .tabSize, .number n => n.natural?.map fun size => { settings with tabSize := size }
  | .encoding, .null => some { settings with encoding := none }
  | .encoding, .string s => some { settings with encoding := some s }
  | .fileName, .null => some { settings with fileName := none }
  | .fileName, .string s => some { settings with fileName := some s }
  | _, _ => none

example : set? {} .tabSize (.number ⟨false, ['8'], [], []⟩) = some { tabSize := 8 } := by decide
example : set? {} .tabSize .null = none := by decide

end Settings

end TemplateMarkup
