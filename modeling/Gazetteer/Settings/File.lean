import Gazetteer.Settings
import Gazetteer.Toml.Reader

/-!
# The settings file

Settings come from a file if one is named, and are the usual ones otherwise.  A file is
used only if it can be read, makes sense in its notation, and asks for a lookup without
fault; the first of these that fails is the reason for refusing it.
-/

namespace Gazetteer

/-- Why a settings file is refused. -/
inductive SettingsFileFault where
  | unreadable
  | unintelligible
  | invalid (fault : SettingsFault)
deriving DecidableEq, Repr

/-- The wording of a refusal. -/
def SettingsFileFault.message : SettingsFileFault → String
  | unreadable => "Failed to read config file"
  | unintelligible => "Failed to parse config file"
  | invalid fault => (Failure.invalidSettings fault : Failure Float).message

namespace Settings

/-- The settings that the text of a file gives. -/
def ofText (text : String) : Except SettingsFileFault Settings :=
  match (Toml.read? text).bind (ofValue? .passedOver) with
  | none => .error .unintelligible
  | some settings =>
    match settings.lookup.validate with
    | .error fault => .error (.invalid fault)
    | .ok _ => .ok settings

/-- The settings of a file that was named, if one was.  Of a file that cannot be read there
is no text. -/
def ofFile : Option (Option String) → Except SettingsFileFault Settings
  | none => .ok {}
  | some none => .error .unreadable
  | some (some text) => ofText text

end Settings

end Gazetteer
