import LiveTokens.Directory
import LiveTokens.Settings.Library

/-!
# Settings files

Settings are kept in TOML files. A setting that the file does not mention has its usual value, and
keys that are no settings are passed over. A file that was written for some settings reads back as
the same settings. Reading and writing as such are left to a library, which is an argument of
`parseWith`; `parse` is what the program does with its own.
-/

namespace LiveTokens

/-- Why a settings file is of no use. -/
inductive SettingsError where
  | unreadable (error : ReadError)
  /-- The library has refused it. -/
  | malformed (reason : String)
deriving DecidableEq, Repr

/-- The wording of a settings error. -/
def SettingsError.message : SettingsError → String
  | .unreadable error => s!"failed to read config: {error.message}"
  | .malformed reason => s!"failed to parse config: {reason}"

namespace Settings

/-- Reads settings from the text of a file with some library. -/
def parseWith (library : Toml.Library Settings) (text : Text) : Except SettingsError Settings :=
  ((library.read text).bind library.fill).mapError .malformed

/-- Reads settings from the text of a file with the program's own library. -/
def parse (text : Text) : Except SettingsError Settings :=
  parseWith library text

/-- Loads a settings file. -/
def load (file : FileText) : Except SettingsError Settings :=
  match file with
  | .error error => .error (.unreadable error)
  | .ok text => parse text

/-- Loads the settings file of the user. If there is none, the present settings stay. -/
def loadUser (present : Settings) (file : FileText) : Except SettingsError Settings :=
  match file with
  | .error .missing => .ok present
  | _ => load file

end Settings

end LiveTokens
