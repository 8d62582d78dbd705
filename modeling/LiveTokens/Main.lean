import LiveTokens.CommandLine

/-!
# The program

Reads the files that the command line names, runs it, and prints its report.
-/

namespace LiveTokens

namespace CommandLine

/-- Where the settings file of the user lies, below the directory for such files. -/
def settingsPath : String := "relex/config.toml"

/-- The text of a file. -/
def readFile (path : String) : IO FileText := do
  try
    return FileText.ofBytes (← IO.FS.readBinFile path)
  catch error =>
    match error with
    | .noFileOrDirectory _ _ _ => return .error .missing
    | .inappropriateType _ 21 _ => return .error .isDirectory
    | .inappropriateType _ _ _ => return .error .notDirectory
    | .invalidArgument _ 36 _ => return .error .tooLong
    | _ => return .error .denied

/-- The settings file of the user. -/
def readUserSettings : IO FileText := do
  match ← IO.getEnv "XDG_CONFIG_HOME" with
  | some directory => readFile (directory ++ "/" ++ settingsPath)
  | none =>
    match ← IO.getEnv "HOME" with
    | some home => readFile (home ++ "/.config/" ++ settingsPath)
    | none => return .error .missing

/-- The files that a command line names, with their texts. -/
def readNamed (arguments : List String) : IO (List (String × FileText)) := do
  match Arguments.parse arguments with
  | .error _ => return []
  | .ok arguments =>
    (arguments.settings.toList ++ [arguments.input]).mapM fun path => do
      return (path, ← readFile path)

end CommandLine

end LiveTokens

/-- Runs the program. -/
def main (arguments : List String) : IO UInt32 := do
  let userSettings ← LiveTokens.CommandLine.readUserSettings
  let named ← LiveTokens.CommandLine.readNamed arguments
  let read := fun path => (named.lookup path).getD (.error .missing)
  let report := LiveTokens.CommandLine.run userSettings read arguments
  report.log.forM fun line => IO.eprintln line
  IO.print report.output
  IO.eprint report.errors
  return report.code.toUInt32
