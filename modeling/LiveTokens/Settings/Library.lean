import LiveTokens.Settings
import LiveTokens.Toml.Document
import LiveTokens.Toml.Library

/-!
# The program's own library

A library for settings that needs no code from elsewhere. Others have messages and limits of their
own; where they keep to the rules of TOML, they read and write the same settings.
-/

namespace LiveTokens

namespace Settings

/-- What there is to say of a value that a setting cannot have. -/
def unsuitable (key : String) : String :=
  s!"unsuitable value for {key}"

/-- A setting that is a number, with its usual value. -/
def numberAt (entries : Toml.Entries) (key : String) (usual : Nat) : Except String Nat :=
  match entries.get? key.toList with
  | none => .ok usual
  | some (.integer (.ofNat number)) => .ok number
  | some _ => .error (unsuitable key)

/-- A setting that is a truth value, with its usual value. -/
def truthAt (entries : Toml.Entries) (key : String) (usual : Bool) : Except String Bool :=
  match entries.get? key.toList with
  | none => .ok usual
  | some (.boolean truth) => .ok truth
  | some _ => .error (unsuitable key)

/-- The settings in the content of a file. -/
def ofEntries (entries : Toml.Entries) : Except String Settings := do
  let usual : Settings := {}
  let rebaseThreshold ← numberAt entries thresholdKey usual.rebaseThreshold
  let verifyIncremental ← truthAt entries verifyKey usual.verifyIncremental
  return { rebaseThreshold, verifyIncremental }

/-- Writes settings down. Thresholds of `2 ^ 63` and more have no form in TOML. -/
def render? (settings : Settings) : Option Text :=
  if settings.rebaseThreshold < 1 <<< 63 then
    some (
      thresholdKey.toList ++ " = ".toList ++ Nat.toDigits 10 settings.rebaseThreshold ++ ['\n'] ++
      verifyKey.toList ++ " = ".toList ++ (toString settings.verifyIncremental).toList ++ ['\n'])
  else
    none

/-- The library that the program runs with. -/
def library : Toml.Library Settings where
  read text := (Toml.parse? text).elim (.error "not a TOML document") .ok
  fill := ofEntries
  write := render?

end Settings

end LiveTokens
