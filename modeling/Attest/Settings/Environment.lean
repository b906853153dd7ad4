import Attest.Settings.Basic
import Attest.Text.Blank
import Attest.Text.Quoted
/-!
# Settings from the environment

Two variables replace settings. Their values are read without blanks around them and
regardless of the case of letters.
-/

namespace Attest

/-- The variable that says whether differences are told. -/
def differencesVariable : String := "VERDICT_DIFF"

/-- The variable that says whether colors are used. -/
def colorVariable : String := "VERDICT_COLOR"

/-- A variable with a value that it cannot have. -/
inductive SettingError where
  | notAFlag (value : String)
  | notAColorChoice (value : String)
  deriving DecidableEq, Repr

/-- The wording of an error. -/
def SettingError.message : SettingError → String
  | notAFlag value =>
    "config error: " ++ differencesVariable ++ " must be a boolean, got " ++ Text.quoted value
  | notAColorChoice value =>
    "config error: " ++ colorVariable ++ " must be auto, always or never, got " ++
      Text.quoted value

/-- The value of a variable as it is read. -/
def normalized (value : String) : String := (Text.trim value).map Char.toLower

/-- A variable that is on or off. -/
def readFlag (value : String) : Except SettingError Bool :=
  let word := normalized value
  if ["1", "true", "yes", "on"].contains word then .ok true
  else if ["", "0", "false", "no", "off"].contains word then .ok false
  else .error (.notAFlag word)

/-- A variable that is a choice of colors. -/
def readColor (value : String) : Except SettingError ColorChoice :=
  let word := normalized value
  match ColorChoice.ofName? word with
  | some c => .ok c
  | none => .error (.notAColorChoice word)

/-- Settings with those replaced that the environment sets. -/
def Settings.withEnvironment (s : Settings) (lookup : String → Option String) :
    Except SettingError Settings := do
  let differences ← (lookup differencesVariable).mapM readFlag
  let color ← (lookup colorVariable).mapM readColor
  pure (s.override differences color)

end Attest
