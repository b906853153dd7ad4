import Attest.Engine
import Attest.Report.Style
/-!
# Settings

What a user sets once for all assertions: whether differences are told, and how failures are
printed.
-/

namespace Attest

/-- Whether colors are used. -/
inductive ColorChoice where
  /-- If the output is a terminal. -/
  | auto
  | always
  | never
  deriving DecidableEq, Repr

namespace ColorChoice

/-- How a setting names a choice. -/
def name : ColorChoice → String
  | auto => "auto"
  | always => "always"
  | never => "never"

/-- The choice that a name in a setting stands for. -/
def ofName? (name : String) : Option ColorChoice :=
  [auto, always, never].find? (·.name == name)

/-- Whether colors are used, where that is known; `auto` depends on the terminal. -/
def enabled? : ColorChoice → Option Bool
  | auto => none
  | always => some true
  | never => some false

end ColorChoice

/-- How failures are printed. -/
structure OutputSettings where
  differences : Showing := .onFailure
  limit : Nat := 120
  color : ColorChoice := .auto
  deriving DecidableEq, Repr

/-- What a user sets. -/
structure Settings where
  differences : Bool := false
  output : OutputSettings := {}
  deriving DecidableEq, Repr

namespace Settings

/-- Settings with some replaced. -/
def override (s : Settings) (differences : Option Bool) (color : Option ColorChoice) :
    Settings where
  differences := differences.getD s.differences
  output := { s.output with color := color.getD s.output.color }

/-- The style that settings ask for. -/
def style (s : Settings) (isTerminal : Bool) : Style where
  differences := s.output.differences
  limit := s.output.limit
  colors := s.output.color.enabled?.getD isTerminal

/-- The engine that settings ask for. -/
def engine (s : Settings) : Engine := .basic s.differences

end Settings

end Attest
