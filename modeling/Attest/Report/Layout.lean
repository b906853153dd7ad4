import Attest.Event
import Attest.Report.Style
import Attest.Text.Lines
/-!
# The text of reports

An event is laid out as a block of lines, a summary as one line, and a report as the blocks
of the events that did not pass, with the summary at the end.
-/

namespace Attest

/-- A color of a terminal. -/
inductive Color where
  | green
  | red
  | yellow
  | cyan
  deriving DecidableEq, Repr

/-- The number that selects a color. -/
def Color.code : Color → Nat
  | green => 32
  | red => 31
  | yellow => 33
  | cyan => 36

/-- The word in front of an event, and its color. -/
def Status.tag : Status → String × Color
  | pass => ("PASS", .green)
  | fail => ("FAIL", .red)
  | error => ("ERROR", .yellow)

namespace Style

/-- A text in a color, if colors are used. -/
def paint (style : Style) (color : Color) (text : String) : String :=
  if style.colors then "\x1b[" ++ toString color.code ++ "m" ++ text ++ "\x1b[0m" else text

/-- The word in front of an event. -/
def tag (style : Style) (status : Status) : String :=
  let (word, color) := status.tag
  style.paint color word

/-- The lines of a difference. -/
def differenceLines (style : Style) (d : Difference) : List String :=
  let line (indent title : String) (side : Option String) : List String :=
    side.toList.map fun text =>
      indent ++ style.paint .cyan title ++ " " ++ style.truncate text
  line "   " "removed:" d.removed ++ line "     " "added:" d.added

/-- The lines of an event. -/
def eventLines (style : Style) (e : Event) : List String :=
  let expected := style.truncate e.expected
  let message := (e.message.elim [] Text.lines).map ("  " ++ ·)
  let difference :=
    if style.showsDifference e.isPass then e.difference.elim [] style.differenceLines else []
  [style.tag e.status ++ " " ++ expected] ++ message ++
    ["  expected: " ++ expected, "    actual: " ++ style.truncate e.actual] ++ difference

/-- The text of an event. -/
def eventText (style : Style) (e : Event) : String := String.intercalate "\n" (style.eventLines e)

end Style

/-- The text of a summary. -/
def Summary.render (s : Summary) : String :=
  toString s.total ++ (if s.total = 1 then " check: " else " checks: ") ++
    toString s.passed ++ " passed, " ++ toString s.failed ++ " failed, " ++
    toString s.errored ++ " errored"

/-- The text of a report. -/
def Style.report (style : Style) (events : List Event) : String :=
  let blocks := (events.filter fun e => !e.isPass).map style.eventText
  String.intercalate "\n\n" (blocks ++ [(Summary.ofEvents events).render])

end Attest
