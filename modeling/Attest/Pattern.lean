import Attest.Text.Quoted
/-!
# Patterns

A pattern is a regular expression, found anywhere in a text, or a glob, which has to match
the whole text. It keeps the text it was written as: that text and the kind are all that
two patterns are compared by. Which texts are patterns, and what they match, is up to a
`PatternReader`.
-/

namespace Attest

/-- The kind of a pattern. -/
inductive PatternKind where
  | regex
  | glob
  deriving DecidableEq, Repr

/-- A pattern: what it was written as and which texts it matches. -/
structure Pattern where
  kind : PatternKind
  source : String
  isFound : String → Bool

/-- The mark in front of a pattern's text where it is written as a literal. -/
def PatternKind.mark : PatternKind → String
  | .regex => "#"
  | .glob => "#glob"

/-- Why a text is no pattern of the kind asked for. -/
structure PatternError where
  kind : PatternKind
  source : String
  reason : String
  deriving DecidableEq, Repr

namespace PatternError

/-- The pattern that was refused, as its literal would show it. -/
def form (e : PatternError) : String := e.kind.mark ++ Text.quoted e.source

/-- The whole wording. -/
def message (e : PatternError) : String := e.form ++ ": " ++ e.reason

end PatternError

/-- How texts are read as patterns: which texts such a pattern matches, or what is wrong. -/
class PatternReader where
  read : PatternKind → String → Except String (String → Bool)

namespace Pattern

/-- The pattern of a kind written as `source`. -/
def ofSource [PatternReader] (kind : PatternKind) (source : String) : Except PatternError Pattern :=
  match PatternReader.read kind source with
  | .ok isFound => .ok { kind, source, isFound }
  | .error reason => .error { kind, source, reason }

/-- The literal that writes a pattern. Its text is not escaped. -/
def render (p : Pattern) : String := p.kind.mark ++ "\"" ++ p.source ++ "\""

variable [PatternReader] {kind : PatternKind} {source : String} {p : Pattern}

/-- Compiling a text keeps the text. -/
theorem source_ofSource (h : ofSource kind source = .ok p) : p.source = source := by
  unfold ofSource at h
  split at h
  · cases h; rfl
  · cases h

/-- Compiling a text gives a pattern of the kind asked for. -/
theorem kind_ofSource (h : ofSource kind source = .ok p) : p.kind = kind := by
  unfold ofSource at h
  split at h
  · cases h; rfl
  · cases h

end Pattern

end Attest
