/-!
# Reading positions

A cursor is what is left of a YAML text together with how far reading has come: how many
characters were read, and the line and the column of the next one. Blanks are spaces and
tabs; five characters break lines, and a carriage return with a line feed is one break.
-/

namespace Attest.Yaml

/-- Whether a YAML text may hold a character. -/
def isAllowed (c : Char) : Bool :=
  let n := c.toNat
  n == 0x09 || n == 0x0A || n == 0x0D || (0x20 ≤ n && n ≤ 0x7E) || n == 0x85 ||
    (0xA0 ≤ n && n ≤ 0xFFFD && n != 0xFEFF) || 0x10000 ≤ n

/-- A space or a tab. -/
def isBlank (c : Char) : Bool := c == ' ' || c == '\t'

/-- A character that ends a line. -/
def isBreak (c : Char) : Bool :=
  c == '\n' || c == '\r' || c == '\u0085' || c == '\u2028' || c == '\u2029'

/-- A blank or a break. -/
def isGap (c : Char) : Bool := isBlank c || isBreak c

/-- Whether a token ends in front of a text: at a blank, a break or the end. -/
def endsToken : List Char → Bool
  | [] => true
  | c :: _ => isGap c

/-- Whether a text starts with a character that stands apart from what follows. -/
def startsApart (mark : Char) : List Char → Bool
  | c :: rest => c == mark && endsToken rest
  | [] => false

/-- What is left of a text, and how far reading has come. -/
structure Cursor where
  rest : List Char
  index : Nat := 0
  line : Nat := 0
  column : Nat := 0

namespace Cursor

/-- The cursor after some characters of a line. -/
def drop (c : Cursor) (n : Nat) : Cursor :=
  { c with rest := c.rest.drop n, index := c.index + n, column := c.column + n }

/-- The characters of a line up to one that does not satisfy a test, and the cursor there. -/
def takeWhile (c : Cursor) (p : Char → Bool) : List Char × Cursor :=
  let found := c.rest.takeWhile p
  (found, c.drop found.length)

/-- The cursor after all characters that satisfy a test. -/
def skipWhile (c : Cursor) (p : Char → Bool) : Cursor := (c.takeWhile p).2

/-- The cursor at the start of the next line. -/
def nextLine (c : Cursor) (read : Nat) : Cursor where
  rest := c.rest.drop read
  index := c.index + read
  line := c.line + 1
  column := 0

/-- A line break and the cursor after it. The breaks of old count as line feeds. -/
def takeBreak? (c : Cursor) : Option (Char × Cursor) :=
  match c.rest with
  | '\r' :: '\n' :: _ => some ('\n', c.nextLine 2)
  | x :: _ =>
    if x == '\u2028' || x == '\u2029' then some (x, c.nextLine 1)
    else if isBreak x then some ('\n', c.nextLine 1)
    else none
  | [] => none

/-- Whether the next character is a given one. -/
def at? (c : Cursor) (mark : Char) : Bool := c.rest.head? == some mark

/-- Whether a line starts with three of a character that stand apart. -/
def atMarker (c : Cursor) (mark : Char) : Bool :=
  c.column == 0 && c.rest.take 3 == [mark, mark, mark] && endsToken (c.rest.drop 3)

/-- Whether a line starts with a mark between documents. -/
def atDocumentMarker (c : Cursor) : Bool := c.atMarker '-' || c.atMarker '.'

/-- What is left after blanks up to the end of a line, a comment included. -/
def skipLineEnd (c : Cursor) : Cursor :=
  let c := c.skipWhile isBlank
  if c.at? '#' then c.skipWhile fun x => !isBreak x else c

end Cursor

end Attest.Yaml
