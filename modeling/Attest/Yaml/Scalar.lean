import Attest.Yaml.Cursor
/-!
# Scalars

A scalar is written plainly, in quotes, or as a block of indented lines. Where it goes over
several lines, a single break counts as a space, and of several breaks the first one is
dropped. What is no scalar is `none`.
-/

namespace Attest.Yaml

/-- How a scalar is written. -/
inductive ScalarStyle where
  | plain
  | quoted
  | literal
  | folded
  deriving DecidableEq, Repr

/-! ## Between words -/

/-- What breaks between words amount to. -/
def foldBreaks : List Char → List Char
  | ['\n'] => [' ']
  | '\n' :: more => more
  | breaks => breaks

/-- What stands between two words of a scalar. -/
structure Gap where
  cursor : Cursor
  text : List Char
  brokeLine : Bool

/-- Reads blanks and breaks. `breaks` holds the breaks so far, the last one first, once there
was one. A tab may not stand where a line has to be indented to the column `floor`. -/
def gapFrom (floor : Nat) (fold : List Char → List Char) :
    Nat → Cursor → List Char → Option (List Char) → Option Gap
  | 0, _, _, _ => none
  | fuel + 1, c, blanks, breaks =>
    match c.rest with
    | [] => some (done c blanks breaks)
    | x :: _ =>
      if isBlank x then
        if breaks.isSome && x == '\t' && c.column < floor then none
        else gapFrom floor fold fuel (c.drop 1) (x :: blanks) breaks
      else
        match c.takeBreak? with
        | some (b, c) => gapFrom floor fold fuel c blanks (some (b :: breaks.getD []))
        | none => some (done c blanks breaks)
where
  /-- The gap that was read. -/
  done (c : Cursor) (blanks : List Char) : Option (List Char) → Gap
    | none => ⟨c, blanks.reverse, false⟩
    | some breaks => ⟨c, fold breaks.reverse, true⟩

/-- The gap at a cursor. -/
def gap? (floor : Nat) (c : Cursor) : Option Gap :=
  gapFrom floor foldBreaks (c.rest.length + 1) c [] none

/-- The gap after an escaped break, whose breaks all count. -/
def gapAfterEscape? (c : Cursor) : Option Gap :=
  gapFrom 0 id (c.rest.length + 1) c [] (some [])

/-! ## Plain scalars -/

/-- The characters that delimit collections in brackets. -/
def isFlowMark (c : Char) : Bool := c == ',' || c == '[' || c == ']' || c == '\x7b' || c == '\x7d'

/-- The word of a plain scalar in front of a text. A colon with a mark of a collection right
after it is a mistake in brackets. -/
def plainWord (inFlow : Bool) : List Char → Option (List Char)
  | [] => some []
  | c :: rest =>
    if isGap c then some []
    else if c == ':' && inFlow && rest.head?.any (fun x => isFlowMark x || x == '?') then none
    else if (c == ':' && endsToken rest) || (inFlow && isFlowMark c) then some []
    else (plainWord inFlow rest).map (c :: ·)

/-- A scalar that was read, and whether it ended on a later line than its last word. -/
structure Scanned where
  text : List Char
  cursor : Cursor
  brokeLine : Bool := false

/-- Reads the rest of a plain scalar; `gap` stands between it and the next word. -/
def plainFrom (inFlow : Bool) (floor : Nat) :
    Nat → Cursor → List Char → List Char → Bool → Option Scanned
  | 0, _, _, _, _ => none
  | fuel + 1, c, text, gap, broke =>
    if c.atDocumentMarker || c.at? '#' then some ⟨text, c, broke⟩
    else do
      let word ← plainWord inFlow c.rest
      let after := c.drop word.length
      if word.isEmpty then pure ⟨text, c, broke⟩
      else
        let text := text ++ gap ++ word
        if after.rest.head?.any isGap then
          let g ← gap? floor after
          if !inFlow && g.cursor.column < floor then pure ⟨text, g.cursor, g.brokeLine⟩
          else plainFrom inFlow floor fuel g.cursor text g.text g.brokeLine
        else pure ⟨text, after, false⟩

/-- The plain scalar at a cursor. -/
def plain? (inFlow : Bool) (floor : Nat) (c : Cursor) : Option Scanned :=
  plainFrom inFlow floor (c.rest.length + 1) c [] [] false

/-! ## Quoted scalars -/

/-- The value of a hexadecimal digit. -/
def hexDigit? (c : Char) : Option Nat :=
  if c.isDigit then some (c.toNat - '0'.toNat)
  else if 'a' ≤ c && c ≤ 'f' then some (c.toNat - 'a'.toNat + 10)
  else if 'A' ≤ c && c ≤ 'F' then some (c.toNat - 'A'.toNat + 10)
  else none

/-- The character that so many hexadecimal digits name. -/
def hexChar? (digits : Nat) (text : List Char) : Option Char := do
  let ds ← (text.take digits).mapM hexDigit?
  let n := ds.foldl (fun n d => 16 * n + d) 0
  if ds.length = digits ∧ n.isValidChar then some (Char.ofNat n) else none

/-- The character that an escape stands for, and how many characters it has after the
backslash. -/
def escape? : List Char → Option (Char × Nat)
  | 'x' :: rest => (hexChar? 2 rest).map (·, 3)
  | 'u' :: rest => (hexChar? 4 rest).map (·, 5)
  | 'U' :: rest => (hexChar? 8 rest).map (·, 9)
  | c :: _ => (escapes.lookup c).map (·, 1)
  | [] => none
where
  /-- The escapes of one character. -/
  escapes : List (Char × Char) :=
    [('0', '\x00'), ('a', '\x07'), ('b', '\x08'), ('t', '\t'), ('\t', '\t'), ('n', '\n'),
      ('v', '\x0b'), ('f', '\x0c'), ('r', '\r'), ('e', '\x1b'), (' ', ' '), ('"', '"'),
      ('/', '/'), ('\\', '\\'), ('N', '\u0085'), ('_', '\u00a0'), ('L', '\u2028'),
      ('P', '\u2029')]

/-- A word of a quoted scalar, and what follows it: a gap, an escaped break or the closing
quote. -/
def quotedWord (quote : Char) : Nat → Cursor → List Char → Option (List Char × Cursor)
  | 0, _, _ => none
  | fuel + 1, c, word =>
    match c.rest with
    | [] => none
    | x :: rest =>
      if isGap x then some (word.reverse, c)
      else if x == quote then
        if quote == '\'' && rest.head? == some '\'' then
          quotedWord quote fuel (c.drop 2) ('\'' :: word)
        else some (word.reverse, c)
      else if x == '\\' && quote == '"' then
        if rest.head?.any isBreak then some (word.reverse, c)
        else
          match escape? rest with
          | some (e, n) => quotedWord quote fuel (c.drop (n + 1)) (e :: word)
          | none => none
      else quotedWord quote fuel (c.drop 1) (x :: word)

/-- Reads the rest of a quoted scalar. -/
def quotedFrom (quote : Char) : Nat → Cursor → List Char → Option Scanned
  | 0, _, _ => none
  | fuel + 1, c, text =>
    if c.atDocumentMarker then none
    else do
      let (word, c) ← quotedWord quote (c.rest.length + 1) c []
      let text := text ++ word
      if c.at? quote then pure ⟨text, c.drop 1, false⟩
      else if c.at? '\\' then
        let (_, c) ← (c.drop 1).takeBreak?
        if c.at? quote then pure ⟨text, c.drop 1, false⟩
        else
          let g ← gapAfterEscape? c
          quotedFrom quote fuel g.cursor (text ++ g.text)
      else
        let g ← gap? 0 c
        quotedFrom quote fuel g.cursor (text ++ g.text)

/-- The quoted scalar whose opening quote is at a cursor. -/
def quoted? (quote : Char) (c : Cursor) : Option Scanned :=
  quotedFrom quote (c.rest.length + 1) (c.drop 1) []

/-! ## Block scalars -/

/-- What happens to the breaks at the end of a block. -/
inductive Chomping where
  | strip
  | clip
  | keep
  deriving DecidableEq, Repr

/-- The first line of a block scalar: how it ends, and by how much it is indented if that is
said. -/
structure BlockHeader where
  chomping : Chomping := .clip
  increment : Option Nat := none

namespace BlockHeader

/-- How a sign asks for a block to end. -/
def chomping? (c : Char) : Option Chomping :=
  if c == '+' then some .keep else if c == '-' then some .strip else none

/-- The increment that a digit asks for. -/
def increment? (c : Char) : Option Nat :=
  if '1' ≤ c && c ≤ '9' then some (c.toNat - '0'.toNat) else none

/-- The header in front of a text, and its length. -/
def read (text : List Char) : BlockHeader × Nat :=
  match text with
  | a :: b :: _ =>
    match chomping? a, increment? a, chomping? b, increment? b with
    | some ch, _, _, some n => (⟨ch, some n⟩, 2)
    | _, some n, some ch, _ => (⟨ch, some n⟩, 2)
    | some ch, _, _, _ => ({ chomping := ch }, 1)
    | _, some n, _, _ => ({ increment := some n }, 1)
    | _, _, _, _ => ({}, 0)
  | [a] =>
    match chomping? a, increment? a with
    | some ch, _ => ({ chomping := ch }, 1)
    | _, some n => ({ increment := some n }, 1)
    | _, _ => ({}, 0)
  | [] => ({}, 0)

end BlockHeader

/-- Reads empty lines and the indentation of the next line. `indent` is how far lines are
indented if that is known, and `deepest` the widest line so far. -/
def blockBreaks (indent : Option Nat) :
    Nat → Cursor → List Char → Nat → Option (Cursor × List Char × Nat)
  | 0, _, _, _ => none
  | fuel + 1, c, breaks, deepest =>
    let spaces := (c.rest.takeWhile (· == ' ')).length
    let c := c.drop (match indent with
      | some n => min spaces (n - c.column)
      | none => spaces)
    let deepest := max deepest c.column
    if c.at? '\t' && indent.all (c.column < ·) then none
    else
      match c.takeBreak? with
      | some (b, c) => blockBreaks indent fuel c (breaks ++ [b]) deepest
      | none => some (c, breaks, deepest)

/-- Reads the lines of a block that is indented to `indent`. `lead` is the break after the
last line, `breaks` are those of the empty lines after it, and `blank` says that the last
line started with a blank. -/
def blockLines (folded : Bool) (indent : Nat) :
    Nat → Cursor → List Char → List Char → List Char → Bool →
      Option (Cursor × List Char × List Char × List Char)
  | 0, _, _, _, _, _ => none
  | fuel + 1, c, text, lead, breaks, blank =>
    if c.column != indent || c.rest.isEmpty then some (c, text, lead, breaks)
    else do
      let startsBlank := c.rest.head?.any isBlank
      let joint :=
        if folded && lead == ['\n'] && !blank && !startsBlank then
          if breaks.isEmpty then [' '] else breaks
        else lead ++ breaks
      let (line, c) := c.takeWhile fun x => !isBreak x
      let (lead, c) := match c.takeBreak? with
        | some (b, c) => ([b], c)
        | none => ([], c)
      let (c, breaks, _) ← blockBreaks (some indent) (c.rest.length + 1) c [] 0
      blockLines folded indent fuel c (text ++ joint ++ line) lead breaks startsBlank

/-- The block scalar at a cursor, within lines indented to `outer`. -/
def block? (folded : Bool) (outer : Int) (c : Cursor) : Option Scanned := do
  let (header, length) := BlockHeader.read (c.rest.drop 1)
  let c := ((c.drop (length + 1)).skipWhile isBlank)
  let c := if c.at? '#' then c.skipWhile fun x => !isBreak x else c
  let c ← if c.rest.isEmpty then some c else c.takeBreak?.map (·.2)
  let known := header.increment.map fun n => (max outer 0).toNat + n
  let (c, breaks, deepest) ← blockBreaks known (c.rest.length + 1) c [] 0
  let indent := known.getD (max deepest (max (outer + 1).toNat 1))
  let (c, text, lead, breaks) ←
    blockLines folded indent (c.rest.length + 1) c [] [] breaks false
  let ending := match header.chomping with
    | .strip => []
    | .clip => lead
    | .keep => lead ++ breaks
  pure ⟨text ++ ending, c, true⟩

end Attest.Yaml
