import Attest.Regex.Property
import Attest.Decimal.Numeral
/-!
# Reading regular expressions

`Expr.ofText?` reads the written form of a regular expression, or says that it is none.
The reader is a function of the characters still to read, the flags in force and the group
names taken so far. Flags set inside a group hold to its end; in the mode that ignores
blanks, blanks and comments may stand between any two characters of the syntax.
-/

namespace Attest.Regex

open Attest.Text

/-- The flags that change what a pattern means. -/
structure Flags where
  ignoreCase : Bool := false
  multiLine : Bool := false
  dotNewline : Bool := false
  unicode : Bool := true
  ignoreBlank : Bool := false
  carriage : Bool := false

/-- What a reader carries: the characters still to read, the flags in force, and the names
of the groups opened so far. -/
structure Cursor where
  rest : List Char
  flags : Flags
  names : List (List Char)

/-- A step of reading, which may find that the text is no regular expression. -/
abbrev Reader := StateT Cursor Option

/-- What follows blanks and comments; `comment` says that a comment has begun. -/
def skipLayout : Bool → List Char → List Char
  | _, [] => []
  | true, c :: cs => skipLayout (c != '\n') cs
  | false, c :: cs =>
    if isBlank c then skipLayout false cs
    else if c == '#' then skipLayout true cs
    else c :: cs

namespace Reader

/-- The text is no regular expression. -/
def refuse {α : Type} : Reader α := fun _ => none

/-- The next character, if there is one. -/
def peek : Reader (Option Char) := do return (← get).rest.head?

/-- Passes over blanks and comments in the mode that ignores them. -/
def skip : Reader Unit :=
  modify fun c => if c.flags.ignoreBlank then { c with rest := skipLayout false c.rest } else c

/-- Passes over the next character. -/
def bump : Reader Unit := modify fun c => { c with rest := c.rest.drop 1 }

/-- Passes over the next character, and over what is ignored after it. -/
def advance : Reader Unit := do bump; skip

/-- Passes over the next character, which has to be followed by another. -/
def advanceInside : Reader Char := do
  advance
  match ← peek with
  | some c => pure c
  | none => refuse

/-- Passes over a given text if it comes next. -/
def accept (text : List Char) : Reader Bool := do
  let c ← get
  if text.isPrefixOf c.rest then
    set { c with rest := c.rest.drop text.length }
    pure true
  else pure false

/-- The characters that satisfy `p`, passed over one by one. -/
def manyInside (p : Char → Bool) : Nat → Reader (List Char)
  | 0 => pure []
  | n + 1 => do
    match ← peek with
    | some c => if p c then do advance; return c :: (← manyInside p n) else pure []
    | none => pure []

/-- As many rounds as there are characters left to read. -/
def remaining : Reader Nat := do return (← get).rest.length

end Reader

open Reader

/-- One of the classes that a single letter names. -/
inductive Shorthand where
  | digit | blank | word

/-- What one element of a pattern may be before it is put in its place. -/
inductive Primitive where
  /-- A character; `byte` when it was written as two hexadecimal digits. -/
  | literal (c : Char) (byte : Bool)
  | set (s : CharSet)
  | assert (a : Assertion)
  | dot
  | lineStart
  | lineEnd

/-- The characters of a one-letter class. -/
def Shorthand.toSet (k : Shorthand) (unicode : Bool) : CharSet :=
  match k, unicode with
  | .digit, true => .digit
  | .blank, true => .blank
  | .word, true => .word
  | .digit, false => .range 48 57
  | .blank, false => .union (.range 9 13) (.single ' ')
  | .word, false =>
    .unions [.range 48 57, .range 65 90, .range 97 122, .single '_']

/-- The characters that stand for themselves after a backslash although they mean
something without it. -/
def isMeta (c : Char) : Bool := "\\.+*?()|[]\x7b\x7d^$#&-~".toList.contains c

/-- Whether a backslash before `c` changes nothing. -/
def isEscapable (c : Char) : Bool :=
  isMeta c || (c.toNat < 128 && !c.isAlphanum && c != '<' && c != '>')

/-- The character with the number that hexadecimal digits write. -/
def charOfHex? (digits : List Char) : Option Char := do
  let n ← hexValue? digits
  if h : n.isValidChar then pure (Char.ofNatAux n h) else none

/-- A hexadecimal escape after its letter; `width` digits unless braces surround them. -/
def readHex (width : Nat) (byte : Bool) : Reader Primitive := do
  let first ← advanceInside
  if first == '\x7b' then
    advance
    let digits ← manyInside (fun c => (hexDigit? c).isSome) (← remaining)
    if (← peek) != some '\x7d' then refuse
    advance
    match charOfHex? digits with
    | some c => pure (.literal c false)
    | none => refuse
  else
    let digits ← manyInside (fun c => (hexDigit? c).isSome) width
    if digits.length != width then refuse
    match charOfHex? digits with
    | some c => pure (.literal c byte)
    | none => refuse

/-- A property after `\p` or `\P`. -/
def readProperty (negated : Bool) : Reader Primitive := do
  let first ← advanceInside
  let name ←
    if first == '\x7b' then
      advance
      let name ← manyInside (· != '\x7d') (← remaining)
      if (← peek) != some '\x7d' then refuse
      bump
      pure name
    else if first == '\\' then refuse
    else
      advance
      pure [first]
  let flags := (← get).flags
  if !flags.unicode then refuse
  match property? name with
  | some s =>
    let s := if flags.ignoreCase then .anyCase s else s
    pure (.set (if negated then .compl s else s))
  | none => refuse

/-- The special word boundary in braces after `\b`, if there is one; braces that start with
another character belong to a repetition. -/
def readSpecialBoundary (ascii : Bool) : Reader (Option Assertion) := do
  let before ← get
  let isNameChar := fun (c : Char) => c.isAlpha || c == '-'
  let first ← advanceInside
  if !isNameChar first then
    set before
    pure none
  else
    let name ← manyInside isNameChar (← remaining)
    if (← peek) != some '\x7d' then refuse
    bump
    match String.ofList name with
    | "start" => pure (some (.wordStart ascii))
    | "end" => pure (some (.wordEnd ascii))
    | "start-half" => pure (some (.wordStartHalf ascii))
    | "end-half" => pure (some (.wordEndHalf ascii))
    | _ => refuse

/-- What follows a backslash. -/
def readEscape : Reader Primitive := do
  bump
  let some c ← peek | refuse
  let flags := (← get).flags
  let ascii := !flags.unicode
  let shorthand (k : Shorthand) (negated : Bool) : Reader Primitive := do
    bump
    let s := k.toSet flags.unicode
    pure (.set (if negated then .compl s else s))
  let literal (d : Char) : Reader Primitive := do bump; pure (.literal d false)
  let assertion (a : Assertion) : Reader Primitive := do bump; pure (.assert a)
  match c with
  | 'x' => readHex 2 true
  | 'u' => readHex 4 false
  | 'U' => readHex 8 false
  | 'p' => readProperty false
  | 'P' => readProperty true
  | 'd' => shorthand .digit false
  | 'D' => shorthand .digit true
  | 's' => shorthand .blank false
  | 'S' => shorthand .blank true
  | 'w' => shorthand .word false
  | 'W' => shorthand .word true
  | 'a' => literal '\x07'
  | 'f' => literal '\x0c'
  | 't' => literal '\t'
  | 'n' => literal '\n'
  | 'r' => literal '\r'
  | 'v' => literal '\x0b'
  | 'A' => assertion .textStart
  | 'z' => assertion .textEnd
  | 'B' => assertion (.noBoundary ascii)
  | '<' => assertion (.wordStart ascii)
  | '>' => assertion (.wordEnd ascii)
  | 'b' =>
    bump
    if (← peek) == some '\x7b' then
      return .assert ((← readSpecialBoundary ascii).getD (.boundary ascii))
    else return .assert (.boundary ascii)
  | _ => if isEscapable c then literal c else refuse

/-! ## Classes in brackets -/

/-- The sets that the names between `[:` and `:]` denote. -/
def posixSet? (name : String) : Option CharSet :=
  let upper := CharSet.range 65 90
  let lower := CharSet.range 97 122
  let digits := CharSet.range 48 57
  match name with
  | "alnum" => some (.unions [digits, upper, lower])
  | "alpha" => some (.union upper lower)
  | "ascii" => some (.range 0 127)
  | "blank" => some (.union (.single '\t') (.single ' '))
  | "cntrl" => some (.union (.range 0 31) (.range 127 127))
  | "digit" => some digits
  | "graph" => some (.range 33 126)
  | "lower" => some lower
  | "print" => some (.range 32 126)
  | "punct" => some (.unions [.range 33 47, .range 58 64, .range 91 96, .range 123 126])
  | "space" => some (.union (.range 9 13) (.single ' '))
  | "upper" => some upper
  | "word" => some (.unions [digits, upper, lower, .single '_'])
  | "xdigit" => some (.unions [digits, .range 65 70, .range 97 102])
  | _ => none

/-- A set closed under the case flag in force. -/
def Flags.close (flags : Flags) (s : CharSet) : CharSet :=
  if !flags.ignoreCase then s else if flags.unicode then .anyCase s else .anyCaseAscii s

/-- A named class such as `[:alpha:]`, if the text continues with one. -/
def readPosix : Reader (Option CharSet) := do
  let cursor ← get
  match cursor.rest with
  | '[' :: ':' :: rest =>
    let (negated, rest) := match rest with
      | '^' :: r => (true, r)
      | _ => (false, rest)
    let name := rest.takeWhile (· != ':')
    match rest.drop name.length with
    | ':' :: ']' :: after =>
      match posixSet? (String.ofList name) with
      | some s =>
        set { cursor with rest := after }
        let s := cursor.flags.close s
        pure (some (if negated then .compl s else s))
      | none => pure none
    | _ => pure none
  | _ => pure none

/-- An operator between the parts of a bracketed class. -/
inductive SetOp where
  | inter | diff | symmDiff

/-- What stands open around the place being read inside brackets. -/
inductive Open where
  /-- A bracket, whether it is negated, and what the bracket around it held so far. -/
  | bracket (negated : Bool) (outer : CharSet)
  /-- An operator with its left operand. -/
  | op (o : SetOp) (left : CharSet)

/-- Applies an operator; both sides are closed under the case flag first. -/
def SetOp.apply (o : SetOp) (flags : Flags) (a b : CharSet) : CharSet :=
  let a := flags.close a
  let b := flags.close b
  match o with
  | .inter => .inter a b
  | .diff => .diff a b
  | .symmDiff => .symmDiff a b

/-- Completes an operator that waits for its right operand. -/
def closeOp (flags : Flags) (stack : List Open) (right : CharSet) : CharSet × List Open :=
  match stack with
  | .op o left :: outer => (o.apply flags left right, outer)
  | _ => (right, stack)

/-- The opening of a bracket: whether it is negated, and the hyphens or the bracket that
stand for themselves right after it. -/
def readOpening : Reader (Bool × CharSet) := do
  let c ← advanceInside
  let (negated, c) ← if c == '^' then do pure (true, ← advanceInside) else pure (false, c)
  if c == '-' then
    let _ ← manyInside (· == '-') (← remaining)
    if (← peek).isNone then refuse
    pure (negated, .single '-')
  else if c == ']' then
    let _ ← advanceInside
    pure (negated, .single ']')
  else pure (negated, .none)

/-- One element of a bracketed class. -/
def readSetPrimitive : Reader Primitive := do
  match ← peek with
  | some '\\' => readEscape
  | some c => do bump; pure (.literal c false)
  | none => refuse

/-- A literal as an end of a range; outside Unicode mode it has to be an ASCII character or
a byte. -/
def Primitive.endpoint (flags : Flags) : Primitive → Reader Char
  | .literal c byte => if flags.unicode || byte || c.toNat < 128 then pure c else refuse
  | _ => refuse

/-- The next character after the present one, in the mode that ignores blanks after those. -/
def peekAfter : Reader (Option Char) := do
  let c ← get
  let next := c.rest.drop 1
  return (if c.flags.ignoreBlank then skipLayout false next else next).head?

/-- A range or a single element of a bracketed class. -/
def readSetItem : Reader CharSet := do
  let flags := (← get).flags
  let first ← readSetPrimitive
  skip
  let some c ← peek | refuse
  let after ← peekAfter
  if c != '-' || after == some ']' || after == some '-' then
    match first with
    | .set s => pure s
    | p => return .single (← p.endpoint flags)
  else
    let _ ← advanceInside
    let last ← readSetPrimitive
    let a ← first.endpoint flags
    let b ← last.endpoint flags
    if a ≤ b then pure (.range a.toNat b.toNat) else refuse

/-- The rest of a bracketed class: `held` is the union read so far in the innermost
bracket or operand. Each round reads at least one character. -/
def readSetFrom : Nat → List Open → CharSet → Reader CharSet
  | 0, _, _ => refuse
  | fuel + 1, stack, held => do
    skip
    let cursor ← get
    let flags := cursor.flags
    let operator (o : SetOp) : Reader CharSet := do
      bump; bump
      let (left, stack) := closeOp flags stack held
      readSetFrom fuel (.op o left :: stack) .none
    match cursor.rest with
    | [] => refuse
    | '[' :: _ =>
      -- Named classes stand only inside brackets.
      let named ← if stack.isEmpty then pure none else readPosix
      match named with
      | some s => readSetFrom fuel stack (.union held s)
      | none =>
        let (negated, start) ← readOpening
        readSetFrom fuel (.bracket negated held :: stack) start
    | ']' :: _ =>
      let (whole, stack) := closeOp flags stack held
      match stack with
      | .bracket negated outer :: stack =>
        bump
        let s := flags.close whole
        let s := if negated then .compl s else s
        if stack.isEmpty then pure s else readSetFrom fuel stack (.union outer s)
      | _ => refuse
    | '&' :: '&' :: _ => operator .inter
    | '-' :: '-' :: _ => operator .diff
    | '~' :: '~' :: _ => operator .symmDiff
    | _ => do
      let s ← readSetItem
      readSetFrom fuel stack (.union held s)

/-- A bracketed class. -/
def readSet : Reader CharSet := do readSetFrom ((← remaining) + 1) [] .none

/-! ## Groups, repetition and alternatives -/

/-- The flags before the colon or the closing bracket of a group: each letter with whether
it is switched on. -/
def readFlags : Nat → Bool → List Char → Reader (List (Char × Bool))
  | 0, _, _ => refuse
  | fuel + 1, off, seen => do
    let some c ← peek | refuse
    if c == ':' || c == ')' then
      if seen.head? == some '-' then refuse else pure []
    else if seen.contains c || !"imsUuRx-".toList.contains c then refuse
    else
      bump
      let more ← readFlags fuel (off || c == '-') (c :: seen)
      pure ((c, !off) :: more)

/-- The flags after a change. -/
def Flags.apply (flags : Flags) (changes : List (Char × Bool)) : Flags :=
  changes.foldl (fun f (c, on) =>
    match c with
    | 'i' => { f with ignoreCase := on }
    | 'm' => { f with multiLine := on }
    | 's' => { f with dotNewline := on }
    | 'u' => { f with unicode := on }
    | 'x' => { f with ignoreBlank := on }
    | 'R' => { f with carriage := on }
    | _ => f) flags

/-- Whether a character may stand in the name of a group. -/
def isNameChar (first : Bool) (c : Char) : Bool :=
  let letter := (Category.ofChar c).isLetter || Category.ofChar c == .nl ||
    inRanges letterSymbols c.toNat
  let number := match Category.ofChar c with
    | .nd | .no => true
    | _ => false
  c == '_' || letter || (!first && (number || c == '.' || c == '[' || c == ']'))

/-- The name of a group, up to and with the closing angle. -/
def readGroupName : Reader Unit := do
  let cursor ← get
  let name := cursor.rest.takeWhile (· != '>')
  match cursor.rest.drop name.length, name with
  | '>' :: rest, c :: cs =>
    if isNameChar true c && cs.all (isNameChar false) && !cursor.names.contains name then
      set { cursor with rest, names := name :: cursor.names }
    else refuse
  | _, _ => refuse

/-- How a parenthesis begins. -/
inductive Opening where
  /-- A change of flags for what follows. -/
  | flags (changes : List (Char × Bool))
  /-- A group, with the flags that hold inside. -/
  | group (inside : Flags)

/-- The opening of a parenthesis. -/
def readGroupOpening : Reader Opening := do
  advance
  let cursor ← get
  let ahead := fun (s : String) => s.toList.isPrefixOf cursor.rest
  if ahead "?=" || ahead "?!" || ahead "?<=" || ahead "?<!" then refuse
  else if (← accept "?P<".toList) || (← accept "?<".toList) then
    readGroupName
    pure (.group cursor.flags)
  else if ← accept ['?'] then
    let changes ← readFlags ((← remaining) + 1) false []
    let close ← peek
    bump
    if close == some ')' then
      if changes.isEmpty then refuse else pure (.flags changes)
    else pure (.group (cursor.flags.apply changes))
  else pure (.group cursor.flags)

/-- A decimal number inside braces, with blanks around it; `none` when there are no digits.
It has to fit thirty-two bits. -/
def readCount : Reader (Option Nat) := do
  modify fun c => { c with rest := c.rest.dropWhile isBlank }
  let digits ← manyInside Char.isDigit (← remaining)
  modify fun c => { c with rest := c.rest.dropWhile isBlank }
  let n := Decimal.digitsValue digits
  if n < Nat.pow 2 32 then pure (if digits.isEmpty then none else some n) else refuse

/-- The counts of a repetition in braces. -/
def readBounds : Reader (Nat × Option Nat) := do
  let _ ← advanceInside
  let least ← readCount
  let bounds ←
    if (← peek) == some ',' then
      let c ← advanceInside
      let some least := least | refuse
      if c == '\x7d' then pure (least, none)
      else
        let some most ← readCount | refuse
        pure (least, some most)
    else
      let some least := least | refuse
      pure (least, some least)
  if (← peek) != some '\x7d' then refuse
  advance
  if (← peek) == some '?' then bump
  if bounds.2.any (· < bounds.1) then refuse
  pure bounds

/-- An element of a sequence, with the number of levels nested in it. A change of flags is
an element without an expression, which cannot be repeated. -/
structure Element where
  expr : Option Expr
  depth : Nat

/-- An element as part of an expression. -/
def Element.toExpr (e : Element) : Expr := e.expr.getD .empty

/-- The levels nested in several parts, one more when there really are several. -/
def jointDepth (depths : List Nat) : Nat :=
  let deepest := depths.foldl max 0
  if depths.length ≤ 1 then deepest else deepest + 1

/-- A primitive as an expression under the flags in force. Outside Unicode mode nothing may
match half of a character. -/
def Primitive.toExpr (flags : Flags) (p : Primitive) : Reader Expr :=
  let setOrRefuse (s : CharSet) : Reader Expr :=
    if flags.unicode || s.isAscii then pure (.set s) else refuse
  match p with
  | .literal c byte =>
    if !flags.unicode && byte && 128 ≤ c.toNat then refuse
    else pure (.set (flags.close (.single c)))
  | .set s => setOrRefuse s
  | .assert a => pure (.assert a)
  | .dot =>
    let ends := CharSet.unions (if flags.dotNewline then []
      else if flags.carriage then [.single '\n', .single '\r'] else [.single '\n'])
    setOrRefuse (.compl ends)
  | .lineStart =>
    pure (.assert (if !flags.multiLine then .textStart
      else if flags.carriage then .lineStartCr else .lineStart))
  | .lineEnd =>
    pure (.assert (if !flags.multiLine then .textEnd
      else if flags.carriage then .lineEndCr else .lineEnd))

/-- The last element repeated. -/
def repeatLast (least : Nat) (most : Option Nat) : List Element → Reader (List Element)
  | ⟨some e, depth⟩ :: before => pure (⟨some (.times least most e), depth + 1⟩ :: before)
  | _ => refuse

/-- What has been read of a group: the finished alternatives and the elements of the
present one, both last first. -/
structure Draft where
  alternatives : List Element := []
  elements : List Element := []

/-- The elements of a draft's present alternative as one element. -/
def Draft.sequence (d : Draft) : Element :=
  ⟨some (.seqs (d.elements.reverse.map Element.toExpr)), jointDepth (d.elements.map (·.depth))⟩

/-- A draft as one element. -/
def Draft.close (d : Draft) : Element :=
  let parts := d.sequence :: d.alternatives
  ⟨some (.alts (parts.reverse.map Element.toExpr)), jointDepth (parts.map (·.depth))⟩

/-- How many levels may be nested in a pattern. -/
def nestLimit : Nat := 250

/-- The rest of a pattern: `opened` holds the drafts and the flags of the groups around the
place being read. Each round reads at least one character. -/
def readFrom : Nat → List (Draft × Flags) → Draft → Reader Element
  | 0, _, _ => refuse
  | fuel + 1, opened, draft => do
    skip
    let cursor ← get
    let flags := cursor.flags
    let push (e : Element) : Reader Element :=
      readFrom fuel opened { draft with elements := e :: draft.elements }
    let repeated (least : Nat) (most : Option Nat) : Reader Element := do
      let elements ← repeatLast least most draft.elements
      readFrom fuel opened { draft with elements }
    let uncounted (least : Nat) (most : Option Nat) : Reader Element := do
      bump
      if (← peek) == some '?' then bump
      repeated least most
    let primitive (p : Primitive) : Reader Element := do push ⟨some (← p.toExpr flags), 0⟩
    match cursor.rest with
    | [] => if opened.isEmpty then pure draft.close else refuse
    | '(' :: _ =>
      match ← readGroupOpening with
      | .flags changes =>
        modify fun c => { c with flags := c.flags.apply changes }
        push ⟨none, 0⟩
      | .group inside =>
        modify fun c => { c with flags := inside }
        readFrom fuel ((draft, flags) :: opened) {}
    | ')' :: _ =>
      match opened with
      | (outer, flags) :: opened =>
        -- The flags from before the group are in force again.
        modify fun c => { c with rest := c.rest.drop 1, flags }
        let inner := draft.close
        readFrom fuel opened
          { outer with elements := { inner with depth := inner.depth + 1 } :: outer.elements }
      | [] => refuse
    | '|' :: _ =>
      bump
      readFrom fuel opened { alternatives := draft.sequence :: draft.alternatives }
    | '[' :: _ => do
      let s ← readSet
      if flags.unicode || s.isAscii then push ⟨some (.set s), 1⟩ else refuse
    | '?' :: _ => uncounted 0 (some 1)
    | '*' :: _ => uncounted 0 none
    | '+' :: _ => uncounted 1 none
    | '\x7b' :: _ =>
      let (least, most) ← readBounds
      repeated least most
    | '\\' :: _ => do primitive (← readEscape)
    | '.' :: _ => do bump; primitive .dot
    | '^' :: _ => do bump; primitive .lineStart
    | '$' :: _ => do bump; primitive .lineEnd
    | c :: _ => do bump; primitive (.literal c false)

/-- The regular expression that a text writes, if it writes one. -/
def Expr.ofText? (text : String) : Option Expr :=
  let cs := text.toList
  match (readFrom (cs.length + 1) [] {}).run { rest := cs, flags := {}, names := [] } with
  | some (⟨some e, depth⟩, _) => if depth ≤ nestLimit then some e else none
  | _ => none

end Attest.Regex
