import Attest.Yaml.Scalar
/-!
# Tokens of YAML

Scanning turns the layout of a text into tokens: where a block collection begins and ends is
told by how far lines are indented. A key is known as one only when the colon after it is
met; until then its place among the tokens is kept (`PendingKey`), and the tokens for the key
and for a mapping that begins there are put in at that place.
-/

namespace Attest.Yaml

/-- A tag as written: the handle in front and what follows. -/
structure TagName where
  handle : String
  suffix : String
  deriving DecidableEq, Repr

/-- A token. -/
inductive Token where
  | version (major minor : Nat)
  | tagHandle (handle stem : String)
  | documentStart
  | documentEnd
  | sequenceStart
  | mappingStart
  | blockEnd
  | flowSequenceStart
  | flowSequenceEnd
  | flowMappingStart
  | flowMappingEnd
  | flowEntry
  | blockEntry
  | key
  | value
  | alias (name : String)
  | anchor (name : String)
  | tag (name : TagName)
  | scalar (style : ScalarStyle) (text : String)
  deriving DecidableEq, Repr

/-- A place where a key may have begun. -/
structure PendingKey where
  /-- The number of tokens in front of it. -/
  place : Nat
  index : Nat
  line : Nat
  column : Nat
  /-- Whether nothing but a key can stand there. -/
  required : Bool

/-- A scan so far. -/
structure Scan where
  cursor : Cursor
  tokens : Array Token := #[]
  /-- How far the innermost block collection is indented; -1 outside of any. -/
  indent : Int := -1
  /-- The indentation of the block collections around it. -/
  outer : List Int := []
  /-- Whether a key may begin here. -/
  keyAllowed : Bool := true
  /-- The key that may have begun, in the innermost collection. -/
  pending : Option PendingKey := none
  /-- The same for each collection in brackets that is open, the innermost one first: the
  key around it. -/
  enclosing : List (Option PendingKey) := []

namespace Scan

/-- Whether a collection in brackets is open. -/
def inFlow (s : Scan) : Bool := !s.enclosing.isEmpty

/-- A scan with a further token. -/
def push (s : Scan) (t : Token) : Scan := { s with tokens := s.tokens.push t }

/-- A scan with a token put in at a place. -/
def insert (s : Scan) (place : Nat) (t : Token) : Scan :=
  { s with tokens := s.tokens.insertIdxIfInBounds place t }

/-- A scan moved on. -/
def move (s : Scan) (c : Cursor) : Scan := { s with cursor := c }

/-- Gives up the key that may have begun; that is a mistake if it was required. -/
def dropKey (s : Scan) : Option Scan :=
  if s.pending.any (·.required) then none else some { s with pending := none }

/-- Notes that a key may begin here. -/
def noteKey (s : Scan) : Option Scan :=
  if s.keyAllowed then do
    let s ← s.dropKey
    let c := s.cursor
    let required := !s.inFlow && s.indent == (c.column : Int)
    pure { s with pending := some ⟨s.tokens.size, c.index, c.line, c.column, required⟩ }
  else some s

/-- Whether a key that may have begun can no longer be one: keys stand on one line and are
not long. -/
def isStale (s : Scan) (k : PendingKey) : Bool :=
  k.line < s.cursor.line || k.index + 1024 < s.cursor.index

/-- Gives up the keys that can no longer be keys. -/
def dropStale (s : Scan) : Option Scan :=
  let stale (k : Option PendingKey) : Bool := k.any s.isStale
  if (s.pending :: s.enclosing).any fun k => k.any fun k => k.required && s.isStale k then none
  else
    let fresh (k : Option PendingKey) : Option PendingKey := if stale k then none else k
    some { s with pending := fresh s.pending, enclosing := s.enclosing.map fresh }

/-- Begins a block collection at a column, unless one is there already. Its token goes to a
place among the tokens. -/
def openBlock (s : Scan) (column : Nat) (place : Nat) (t : Token) : Scan :=
  if !s.inFlow && s.indent < (column : Int) then
    { s with indent := column, outer := s.indent :: s.outer }.insert place t
  else s

/-- Ends the block collections that are indented further than a column. -/
def closeBlocks (s : Scan) (column : Int) : Scan :=
  if s.inFlow then s else go s.outer s
where
  /-- Ends blocks as long as there are any. -/
  go : List Int → Scan → Scan
    | [], s => s
    | i :: outer, s =>
      if column < s.indent then go outer ({ s with indent := i, outer }.push .blockEnd) else s

/-- Skips blanks, comments and breaks in front of a token. -/
def skipLayout : Nat → Scan → Scan
  | 0, s => s
  | fuel + 1, s =>
    let c := s.cursor.skipWhile fun x => x == ' ' || ((s.inFlow || !s.keyAllowed) && x == '\t')
    let c := if c.at? '#' then c.skipWhile fun x => !isBreak x else c
    match c.takeBreak? with
    | some (_, c) => skipLayout fuel { s with cursor := c, keyAllowed := s.keyAllowed || !s.inFlow }
    | none => s.move c

/-! ## Single tokens -/

/-- A character of a name. -/
def isNameChar (c : Char) : Bool := c.isAlphanum || c == '_' || c == '-'

/-- A character that a tag may hold. -/
def isTagChar (verbatim : Bool) (c : Char) : Bool :=
  isNameChar c || ";/?:@&=+$.%!~*'()".contains c || (verbatim && ",[]".contains c)

/-- The name of an anchor or alias, which the character in front of it announces. -/
def anchorName? (c : Cursor) : Option (String × Cursor) :=
  let (name, c) := (c.drop 1).takeWhile isNameChar
  let ends := endsToken c.rest || c.rest.head?.any ("?:,]\x7d%@`".contains ·)
  if name.isEmpty || !ends then none else some (String.ofList name, c)

/-- The tag at a cursor. -/
def tagName? (inFlow : Bool) (c : Cursor) : Option (TagName × Cursor) := do
  let (name, c) ←
    if c.rest.take 2 == ['!', '<'] then
      let (uri, c) := (c.drop 2).takeWhile (isTagChar true)
      if uri.isEmpty || !c.at? '>' then none
      else some (⟨"", String.ofList uri⟩, c.drop 1)
    else
      let (word, after) := (c.drop 1).takeWhile isNameChar
      if after.at? '!' then
        let (suffix, c) := (after.drop 1).takeWhile (isTagChar false)
        if suffix.isEmpty then none
        else some (⟨String.ofList ('!' :: word ++ ['!']), String.ofList suffix⟩, c)
      else
        let (suffix, c) := (c.drop 1).takeWhile (isTagChar false)
        some (if suffix.isEmpty then ⟨"", "!"⟩ else ⟨"!", String.ofList suffix⟩, c)
  if endsToken c.rest || (inFlow && c.at? ',') then some (name, c) else none

/-- The number at a cursor. -/
def number? (c : Cursor) : Option (Nat × Cursor) :=
  let (digits, c) := c.takeWhile Char.isDigit
  if digits.isEmpty || 9 < digits.length then none
  else some (digits.foldl (fun n d => 10 * n + (d.toNat - '0'.toNat)) 0, c)

/-- The directive at a cursor. -/
def directive? (c : Cursor) : Option (Token × Cursor) := do
  let (name, c) := (c.drop 1).takeWhile isNameChar
  if !endsToken c.rest then none
  else
    let (token, c) ←
      match String.ofList name with
      | "YAML" => do
        let (major, c) ← number? (c.skipWhile isBlank)
        if !c.at? '.' then none
        else
          let (minor, c) ← number? (c.drop 1)
          pure (.version major minor, c)
      | "TAG" => do
        let c := c.skipWhile isBlank
        let (word, after) := (c.drop 1).takeWhile isNameChar
        let handle := if after.at? '!' then '!' :: word ++ ['!'] else '!' :: word
        let c := c.drop handle.length
        if !(handle == ['!'] || handle.getLast? == some '!') || !c.rest.head?.any isBlank then none
        else
          let (stem, c) := (c.skipWhile isBlank).takeWhile (isTagChar true)
          if stem.isEmpty || !endsToken c.rest then none
          else some (.tagHandle (String.ofList handle) (String.ofList stem), c)
      | _ => none
    let c := c.skipLineEnd
    if c.rest.isEmpty then some (token, c) else do
      let (_, c) ← c.takeBreak?
      pure (token, c)

/-! ## Steps of a scan -/

/-- Something that stands between documents or in front of one. -/
def outside (s : Scan) : Option Scan := do
  let s ← (s.closeBlocks (-1)).dropKey
  pure { s with keyAllowed := false }

/-- The start of a collection in brackets. -/
def openFlow (s : Scan) (t : Token) : Option Scan := do
  let s ← s.noteKey
  pure ({ s with
    enclosing := s.pending :: s.enclosing
    pending := none
    keyAllowed := true
    cursor := s.cursor.drop 1 }.push t)

/-- The end of a collection in brackets. -/
def closeFlow (s : Scan) (t : Token) : Option Scan := do
  let s ← s.dropKey
  let s := match s.enclosing with
    | key :: enclosing => { s with pending := key, enclosing }
    | [] => s
  pure ({ s with keyAllowed := false, cursor := s.cursor.drop 1 }.push t)

/-- A comma in brackets. -/
def flowEntry (s : Scan) : Option Scan := do
  let s ← s.dropKey
  pure ({ s with keyAllowed := true, cursor := s.cursor.drop 1 }.push .flowEntry)

/-- A mark that begins an entry, or a key. -/
def blockMark (s : Scan) (start mark : Token) (keyAllowed : Bool) : Option Scan :=
  if !s.inFlow && !s.keyAllowed then none
  else do
    let s := s.openBlock s.cursor.column s.tokens.size start
    let s ← s.dropKey
    pure ({ s with keyAllowed, cursor := s.cursor.drop 1 }.push mark)

/-- The colon in front of a value. -/
def valueMark (s : Scan) : Option Scan :=
  let next (s : Scan) (keyAllowed : Bool) : Scan :=
    { s with keyAllowed, cursor := s.cursor.drop 1 }.push .value
  match s.pending with
  | some k =>
    -- The token for the key comes first and is then moved behind that of its mapping.
    let s := (s.insert k.place .key).openBlock k.column k.place .mappingStart
    some (next { s with pending := none } false)
  | none =>
    if s.inFlow then some (next s false)
    else if !s.keyAllowed then none
    else some (next (s.openBlock s.cursor.column s.tokens.size .mappingStart) true)

/-- Something that can be a key: it is noted as one, and no other one may begin after it. -/
def keyLike (s : Scan) (read : Cursor → Option (Token × Cursor)) : Option Scan := do
  let s ← s.noteKey
  let (t, c) ← read s.cursor
  pure ({ s with keyAllowed := false, cursor := c }.push t)

/-- A plain scalar. After a line break a key may begin. -/
def plain (s : Scan) : Option Scan := do
  let s ← s.noteKey
  let r ← plain? s.inFlow (s.indent + 1).toNat s.cursor
  pure ({ s with keyAllowed := r.brokeLine, cursor := r.cursor }.push
    (.scalar .plain (String.ofList r.text)))

/-- A block scalar. -/
def block (s : Scan) (folded : Bool) : Option Scan := do
  let s ← s.dropKey
  let r ← block? folded s.indent s.cursor
  pure ({ s with keyAllowed := true, cursor := r.cursor }.push
    (.scalar (if folded then .folded else .literal) (String.ofList r.text)))

/-- The characters with which no plain scalar begins, unless more is said. -/
def isIndicator (c : Char) : Bool := "-?:,[]\x7b\x7d#&*!|>'\"%@`".contains c

/-- Whether a plain scalar begins with a text. -/
def startsPlain (inFlow : Bool) : List Char → Bool
  | [] => false
  | c :: rest =>
    !(isIndicator c || isGap c) || (c == '-' && !rest.head?.any isBlank) ||
      (!inFlow && (c == '?' || c == ':') && !endsToken rest)

/-- Reads the next token, which begins with the character `x`. -/
def token (s : Scan) (x : Char) : Option Scan :=
  let c := s.cursor
  let apart : Bool := endsToken (c.rest.drop 1)
  -- Directives and the marks between documents.
  if c.column == 0 && x == '%' then do
    let s ← s.outside
    let (t, c) ← directive? s.cursor
    pure ((s.move c).push t)
  else if c.atMarker '-' then do return ((← s.outside).move (c.drop 3)).push .documentStart
  else if c.atMarker '.' then do return ((← s.outside).move (c.drop 3)).push .documentEnd
  -- Collections in brackets.
  else if x == '[' then s.openFlow .flowSequenceStart
  else if x == '\x7b' then s.openFlow .flowMappingStart
  else if x == ']' then s.closeFlow .flowSequenceEnd
  else if x == '\x7d' then s.closeFlow .flowMappingEnd
  else if x == ',' then s.flowEntry
  -- Marks of entries, keys and values.
  else if x == '-' && apart then s.blockMark .sequenceStart .blockEntry true
  else if x == '?' && (s.inFlow || apart) then s.blockMark .mappingStart .key !s.inFlow
  else if x == ':' && (s.inFlow || apart) then s.valueMark
  -- Scalars, and what may stand in front of one or in its place.
  else if x == '*' then s.keyLike fun c => (anchorName? c).map fun (n, c) => (.alias n, c)
  else if x == '&' then s.keyLike fun c => (anchorName? c).map fun (n, c) => (.anchor n, c)
  else if x == '!' then
    s.keyLike fun c => (tagName? s.inFlow c).map fun (n, c) => (.tag n, c)
  else if (x == '|' || x == '>') && !s.inFlow then s.block (x == '>')
  else if x == '\'' || x == '"' then
    s.keyLike fun c => (quoted? x c).map fun r => (.scalar .quoted (String.ofList r.text), r.cursor)
  else if startsPlain s.inFlow c.rest then s.plain
  else none

/-- Reads tokens up to the end of the text. -/
def run (s : Scan) : Nat → Option (Array Token)
  | 0 => none
  | fuel + 1 => do
    let s ← (skipLayout (s.cursor.rest.length + 1) s).dropStale
    let s := s.closeBlocks s.cursor.column
    match s.cursor.rest with
    | [] => do
      let s ← (s.closeBlocks (-1)).dropKey
      pure s.tokens
    | x :: _ => do
      let s ← s.token x
      s.run fuel

end Scan

/-- The tokens of a text. -/
def tokens? (text : String) : Option (List Token) :=
  let chars := match text.toList with
    | '\ufeff' :: rest => rest
    | chars => chars
  let start : Scan := { cursor := { rest := chars } }
  if chars.all isAllowed then (start.run (chars.length + 1)).map Array.toList else none

end Attest.Yaml
