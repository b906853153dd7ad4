import Attest.Yaml.Token
/-!
# YAML documents

A node is what tokens amount to once aliases are replaced by what their anchors name. A text
holds at most one document.
-/

namespace Attest.Yaml

/-- A value of a document. -/
inductive Node where
  | scalar (style : ScalarStyle) (tag : Option String) (text : String)
  | sequence (items : List Node)
  | mapping (entries : List (Node × Node))
  /-- An alias inside of what its anchor names. -/
  | loop

/-- The scalar that stands where nothing is written. -/
def Node.nothing (tag : Option String) : Node := .scalar .plain tag ""

/-- What is known while nodes are read: the tag handles, and the nodes that anchors name. -/
structure Names where
  handles : List (String × String) := [("!", "!"), ("!!", "tag:yaml.org,2002:")]
  anchors : List (String × Node) := []

namespace Names

/-- The tag that a written tag stands for. -/
def resolve? (names : Names) (t : TagName) : Option String :=
  if t.handle == "" then some t.suffix else (names.handles.lookup t.handle).map (· ++ t.suffix)

/-- Names with a further anchor. -/
def withAnchor (names : Names) (anchor : Option String) (node : Node) : Names :=
  match anchor with
  | some a => { names with anchors := (a, node) :: names.anchors }
  | none => names

end Names

/-- The properties in front of a node. -/
structure Properties where
  anchor : Option String := none
  tag : Option TagName := none

/-- The properties in front of tokens: an anchor and a tag, in any order. -/
def Properties.read : List Token → Properties × List Token
  | .anchor a :: .tag t :: rest => (⟨some a, some t⟩, rest)
  | .tag t :: .anchor a :: rest => (⟨some a, some t⟩, rest)
  | .anchor a :: rest => (⟨some a, none⟩, rest)
  | .tag t :: rest => (⟨none, some t⟩, rest)
  | rest => (⟨none, none⟩, rest)

/-- Where a node is read. -/
inductive Place where
  /-- As an entry of a block sequence, or on its own. -/
  | block
  /-- As a key or value of a block mapping, where a sequence need not be indented. -/
  | blockValue
  | flow
  deriving DecidableEq, Repr

/-- A node that was read, what is known after it, and the tokens after it. -/
abbrev NodeRead := Node × Names × List Token

/-- Whether tokens go on with one of those given. -/
def startsWith (stops : List Token) (ts : List Token) : Bool := ts.head?.any stops.contains

mutual

/-- Reads a node. -/
def readNode : Nat → Place → Names → List Token → Option NodeRead
  | 0, _, _, _ => none
  | fuel + 1, place, names, ts => do
    match ts with
    | .alias a :: rest => return (← names.anchors.lookup a, names, rest)
    | ts =>
      let (props, ts) := Properties.read ts
      let tag ← match props.tag with
        | some t => (names.resolve? t).map some
        | none => some none
      let inner := names.withAnchor props.anchor .loop
      let (node, names, ts) ← readContent fuel place (props.anchor.isSome || tag.isSome) tag inner ts
      pure (node, names.withAnchor props.anchor node, ts)

/-- Reads a node after its properties; `mayBeEmpty` says that there were some. -/
def readContent : Nat → Place → Bool → Option String → Names → List Token → Option NodeRead
  | 0, _, _, _, _, _ => none
  | fuel + 1, place, mayBeEmpty, tag, names, ts =>
    match ts with
    | .scalar style text :: rest => some (.scalar style tag text, names, rest)
    | .flowSequenceStart :: rest => readFlowSequence fuel true names rest []
    | .flowMappingStart :: rest => readFlowMapping fuel true names rest []
    | ts =>
      let ofBlock : Option NodeRead :=
        match place, ts with
        | .blockValue, .blockEntry :: _ => readEntries fuel false names ts []
        | .block, .sequenceStart :: rest => readEntries fuel true names rest []
        | .blockValue, .sequenceStart :: rest => readEntries fuel true names rest []
        | .block, .mappingStart :: rest => readMapping fuel names rest []
        | .blockValue, .mappingStart :: rest => readMapping fuel names rest []
        | _, _ => if mayBeEmpty then some (.nothing tag, names, ts) else none
      ofBlock

/-- Reads the node after a mark, or nothing if one of the given tokens follows. -/
def readOptional : Nat → Place → List Token → Names → List Token → Option NodeRead
  | 0, _, _, _, _ => none
  | fuel + 1, place, stops, names, ts =>
    if startsWith stops ts then some (.nothing none, names, ts)
    else readNode fuel place names ts

/-- Reads the entries of a block sequence, last first. One that is not indented ends where no
further entry begins. -/
def readEntries : Nat → Bool → Names → List Token → List Node → Option NodeRead
  | 0, _, _, _, _ => none
  | fuel + 1, indented, names, ts, items =>
    match ts with
    | .blockEntry :: rest => do
      let stops : List Token :=
        if indented then [.blockEntry, .blockEnd] else [.blockEntry, .key, .value, .blockEnd]
      let (item, names, ts) ← readOptional fuel .block stops names rest
      readEntries fuel indented names ts (item :: items)
    | ts =>
      if !indented then some (.sequence items.reverse, names, ts)
      else
        match ts with
        | .blockEnd :: rest => some (.sequence items.reverse, names, rest)
        | _ => none

/-- Reads the entries of a block mapping, last first. -/
def readMapping : Nat → Names → List Token → List (Node × Node) → Option NodeRead
  | 0, _, _, _ => none
  | fuel + 1, names, ts, entries =>
    match ts with
    | .blockEnd :: rest => some (.mapping entries.reverse, names, rest)
    | .key :: rest => do
      let stops : List Token := [.key, .value, .blockEnd]
      let (key, names, ts) ← readOptional fuel .blockValue stops names rest
      match ts with
      | .value :: rest =>
        let (value, names, ts) ← readOptional fuel .blockValue stops names rest
        readMapping fuel names ts ((key, value) :: entries)
      | ts => readMapping fuel names ts ((key, .nothing none) :: entries)
    | _ => none

/-- Reads the entries of a sequence in brackets, last first. -/
def readFlowSequence : Nat → Bool → Names → List Token → List Node → Option NodeRead
  | 0, _, _, _, _ => none
  | fuel + 1, first, names, ts, items =>
    match ts with
    | .flowSequenceEnd :: rest => some (.sequence items.reverse, names, rest)
    | ts => do
      let ts ← if first then some ts else
        match ts with
        | .flowEntry :: rest => some rest
        | _ => none
      match ts with
      | .flowSequenceEnd :: rest => some (.sequence items.reverse, names, rest)
      | .key :: rest =>
        let stops : List Token := [.value, .flowEntry, .flowSequenceEnd]
        let (key, names, ts) ← readOptional fuel .flow stops names rest
        let (value, names, ts) ← readFlowValue fuel .flowSequenceEnd names ts
        readFlowSequence fuel false names ts (.mapping [(key, value)] :: items)
      | ts =>
        let (item, names, ts) ← readNode fuel .flow names ts
        readFlowSequence fuel false names ts (item :: items)

/-- Reads the entries of a mapping in brackets, last first. -/
def readFlowMapping : Nat → Bool → Names → List Token → List (Node × Node) → Option NodeRead
  | 0, _, _, _, _ => none
  | fuel + 1, first, names, ts, entries =>
    match ts with
    | .flowMappingEnd :: rest => some (.mapping entries.reverse, names, rest)
    | ts => do
      let ts ← if first then some ts else
        match ts with
        | .flowEntry :: rest => some rest
        | _ => none
      match ts with
      | .flowMappingEnd :: rest => some (.mapping entries.reverse, names, rest)
      | .key :: rest =>
        let stops : List Token := [.value, .flowEntry, .flowMappingEnd]
        let (key, names, ts) ← readOptional fuel .flow stops names rest
        let (value, names, ts) ← readFlowValue fuel .flowMappingEnd names ts
        readFlowMapping fuel false names ts ((key, value) :: entries)
      | ts =>
        let (key, names, ts) ← readNode fuel .flow names ts
        readFlowMapping fuel false names ts ((key, .nothing none) :: entries)

/-- Reads the value of an entry in brackets, which may be left out. -/
def readFlowValue : Nat → Token → Names → List Token → Option NodeRead
  | 0, _, _, _ => none
  | fuel + 1, stop, names, ts =>
    match ts with
    | .value :: rest => readOptional fuel .flow [.flowEntry, stop] names rest
    | ts => some (.nothing none, names, ts)

end

/-- What directives say, and the tokens after them. A version may be given once, and a handle
defined once. -/
def readDirectives : Bool → List (String × String) → List Token →
    Option (List (String × String) × List Token)
  | versioned, handles, .version major minor :: rest =>
    if versioned || major != 1 || !(minor == 1 || minor == 2) then none
    else readDirectives true handles rest
  | versioned, handles, .tagHandle handle stem :: rest =>
    if (handles.lookup handle).isSome then none
    else readDirectives versioned ((handle, stem) :: handles) rest
  | _, handles, ts => some (handles, ts)

/-- Whether tokens begin with a directive. -/
def startsWithDirective : List Token → Bool
  | .version .. :: _ | .tagHandle .. :: _ => true
  | _ => false

/-- Whether nothing is left after a document: marks of an end, and no further document. -/
def endsStream : List Token → Bool
  | ts => ts.all (· == .documentEnd)

/-- The document that tokens make up; a text without one stands for nothing. -/
def Node.ofTokens? (ts : List Token) : Option Node := do
  let fuel := 4 * ts.length + 8
  if ts.isEmpty then return .nothing none
  else if startsWithDirective ts || startsWith [.documentStart] ts then
    let (handles, ts) ← readDirectives false [] ts
    match ts with
    | .documentStart :: ts =>
      if ts.isEmpty || startsWithDirective ts || startsWith [.documentStart, .documentEnd] ts then
        if endsStream ts then return .nothing none else none
      else
        let (node, _, ts) ← readNode fuel .block { handles := handles ++ ({} : Names).handles } ts
        if endsStream ts then return node else none
    | _ => none
  else
    let (node, _, ts) ← readNode fuel .block {} ts
    if endsStream ts then return node else none

/-- The document of a text. -/
def Node.ofText? (text : String) : Option Node := (tokens? text).bind Node.ofTokens?

/-! ## What plain scalars mean -/

/-- The truth value that a plain scalar writes. -/
def truth? (text : String) : Option Bool :=
  if ["true", "True", "TRUE"].contains text then some true
  else if ["false", "False", "FALSE"].contains text then some false
  else none

/-- The number that digits write in a base. -/
def natOfDigits? (base : Nat) (digits : List Char) : Option Nat := do
  let ds ← digits.mapM hexDigit?
  if ds.isEmpty || ds.any (base ≤ ·) then none else some (ds.foldl (fun n d => base * n + d) 0)

/-- The natural number that a plain scalar writes: in base ten without leading zeros, or in
another base behind its mark. -/
def natural? (text : String) : Option Nat :=
  let unsigned := match text.toList with
    | '+' :: rest => rest
    | chars => chars
  match unsigned with
  | '0' :: 'x' :: digits => natOfDigits? 16 digits
  | '0' :: 'o' :: digits => natOfDigits? 8 digits
  | '0' :: 'b' :: digits => natOfDigits? 2 digits
  | '0' :: _ :: _ => none
  | digits => natOfDigits? 10 digits

namespace Node

/-- The text of a scalar. -/
def text? : Node → Option String
  | scalar _ _ text => some text
  | _ => none

/-- Whether a scalar is read by its looks: if it is plain, or a literal block with the tag
that asks for it. -/
def isBare (style : ScalarStyle) (tag : Option String) (asked : String) : Bool :=
  style == .plain || (style == .literal && tag == some ("tag:yaml.org,2002:" ++ asked))

/-- The truth value that a node is. -/
def bool? : Node → Option Bool
  | scalar style tag text => if isBare style tag "bool" then truth? text else none
  | _ => none

/-- The natural number that a node is. -/
def nat? : Node → Option Nat
  | scalar style tag text => if isBare style tag "int" then natural? text else none
  | _ => none

/-- The name that a node is, as a scalar or as a tag of its own in front of nothing. -/
def name? : Node → Option String
  | scalar style (some tag) text =>
    match tag.toList with
    | '!' :: name =>
      if style == .plain && ["", "~", "null", "Null", "NULL"].contains text then
        some (if name.isEmpty then "!" else String.ofList name)
      else none
    | _ => some text
  | scalar _ none text => some text
  | _ => none

/-- The entries of a mapping; where nothing is written there are none. -/
def entries? : Node → Option (List (Node × Node))
  | mapping entries => some entries
  | scalar .plain _ "" => some []
  | _ => none

end Node

end Attest.Yaml
