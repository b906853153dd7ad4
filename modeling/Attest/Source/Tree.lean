import Attest.Source.Token
/-!
# Trees of tokens

`Draft.step` takes one token: it opens a collection, closes the innermost one, or adds a
leaf to it. A text is a forest when the tokens can all be taken, nothing stops the cutting
before the end, and no collection stays open. Otherwise the first token that cannot be
taken, or the end of the text, is where the fault lies.
-/

namespace Attest.Source

/-- A literal or a collection, with the byte offset at which it starts. -/
inductive Tree where
  | leaf (offset : Nat) (l : Literal)
  | node (offset : Nat) (b : Bracket) (children : List Tree)

/-- The byte offset at which a tree starts. -/
def Tree.offset : Tree → Nat
  | leaf offset _ => offset
  | node offset _ _ => offset

/-- A place where something else was needed, and whether a collection was open there. -/
structure SyntaxFault where
  offset : Nat
  inside : Bool
  deriving DecidableEq, Repr

/-- A collection that is still open: its children so far, last first. -/
structure Frame where
  bracket : Bracket
  offset : Nat
  children : List Tree

/-- What has been read: the finished trees, last first, and the open collections, innermost
first. -/
structure Draft where
  done : List Tree := []
  opened : List Frame := []

namespace Draft

/-- A draft with one more tree in the innermost open collection. -/
def add (d : Draft) (t : Tree) : Draft :=
  match d.opened with
  | [] => { d with done := t :: d.done }
  | f :: fs => { d with opened := { f with children := t :: f.children } :: fs }

/-- A draft after one more token. -/
def step (d : Draft) (l : Lexeme) : Except SyntaxFault Draft :=
  match l.token with
  | .opening b => .ok { d with opened := ⟨b, l.offset, []⟩ :: d.opened }
  | .literal lit => .ok (d.add (.leaf l.offset lit))
  | .closing c =>
    match d.opened with
    | f :: fs =>
      if f.bracket.closer = c then
        .ok (add { d with opened := fs } (.node f.offset f.bracket f.children.reverse))
      else .error ⟨l.offset, true⟩
    | [] => .error ⟨l.offset, false⟩

/-- The forest that a finished draft is; `stuck` is where cutting stopped and `size` the
end of the text. -/
def finish (d : Draft) (stuck : Option Nat) (size : Nat) : Except SyntaxFault (List Tree) :=
  match stuck, d.opened with
  | some offset, fs => .error ⟨offset, !fs.isEmpty⟩
  | none, _ :: _ => .error ⟨size, true⟩
  | none, [] => .ok d.done.reverse

end Draft

/-- The forest that a cut text is. -/
def Scan.forest (s : Scan) : Except SyntaxFault (List Tree) := do
  let draft ← s.lexemes.foldlM Draft.step {}
  draft.finish s.stuck s.size

/-- The forest that a text is. -/
def forest (text : String) : Except SyntaxFault (List Tree) := (Scan.ofText text).forest

end Attest.Source
