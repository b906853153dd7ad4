import Attest.Source.Token
import Attest.Value.Text
/-!
# Laying out a display

The display of a form falls into pieces: brackets with the pieces between them, and texts that
hold together (`Form.piece`). `Piece.LaidOut` says which texts write the same pieces with other
layout: any layout between neighbours as long as there is some, and any or none inside the
brackets. The display itself is one of them (`Form.laidOut_render`).
-/

namespace Attest

namespace Source

/-- Spaces, tabs, line ends and commas, and comments from a semicolon to the end of their line. -/
inductive Layout : List Char → Prop where
  | nil : Layout []
  | spacing {c : Char} {gap : List Char} (hc : isSpacing c = true) (h : Layout gap) :
    Layout (c :: gap)
  | comment {body gap : List Char} (hb : '\n' ∉ body) (h : Layout gap) :
    Layout (';' :: (body ++ '\n' :: gap))

/-- The text that opens a collection. -/
def Bracket.opening : Bracket → List Char
  | .list => ['(']
  | .vector => ['[']
  | .map => ['\x7b']
  | .set => ['#', '\x7b']

/-- The text that closes a collection. -/
def Closer.text : Closer → List Char
  | .round => [')']
  | .square => [']']
  | .curly => ['\x7d']

/-- A text that holds together, or brackets around pieces. -/
inductive Piece where
  | atom (text : List Char)
  | group (b : Bracket) (children : List Piece)

mutual

/-- A piece written with layout around its parts. -/
inductive Piece.LaidOut : Piece → List Char → Prop where
  | atom (text : List Char) : Piece.LaidOut (.atom text) text
  | group (b : Bracket) {children : List Piece} {before inner after : List Char}
    (hb : Layout before) (hi : Siblings children inner) (ha : Layout after) :
    Piece.LaidOut (.group b children)
      (b.opening ++ (before ++ inner ++ after) ++ b.closer.text)

/-- Pieces written one after the other with some layout between them. -/
inductive Siblings : List Piece → List Char → Prop where
  | nil : Siblings [] []
  | single {p : Piece} {text : List Char} (h : p.LaidOut text) : Siblings [p] text
  | cons {p q : Piece} {ps : List Piece} {text gap more : List Char} (h : p.LaidOut text)
    (hg : Layout gap) (hne : gap ≠ []) (hm : Siblings (q :: ps) more) :
    Siblings (p :: q :: ps) (text ++ gap ++ more)

end

theorem Layout.space : Layout [' '] := .spacing rfl .nil

theorem Layout.commaSpace : Layout [',', ' '] := .spacing rfl .space

/-- Pieces in front of others, with some layout between them. -/
theorem Siblings.append {ps qs : List Piece} {text gap more : List Char} (h : Siblings ps text)
    (hps : ps ≠ []) (hg : Layout gap) (hne : gap ≠ []) (hm : Siblings qs more) (hqs : qs ≠ []) :
    Siblings (ps ++ qs) (text ++ gap ++ more) := by
  obtain ⟨q, qs, rfl⟩ := List.exists_cons_of_ne_nil hqs
  induction ps generalizing text with
  | nil => exact absurd rfl hps
  | cons p ps ih =>
    cases h with
    | single h => exact .cons h hg hne hm
    | @cons p r ps first between others h hg' hne' hm' =>
      have hrest : Siblings (r :: (ps ++ q :: qs)) (others ++ gap ++ more) :=
        ih hm' (List.cons_ne_nil r ps)
      simpa only [List.append_assoc, List.cons_append] using Siblings.cons h hg' hne' hrest

/-- Brackets with no layout inside them. -/
theorem Piece.LaidOut.tight (b : Bracket) {children : List Piece} {inner : List Char}
    (h : Siblings children inner) :
    (Piece.group b children).LaidOut (b.opening ++ inner ++ b.closer.text) := by
  simpa using Piece.LaidOut.group b .nil h .nil

end Source

open Source

/-! ## The pieces of a display -/

mutual

/-- The pieces of the display of a value. -/
def Value.piece : Value → Piece
  | .list items => .group .vector (valuePieces items)
  | .set items => .group .set (valuePieces items)
  | .map entries => .group .map (valueEntryPieces entries)
  | v => .atom v.render.toList

/-- The pieces of several values. -/
def valuePieces : List Value → List Piece
  | [] => []
  | v :: vs => v.piece :: valuePieces vs

/-- The pieces of the entries of a map, keys and values in turn. -/
def valueEntryPieces : List (Value × Value) → List Piece
  | [] => []
  | (k, v) :: rest => k.piece :: v.piece :: valueEntryPieces rest

end

mutual

/-- The pieces of the display of a form. -/
def Form.piece : Form → Piece
  | .lit (.fn f) => .atom f.name.toList
  | .lit v => v.piece
  | .sym name => .atom name.toList
  | .list items => .group .list (formPieces items)
  | .vector items => .group .vector (formPieces items)
  | .map entries => .group .map (entryPieces entries)

/-- The pieces of several forms. -/
def formPieces : List Form → List Piece
  | [] => []
  | f :: fs => f.piece :: formPieces fs

/-- The pieces of the entries of a map form, keys and values in turn. -/
def entryPieces : List (Form × Form) → List Piece
  | [] => []
  | (k, v) :: rest => k.piece :: v.piece :: entryPieces rest

end

/-! ## A display is laid out -/

/-- Texts with a separator that is layout, one more at the front. -/
theorem Source.Siblings.intercalate_cons (sep : String) {text : String} {texts : List String}
    {ps qs : List Piece} (hsep : Layout sep.toList) (hne : sep.toList ≠ [])
    (h : Siblings ps text.toList) (hps : ps ≠ [])
    (hm : Siblings qs (String.intercalate sep texts).toList) (hqs : qs = [] ↔ texts = []) :
    Siblings (ps ++ qs) (String.intercalate sep (text :: texts)).toList := by
  cases texts with
  | nil =>
    obtain rfl : qs = [] := hqs.2 rfl
    simpa using h
  | cons t ts =>
    have hcons : qs ≠ [] := fun hnil => List.cons_ne_nil t ts (hqs.1 hnil)
    rw [String.intercalate_cons_cons, String.toList_append, String.toList_append]
    exact h.append hps hsep hne hm hcons

/-- A key and its value with a space between them. -/
theorem Source.Siblings.entry {p q : Piece} {a b : String} (hp : p.LaidOut a.toList)
    (hq : q.LaidOut b.toList) : Siblings [p, q] (a ++ " " ++ b).toList := by
  rw [String.toList_append, String.toList_append]
  exact .cons hp .space (List.cons_ne_nil _ _) (.single hq)

mutual

/-- The display of a value is one way to lay it out. -/
theorem Value.laidOut_render : (v : Value) → v.piece.LaidOut v.render.toList
  | .list items => by
    simpa [Value.piece, Value.render, Bracket.opening, Closer.text, Bracket.closer] using
      Piece.LaidOut.tight .vector (siblings_renderItems items)
  | .set items => by
    simpa [Value.piece, Value.render, Bracket.opening, Closer.text, Bracket.closer] using
      Piece.LaidOut.tight .set (siblings_renderItems items)
  | .map entries => by
    simpa [Value.piece, Value.render, braced, Bracket.opening, Closer.text, Bracket.closer] using
      Piece.LaidOut.tight .map (siblings_renderEntries entries)
  | .nil | .bool _ | .int _ | .float _ | .str _ | .keyword _ | .fn _ | .cls _ | .pattern _
  | .error _ => by
    rw [Value.piece]
    · exact .atom _
    all_goals nofun

theorem siblings_renderItems : (vs : List Value) →
    Siblings (valuePieces vs) (spaced (renderItems vs)).toList
  | [] => .nil
  | v :: vs =>
    .intercalate_cons " " .space (List.cons_ne_nil _ _) (.single v.laidOut_render)
      (List.cons_ne_nil _ _) (siblings_renderItems vs)
      (by cases vs <;> simp [valuePieces, renderItems])

theorem siblings_renderEntries : (entries : List (Value × Value)) →
    Siblings (valueEntryPieces entries) (String.intercalate ", " (renderEntries entries)).toList
  | [] => .nil
  | (k, v) :: rest =>
    .intercalate_cons ", " .commaSpace (List.cons_ne_nil _ _)
      (.entry k.laidOut_render v.laidOut_render) (List.cons_ne_nil _ _)
      (siblings_renderEntries rest) (by cases rest <;> simp [valueEntryPieces, renderEntries])

end

mutual

/-- The display of a form is one way to lay it out. -/
theorem Form.laidOut_render : (f : Form) → f.piece.LaidOut f.render.toList
  | .lit v => by
    by_cases h : ∃ f, v = .fn f
    · obtain ⟨f, rfl⟩ := h
      exact .atom _
    · have hv : ∀ f, v = .fn f → False := fun f hf => h ⟨f, hf⟩
      rw [Form.piece.eq_2 v hv, Form.render.eq_2 v hv]
      exact v.laidOut_render
  | .sym name => .atom _
  | .list items => by
    simpa [Form.piece, Form.render, Bracket.opening, Closer.text, Bracket.closer] using
      Piece.LaidOut.tight .list (siblings_renderForms items)
  | .vector items => by
    simpa [Form.piece, Form.render, Bracket.opening, Closer.text, Bracket.closer] using
      Piece.LaidOut.tight .vector (siblings_renderForms items)
  | .map entries => by
    simpa [Form.piece, Form.render, braced, Bracket.opening, Closer.text, Bracket.closer] using
      Piece.LaidOut.tight .map (siblings_renderFormEntries entries)

theorem siblings_renderForms : (fs : List Form) →
    Siblings (formPieces fs) (spaced (renderForms fs)).toList
  | [] => .nil
  | f :: fs =>
    .intercalate_cons " " .space (List.cons_ne_nil _ _) (.single f.laidOut_render)
      (List.cons_ne_nil _ _) (siblings_renderForms fs)
      (by cases fs <;> simp [formPieces, renderForms])

theorem siblings_renderFormEntries : (entries : List (Form × Form)) →
    Siblings (entryPieces entries) (String.intercalate ", " (renderFormEntries entries)).toList
  | [] => .nil
  | (k, v) :: rest =>
    .intercalate_cons ", " .commaSpace (List.cons_ne_nil _ _)
      (.entry k.laidOut_render v.laidOut_render) (List.cons_ne_nil _ _)
      (siblings_renderFormEntries rest) (by cases rest <;> simp [entryPieces, renderFormEntries])

end

end Attest
