import Attest.Pattern.Reading
import Attest.Proofs.Order
import Attest.Proofs.Reading
import Mathlib.Algebra.Module.Submodule.Lattice
/-!
# What was read is read again

Reading gives forms that their display determines: each literal and each symbol is spelled by
its text, and the elements of a set increase (`Form.Rereadable`). Floats are left out, and texts
with characters that a quoted text shows by their number (`Form.Legible`). So the display of a
form that was read, laid out in any way, is read as that form (`Form.read_laidOut`).
-/

namespace Attest

open Source Text

/-! ## Literals and symbols of a form -/

mutual

/-- A property of the literals in a form and one of the symbols in it. -/
def Form.Leaves (P : Value → Prop) (Q : String → Prop) : Form → Prop
  | .lit v => P v
  | .sym name => Q name
  | .list items | .vector items => leavesAll P Q items
  | .map entries => leavesEntries P Q entries

/-- The properties for several forms. -/
def leavesAll (P : Value → Prop) (Q : String → Prop) : List Form → Prop
  | [] => True
  | f :: fs => f.Leaves P Q ∧ leavesAll P Q fs

/-- The properties for entries. -/
def leavesEntries (P : Value → Prop) (Q : String → Prop) : List (Form × Form) → Prop
  | [] => True
  | (k, v) :: rest => k.Leaves P Q ∧ v.Leaves P Q ∧ leavesEntries P Q rest

end

section Leaves

variable {P : Value → Prop} {Q : String → Prop}

theorem leavesAll_iff {forms : List Form} :
    leavesAll P Q forms ↔ ∀ f ∈ forms, f.Leaves P Q := by
  induction forms with
  | nil => simp [leavesAll]
  | cons f fs ih => simp [leavesAll, ih]

theorem leavesEntries_iff {entries : List (Form × Form)} :
    leavesEntries P Q entries ↔ leavesAll P Q (entries.flatMap fun (k, v) => [k, v]) := by
  induction entries with
  | nil => simp [leavesEntries, leavesAll]
  | cons e rest ih => simp [leavesEntries, leavesAll, ih]

end Leaves

mutual

/-- A literal without floats, whose texts have legible characters only. -/
def Value.Legible : Value → Prop
  | .float _ => False
  | .str s => ∀ c ∈ s.toList, Text.Legible c
  | .list items | .set items => legibleItems items
  | .map entries => legibleEntries entries
  | _ => True

/-- Several legible literals. -/
def legibleItems : List Value → Prop
  | [] => True
  | v :: vs => v.Legible ∧ legibleItems vs

/-- Legible keys and values. -/
def legibleEntries : List (Value × Value) → Prop
  | [] => True
  | (k, v) :: rest => k.Legible ∧ v.Legible ∧ legibleEntries rest

end

/-- A form without float literals, whose text literals have legible characters only. -/
def Form.Legible (f : Form) : Prop := f.Leaves Value.Legible fun _ => True

theorem legibleItems_iff {vs : List Value} : legibleItems vs ↔ ∀ v ∈ vs, v.Legible := by
  induction vs with
  | nil => simp [legibleItems]
  | cons v vs ih => simp [legibleItems, ih]

/-! ## Forms that their display determines -/

section Reader

variable [PatternReader]

/-- A text that spells a literal for the form. -/
def Form.SpelledBy (f : Form) (text : List Char) : Prop :=
  ∃ l : Literal, l.SpelledBy text ∧ ∀ offset, l.toForm offset = .ok f

mutual

/-- A literal that its text spells, or a set of such literals in increasing order. No lists, maps
and functions are read as literals. -/
def Value.Rereadable : Value → Prop
  | .set items => Elements.Increasing items ∧ rereadableItems items
  | .list _ | .map _ | .fn _ => False
  | v => (Form.lit v).SpelledBy v.render.toList

/-- Several such literals. -/
def rereadableItems : List Value → Prop
  | [] => True
  | v :: vs => v.Rereadable ∧ rereadableItems vs

end

/-- A form whose literals and symbols are spelled by their texts. -/
def Form.Rereadable (f : Form) : Prop :=
  f.Leaves Value.Rereadable fun name => (Form.sym name).SpelledBy name.toList

theorem rereadableItems_iff {vs : List Value} : rereadableItems vs ↔ ∀ v ∈ vs, v.Rereadable := by
  induction vs with
  | nil => simp [rereadableItems]
  | cons v vs ih => simp [rereadableItems, ih]

/-! ## They are read from every layout -/

omit [PatternReader] in
/-- Forms have values together exactly if they are the literals of those. -/
theorem literals?_eq_some_iff {forms : List Form} {vs : List Value} :
    literals? forms = some vs ↔ forms = vs.map .lit := by
  induction forms generalizing vs with
  | nil => cases vs <;> simp [literals?]
  | cons f fs ih =>
    have hcons : literals? (f :: fs) = some vs ↔
        ∃ v ws, f = .lit v ∧ literals? fs = some ws ∧ vs = v :: ws := by
      rw [literals?, List.mapM_cons, ← literals?]
      cases f <;> cases literals? fs <;> simp [eq_comm]
    rw [hcons]
    constructor
    · rintro ⟨v, ws, rfl, hws, rfl⟩
      rw [ih.1 hws]
      rfl
    · intro h
      cases vs with
      | nil => cases h
      | cons v ws =>
        obtain ⟨rfl, hws⟩ := List.cons.inj h
        exact ⟨v, ws, rfl, ih.2 hws, rfl⟩

mutual

/-- A literal is read from its text, however that is laid out. -/
theorem Value.reads_of_laidOut : (v : Value) → {text : List Char} → v.Rereadable →
    v.piece.LaidOut text → Reads text [.lit v]
  | .set items, text, ⟨hinc, hitems⟩, h => by
    have hset : Bracket.set.form? (items.map .lit) = some (.lit (.set items)) := by
      rw [Bracket.form?, Form.ofSet, literals?_eq_some_iff.2 rfl]
      simp only [Value.setOf, Elements.ofList_eq_self hinc]
    rw [Value.piece] at h
    exact Reads.of_laidOut_group (fun inner => reads_items items hitems) hset h
  | .nil, _, ⟨l, hl, hf⟩, h | .bool _, _, ⟨l, hl, hf⟩, h | .int _, _, ⟨l, hl, hf⟩, h
  | .float _, _, ⟨l, hl, hf⟩, h | .str _, _, ⟨l, hl, hf⟩, h | .keyword _, _, ⟨l, hl, hf⟩, h
  | .cls _, _, ⟨l, hl, hf⟩, h | .pattern _, _, ⟨l, hl, hf⟩, h | .error _, _, ⟨l, hl, hf⟩, h => by
    rw [Value.piece] at h
    · cases h
      exact .literal hl hf
    all_goals nofun

theorem reads_items : (vs : List Value) → {text : List Char} → rereadableItems vs →
    Siblings (valuePieces vs) text → Reads text (vs.map .lit)
  | [], _, _, h => by
    cases h
    exact .nil
  | v :: vs, _, ⟨hv, hvs⟩, h =>
    .of_siblings_cons (fun _ => v.reads_of_laidOut hv) (fun _ => reads_items vs hvs) h

end

mutual

/-- A form is read from its display, however that is laid out. -/
theorem Form.reads_of_laidOut : (f : Form) → {text : List Char} → f.Rereadable →
    f.piece.LaidOut text → Reads text [f]
  | .lit v, _, hf, h => by
    -- Only a function would be written otherwise as a form than as a value.
    have hfn : ∀ g, v = .fn g → False := by
      rintro g rfl
      exact hf
    rw [Form.piece.eq_2 v hfn] at h
    exact v.reads_of_laidOut hf h
  | .sym name, _, ⟨l, hl, hf⟩, h => by
    cases h
    exact .literal hl hf
  | .list items, _, hf, h =>
    .of_laidOut_group (fun _ => reads_forms items (leavesAll_iff.1 hf)) rfl h
  | .vector items, _, hf, h =>
    .of_laidOut_group (fun _ => reads_forms items (leavesAll_iff.1 hf)) rfl h
  | .map entries, _, hf, h =>
    .of_laidOut_group (fun _ => reads_entries entries hf)
      (by rw [Bracket.form?, pairUp?_flatten]; rfl) h

theorem reads_forms : (fs : List Form) → {text : List Char} → (∀ f ∈ fs, f.Rereadable) →
    Siblings (formPieces fs) text → Reads text fs
  | [], _, _, h => by
    cases h
    exact .nil
  | f :: fs, _, hfs, h =>
    .of_siblings_cons (fun _ => f.reads_of_laidOut (hfs f List.mem_cons_self))
      (fun _ => reads_forms fs fun g hg => hfs g (List.mem_cons_of_mem f hg)) h

theorem reads_entries : (entries : List (Form × Form)) → {text : List Char} →
    leavesEntries Value.Rereadable (fun name => (Form.sym name).SpelledBy name.toList) entries →
    Siblings (entryPieces entries) text → Reads text (entries.flatMap fun (k, v) => [k, v])
  | [], _, _, h => by
    cases h
    exact .nil
  | (k, v) :: rest, text, ⟨hk, hv, hrest⟩, h => by
    have hvalue : ∀ t, Siblings (v.piece :: entryPieces rest) t →
        Reads t ([v] ++ rest.flatMap fun (k, v) => [k, v]) := fun _ =>
      .of_siblings_cons (fun _ => v.reads_of_laidOut hv) (fun _ => reads_entries rest hrest)
    have hentry : Reads text ([k] ++ ([v] ++ rest.flatMap fun (k, v) => [k, v])) :=
      .of_siblings_cons (fun _ => k.reads_of_laidOut hk) hvalue h
    exact hentry

end

/-! ## Reading gives such forms -/

/-- Where a literal stands does not matter to the form it stands for. -/
theorem Source.Literal.toForm_of_toForm {l : Literal} {f : Form} {offset : Nat}
    (h : l.toForm offset = .ok f) (other : Nat) : l.toForm other = .ok f := by
  have hpattern : ∀ (kind : PatternKind) (body : List Char) (start start' : Nat),
      Literal.toForm.patternForm kind start body = .ok f →
      Literal.toForm.patternForm kind start' body = .ok f := by
    intro kind body start start' h
    unfold Literal.toForm.patternForm at h ⊢
    split at h
    · exact h
    · cases h
  cases l with
  | regex body => exact hpattern .regex body _ _ h
  | glob body => exact hpattern .glob body _ _ h
  | text content => exact h
  | keyword name => exact h
  | number n => exact h
  | symbol name => exact h

/-- A literal that is kept as written spells its form. -/
theorem spelledBy_of_cut {l : Literal} {f : Form} {offset : Nat} {text : List Char} (hc : l.Cut)
    (hf : l.toForm offset = .ok f) (ht : l.verbatim? = some text) : f.SpelledBy text := by
  obtain ⟨cs, after, hnext⟩ := hc
  exact ⟨l, spelledBy_verbatim hnext ht, Literal.toForm_of_toForm hf⟩

omit [PatternReader] in
/-- A numeral stands for the integer that it writes, or for its float. -/
theorem numberValue_eq (n : Decimal.Numeral) :
    (∃ k : Int64, n.toInt? = some k.toInt ∧ Literal.toForm.numberValue n = .int k) ∨
      Literal.toForm.numberValue n = .float n.toFloat := by
  unfold Literal.toForm.numberValue
  split
  · next k hk =>
    split
    · next hrange =>
      have hself : (Int64.ofInt k).toInt = k :=
        Int64.toInt_ofInt_of_le hrange.1 (Int.lt_add_one_of_le hrange.2)
      exact .inl ⟨.ofInt k, hk.trans (congrArg some hself.symm), rfl⟩
    · exact .inr rfl
  · exact .inr rfl

/-- Integers are spelled by their digits. -/
theorem Value.rereadable_int (n : Int64) : (Value.int n).Rereadable := by
  obtain ⟨m, hm, hspelled⟩ := spelledBy_int n.toInt
  refine ⟨.number m, hspelled, fun offset => ?_⟩
  have hrange : Int64.minValue.toInt ≤ n.toInt ∧ n.toInt ≤ Int64.maxValue.toInt :=
    ⟨n.minValue_le_toInt, n.toInt_le⟩
  simp only [Literal.toForm, Literal.toForm.numberValue, hm, if_pos hrange, Int64.ofInt_toInt]

/-- The display of a pattern has its body as it was written. -/
theorem toList_render_ofSource {kind : PatternKind} {body : List Char} {p : Pattern}
    (h : Pattern.ofSource kind (String.ofList body) = .ok p) :
    p.render.toList = match kind with
      | .regex => '#' :: '"' :: (body ++ ['"'])
      | .glob => '#' :: 'g' :: 'l' :: 'o' :: 'b' :: '"' :: (body ++ ['"']) := by
  rw [Pattern.render, Pattern.kind_ofSource h, Pattern.source_ofSource h]
  cases kind <;> simp [PatternKind.mark]

/-- A pattern literal is reread when what it was written as spells it. -/
theorem rereadable_pattern {kind : PatternKind} {start : Nat} {body text : List Char} {f : Form}
    (hf : Literal.toForm.patternForm kind start body = .ok f) (hs : f.SpelledBy text)
    (ht : ∀ p, Pattern.ofSource kind (String.ofList body) = .ok p → p.render.toList = text) :
    f.Rereadable := by
  unfold Literal.toForm.patternForm at hf
  split at hf
  · next p hp =>
    cases hf
    show Form.SpelledBy _ p.render.toList
    rwa [ht p hp]
  · cases hf

/-- The form of a literal that was cut is spelled by its display if it is legible. -/
theorem rereadable_literal {l : Literal} {f : Form} {offset : Nat} (hc : l.Cut)
    (hf : l.toForm offset = .ok f) (hl : f.Legible) : f.Rereadable := by
  have hverbatim : ∀ text, l.verbatim? = some text → f.SpelledBy text := fun _ ht =>
    spelledBy_of_cut hc hf ht
  cases l with
  | regex body => exact rereadable_pattern hf (hverbatim _ rfl) fun _ hp => toList_render_ofSource hp
  | glob body => exact rereadable_pattern hf (hverbatim _ rfl) fun _ hp => toList_render_ofSource hp
  | text content =>
    cases hf
    refine ⟨.text content, ?_, fun _ => rfl⟩
    show Literal.SpelledBy _ (quoted (String.ofList content)).toList
    simpa using spelledBy_quoted hl
  | keyword name =>
    cases hf
    show Form.SpelledBy _ (":" ++ String.ofList name).toList
    simpa using hverbatim _ rfl
  | number n =>
    cases hf
    rcases numberValue_eq n with ⟨k, -, hk⟩ | hx
    · rw [hk]
      exact Value.rereadable_int k
    · rw [hx] at hl
      exact hl.elim
  | symbol name =>
    have hspelled : f.SpelledBy (String.ofList name).toList := by simpa using hverbatim _ rfl
    rw [Literal.toForm] at hf
    -- Whatever the name stands for has the name as its text.
    generalize String.ofList name = s at hf hspelled
    split at hf <;> cases hf <;> exact hspelled

/-- The name that a set with other elements than literals is called by. -/
theorem spelledBy_hashSet : (Form.sym "hash-set").SpelledBy "hash-set".toList := by
  have hname : name? "hash-set".toList = some ("hash-set".toList, []) := by decide
  exact ⟨.symbol _, spelledBy_symbol (by decide) hname nofun nofun, fun _ => rfl⟩

/-- The form of brackets around forms that are reread if they are legible is so, too. -/
theorem rereadable_brackets {b : Bracket} {items : List Form} {f : Form}
    (hitems : ∀ g ∈ items, g.Legible → g.Rereadable) (hf : b.form? items = some f)
    (hl : f.Legible) : f.Rereadable := by
  have hall : (∀ g ∈ items, g.Legible) → ∀ g ∈ items, g.Rereadable := fun h g hg =>
    hitems g hg (h g hg)
  cases b with
  | list =>
    cases hf
    exact leavesAll_iff.2 (hall (leavesAll_iff.1 hl))
  | vector =>
    cases hf
    exact leavesAll_iff.2 (hall (leavesAll_iff.1 hl))
  | map =>
    obtain ⟨entries, hentries, rfl⟩ := Option.map_eq_some_iff.1 hf
    obtain rfl := flatten_of_pairUp? hentries
    exact leavesEntries_iff.2 (leavesAll_iff.2 (hall (leavesAll_iff.1 (leavesEntries_iff.1 hl))))
  | set =>
    cases hf
    unfold Form.ofSet at hl ⊢
    split at hl
    · next values hvalues =>
      obtain rfl := literals?_eq_some_iff.1 hvalues
      -- Of equal elements one is kept, and only what is kept has to be legible.
      refine ⟨Elements.increasing_ofList values, rereadableItems_iff.2 fun v hv => ?_⟩
      exact hitems (.lit v) (List.mem_map_of_mem (Elements.mem_of_mem_ofList hv))
        (legibleItems_iff.1 hl v hv)
    · exact ⟨spelledBy_hashSet, leavesAll_iff.2 (hall (leavesAll_iff.1 hl.2))⟩

mutual

theorem Source.Tree.rereadable : (t : Tree) → {f : Form} → t.Cut → t.toForm = .ok f →
    f.Legible → f.Rereadable
  | .leaf _ _, _, .leaf _ hl, h, hf => rereadable_literal hl h hf
  | .node _ _ children, _, .node _ _ hc, h, hf => by
    obtain ⟨items, hitems, hform⟩ := toForm_node_eq_ok.1 h
    exact rereadable_brackets (rereadable_trees children hc hitems) hform hf

theorem rereadable_trees : (ts : List Tree) → {fs : List Form} → (∀ t ∈ ts, t.Cut) →
    treesToForms ts = .ok fs → ∀ f ∈ fs, f.Legible → f.Rereadable
  | [], _, _, h => by
    cases h
    nofun
  | t :: ts, _, hc, h => by
    obtain ⟨f, fs, ht, hts, rfl⟩ := treesToForms_cons_eq_ok.1 h
    intro g hg
    rcases List.mem_cons.1 hg with rfl | hg
    · exact t.rereadable (hc t List.mem_cons_self) ht
    · exact rereadable_trees ts (fun u hu => hc u (List.mem_cons_of_mem t hu)) hts g hg

end

namespace Form

/-- A legible form that was read is determined by its display. -/
theorem rereadable_of_read {source : String} {form : Form} (h : read source = .ok form)
    (hl : form.Legible) : form.Rereadable := by
  unfold read at h
  split at h
  · next t ht => exact t.rereadable (cut_of_forest ht t List.mem_cons_self) h hl
  · cases h
  · cases h
  · cases h

/-- A form that was read and has no floats and only legible texts is read again from its display,
and from every text that lays the display out in another way: with any layout instead of the
layout between neighbours, and with layout inside the brackets. -/
theorem read_laidOut {source : String} {form : Form} (h : read source = .ok form)
    (hl : form.Legible) :
    read form.render = .ok form ∧
      ∀ text : String, form.piece.LaidOut text.toList → read text = .ok form := by
  have hall : ∀ text : String, form.piece.LaidOut text.toList → read text = .ok form :=
    fun _ htext => read_of_reads (form.reads_of_laidOut (rereadable_of_read h hl) htext)
  exact ⟨hall form.render form.laidOut_render, hall⟩

end Form

end Reader

namespace Form

/-- A vector of a set and a text that was read is read again when it is laid out over two lines,
with a comment at the end of the first. -/
theorem read_laidOut_vector :
    let form : Form := .vector [.lit (.set [.int 1, .int 2]), .lit (.str "a\n")]
    read "[#\x7b2 1\x7d \"a\\n\"]" = .ok form ∧ form.Legible ∧
      form.piece.LaidOut "[ #\x7b1,2\x7d ; and\n\"a\\n\"]".toList ∧
      read "[ #\x7b1,2\x7d ; and\n\"a\\n\"]" = .ok form := by
  intro form
  have hread : read "[#\x7b2 1\x7d \"a\\n\"]" = .ok form := by cbv
  have hlegible : form.Legible := by
    have htext : ∀ c ∈ ['a', '\n'], Text.Legible c := by
      intro c hc
      rcases List.mem_pair.1 hc with rfl | rfl <;> decide
    exact ⟨⟨trivial, trivial, trivial⟩, htext, trivial⟩
  have hcomma : Layout [','] := .spacing rfl .nil
  have hcomment : Layout (';' :: (" and".toList ++ ['\n'])) := .comment (by decide) .nil
  have hset : Piece.LaidOut (.group .set [.atom ['1'], .atom ['2']]) "#\x7b1,2\x7d".toList :=
    .tight .set (.cons (.atom ['1']) hcomma (List.cons_ne_nil _ _) (.single (.atom ['2'])))
  have hlaid : form.piece.LaidOut "[ #\x7b1,2\x7d ; and\n\"a\\n\"]".toList :=
    .group .vector .space
      (.cons hset (.spacing rfl hcomment) (List.cons_ne_nil _ _)
        (.single (.atom "\"a\\n\"".toList))) .nil
  exact ⟨hread, hlegible, hlaid, (read_laidOut hread hlegible).2 _ hlaid⟩

end Form

end Attest
