import Attest.Proofs.Layout
import Attest.Proofs.Spelling
/-!
# Texts that read as forms

A text reads as some forms when cutting it, in front of whatever ends a name, takes tokens that
add one tree for each form to what has been read so far (`Reads`). Layout reads as nothing
(`Reads.layout`), the spelling of a literal as one form (`Reads.literal`), texts one after the
other as their forms together (`Reads.append`), and brackets as the collection of what they
enclose (`Reads.group`).
-/

namespace Attest

open Source Decimal Text

namespace Source

/-! ## Cutting -/

/-- A cut text with more tokens in front. -/
def Scan.behind (lexemes : List Lexeme) (s : Scan) : Scan :=
  { s with lexemes := lexemes ++ s.lexemes }

theorem Scan.behind_behind (as bs : List Lexeme) (s : Scan) :
    (s.behind bs).behind as = s.behind (as ++ bs) := by
  simp [Scan.behind]

/-- Cutting passes over the layout at the start, takes a token and goes on behind it. -/
theorem scanFrom_eq (offset : Nat) (cs : List Char) :
    Scan.scanFrom offset cs =
      match skipLayout false cs with
      | [] => ⟨[], none, offset + byteLength cs⟩
      | c :: rest =>
        let start := offset + (byteLength cs - byteLength (c :: rest))
        match Token.next? (c :: rest) with
        | none => ⟨[], some start, offset + byteLength cs⟩
        | some (token, after) =>
          (Scan.scanFrom (start + (byteLength (c :: rest) - byteLength after)) after).behind
            [⟨start, token⟩] := by
  rw [Scan.scanFrom]
  split
  · next hskip => rw [hskip]
  · next c rest hskip =>
    rw [hskip]
    dsimp only
    split
    · next hnone => rw [hnone]
    · next token after hsome =>
      rw [hsome]
      rfl

theorem of_isSpacing {c : Char} (h : isSpacing c = true) :
    c = ' ' ∨ c = '\t' ∨ c = '\r' ∨ c = '\n' ∨ c = ',' := by
  simpa [isSpacing, or_assoc] using h

/-- What begins with a token begins with no layout. -/
theorem skipLayout_of_next? {cs after : List Char} {t : Token}
    (h : Token.next? cs = some (t, after)) : skipLayout false cs = cs := by
  cases cs with
  | nil => rfl
  | cons c rest =>
    have hs : isSpacing c = false := by
      cases hs : isSpacing c with
      | false => rfl
      | true =>
        -- No token begins with any of these.
        rcases of_isSpacing hs with rfl | rfl | rfl | rfl | rfl <;> cases h
    have hc : c ≠ ';' := by
      rintro rfl
      cases h
    simp [skipLayout, hs, hc]

/-- Cutting takes the token that a text begins with. -/
theorem scanFrom_of_next? {cs after : List Char} {t : Token} (offset : Nat)
    (h : Token.next? cs = some (t, after)) :
    ∃ next, Scan.scanFrom offset cs = (Scan.scanFrom next after).behind [⟨offset, t⟩] := by
  refine ⟨offset + (byteLength cs - byteLength after), ?_⟩
  cases cs with
  | nil => cases h
  | cons c rest =>
    rw [scanFrom_eq, skipLayout_of_next? h]
    simp [h]

/-- A comment is over at the end of its line. -/
theorem skipLayout_comment {body : List Char} (hb : '\n' ∉ body) (rest : List Char) :
    skipLayout true (body ++ '\n' :: rest) = skipLayout false rest := by
  induction body with
  | nil => rfl
  | cons c cs ih =>
    have hc : (c != '\n') = true := bne_iff_ne.2 fun h => hb (h ▸ List.mem_cons_self)
    simpa [skipLayout, hc] using ih fun h => hb (List.mem_cons_of_mem c h)

/-- Layout is passed over. -/
theorem skipLayout_append {gap : List Char} (h : Layout gap) (cs : List Char) :
    skipLayout false (gap ++ cs) = skipLayout false cs := by
  induction h with
  | nil => rfl
  | spacing hc h ih => simpa [skipLayout, hc] using ih
  | @comment body gap hb h ih =>
    have hsemi : isSpacing ';' = false := by decide
    simpa [skipLayout, hsemi, skipLayout_comment hb] using ih

/-- What follows the layout at the start of a text is the end of the text. -/
theorem skipLayout_suffix (comment : Bool) (cs : List Char) :
    ∃ gap, cs = gap ++ skipLayout comment cs := by
  fun_induction skipLayout comment cs with
  | case1 => exact ⟨[], rfl⟩
  | case2 c cs ih => exact ih.imp' (c :: ·) fun gap h => congrArg (c :: ·) h
  | case3 c cs hs ih => exact ih.imp' (c :: ·) fun gap h => congrArg (c :: ·) h
  | case4 c cs hs hc ih => exact ih.imp' (c :: ·) fun gap h => congrArg (c :: ·) h
  | case5 c cs hs hc => exact ⟨[], rfl⟩

/-- Cutting a text with layout in front is cutting the text, further on. -/
theorem scanFrom_layout {gap : List Char} (h : Layout gap) (offset : Nat) (cs : List Char) :
    Scan.scanFrom offset (gap ++ cs) = Scan.scanFrom (offset + byteLength gap) cs := by
  obtain ⟨first, hfirst⟩ := skipLayout_suffix false cs
  have hle : byteLength cs = byteLength first + byteLength (skipLayout false cs) := by
    rw [← byteLength_append, ← hfirst]
  rw [scanFrom_eq, scanFrom_eq, skipLayout_append h, byteLength_append]
  -- Offsets are counted from the start in one text and from behind the layout in the other.
  have hend : offset + (byteLength gap + byteLength cs) =
      offset + byteLength gap + byteLength cs := by omega
  have hstart : offset + (byteLength gap + byteLength cs - byteLength (skipLayout false cs)) =
      offset + byteLength gap + (byteLength cs - byteLength (skipLayout false cs)) := by omega
  cases hskip : skipLayout false cs with
  | nil => simp only [hend]
  | cons c rest =>
    rw [hskip] at hstart
    simp only [hend, hstart]

/-! ## Trees -/

/-- Trees added between the brackets of an open collection. -/
theorem foldl_add_opened (d : Draft) (f : Frame) (trees : List Tree) :
    trees.foldl Draft.add { d with opened := f :: d.opened } =
      { d with opened := { f with children := trees.reverse ++ f.children } :: d.opened } := by
  induction trees generalizing f with
  | nil => rfl
  | cons t ts ih =>
    rw [List.foldl_cons, Draft.add, ih]
    simp

/-- Trees added outside all brackets. -/
theorem foldl_add_done (done trees : List Tree) :
    trees.foldl Draft.add ⟨done, []⟩ = ⟨trees.reverse ++ done, []⟩ := by
  induction trees generalizing done with
  | nil => rfl
  | cons t ts ih =>
    rw [List.foldl_cons, Draft.add, ih]
    simp

/-- The tokens of brackets around trees add one tree. -/
theorem foldlM_brackets (b : Bracket) (offset last : Nat) {lexemes : List Lexeme}
    {trees : List Tree}
    (hadd : ∀ d : Draft, lexemes.foldlM Draft.step d = .ok (trees.foldl Draft.add d)) (d : Draft) :
    (⟨offset, .opening b⟩ :: (lexemes ++ [⟨last, .closing b.closer⟩])).foldlM Draft.step d =
      .ok (d.add (.node offset b trees)) := by
  have hopened : d.step ⟨offset, .opening b⟩ =
      .ok { d with opened := ⟨b, offset, []⟩ :: d.opened } := rfl
  have hclosed : Draft.step { d with opened := ⟨b, offset, trees.reverse⟩ :: d.opened }
      ⟨last, .closing b.closer⟩ = .ok (d.add (.node offset b trees)) := by
    simp [Draft.step]
  rw [List.foldlM_cons, hopened]
  show (lexemes ++ [_]).foldlM Draft.step _ = _
  rw [List.foldlM_append, hadd, foldl_add_opened, List.append_nil]
  show [_].foldlM Draft.step _ = _
  rw [List.foldlM_cons, hclosed]
  rfl

/-- What a token that is taken does: it opens a collection, adds a leaf, or closes the innermost open
collection. -/
theorem step_eq_ok {d d' : Draft} {x : Lexeme} (h : d.step x = .ok d') :
    (∃ b, x.token = .opening b ∧ d' = { d with opened := ⟨b, x.offset, []⟩ :: d.opened }) ∨
    (∃ l, x.token = .literal l ∧ d' = d.add (.leaf x.offset l)) ∨
    ∃ f fs, x.token = .closing f.bracket.closer ∧ d.opened = f :: fs ∧
      d' = Draft.add { d with opened := fs } (.node f.offset f.bracket f.children.reverse) := by
  unfold Draft.step at h
  cases hx : x.token with
  | opening b =>
    rw [hx] at h
    cases h
    exact .inl ⟨b, rfl, rfl⟩
  | literal l =>
    rw [hx] at h
    cases h
    exact .inr (.inl ⟨l, rfl, rfl⟩)
  | closing c =>
    rw [hx] at h
    cases hopened : d.opened with
    | nil =>
      simp only [hopened] at h
      cases h
    | cons f fs =>
      simp only [hopened] at h
      split at h
      · next hcloser =>
        cases h
        exact .inr (.inr ⟨f, fs, by rw [hcloser], rfl, rfl⟩)
      · cases h

section Forms

variable [PatternReader]

/-- Trees are forms when the first one is and the others are. -/
theorem treesToForms_cons_eq_ok {t : Tree} {ts : List Tree} {forms : List Form} :
    treesToForms (t :: ts) = .ok forms ↔
      ∃ f fs, t.toForm = .ok f ∧ treesToForms ts = .ok fs ∧ forms = f :: fs := by
  rw [treesToForms]
  cases ht : t.toForm with
  | error e => exact ⟨nofun, fun ⟨_, _, h, _⟩ => nomatch h⟩
  | ok f =>
    cases hts : treesToForms ts with
    | error e => exact ⟨nofun, fun ⟨_, _, _, h, _⟩ => nomatch h⟩
    | ok fs =>
      constructor
      · rintro ⟨⟩
        exact ⟨f, fs, rfl, rfl, rfl⟩
      · rintro ⟨_, _, ⟨⟩, ⟨⟩, rfl⟩
        rfl

/-- Trees behind others are the forms that they are on their own. -/
theorem treesToForms_behind {as bs : List Tree} {fs : List Form} (h : treesToForms as = .ok fs) :
    treesToForms (as ++ bs) = (treesToForms bs).map (fs ++ ·) := by
  induction as generalizing fs with
  | nil =>
    cases h
    rw [List.nil_append]
    cases treesToForms bs <;> rfl
  | cons t ts ih =>
    obtain ⟨f, fs, ht, hts, rfl⟩ := treesToForms_cons_eq_ok.1 h
    rw [List.cons_append, treesToForms, ht, ih hts]
    cases treesToForms bs <;> rfl

theorem treesToForms_append {as bs : List Tree} {fs gs : List Form}
    (ha : treesToForms as = .ok fs) (hb : treesToForms bs = .ok gs) :
    treesToForms (as ++ bs) = .ok (fs ++ gs) := by
  rw [treesToForms_behind ha, hb]
  rfl

theorem treesToForms_singleton {t : Tree} {f : Form} (h : t.toForm = .ok f) :
    treesToForms [t] = .ok [f] :=
  treesToForms_cons_eq_ok.2 ⟨f, [], h, rfl, rfl⟩

/-- Trees that are one form are one tree. -/
theorem of_treesToForms_eq_singleton {trees : List Tree} {f : Form}
    (h : treesToForms trees = .ok [f]) : ∃ t, trees = [t] ∧ t.toForm = .ok f := by
  cases trees with
  | nil => cases h
  | cons t ts =>
    obtain ⟨g, gs, ht, hts, heq⟩ := treesToForms_cons_eq_ok.1 h
    cases heq
    cases ts with
    | nil => exact ⟨t, rfl, ht⟩
    | cons u us =>
      obtain ⟨_, _, _, _, heq⟩ := treesToForms_cons_eq_ok.1 hts
      cases heq

/-- The form of brackets around forms. -/
def Bracket.form? : Bracket → List Form → Option Form
  | .list, items => some (.list items)
  | .vector, items => some (.vector items)
  | .map, items => (pairUp? items).map .map
  | .set, items => some (.ofSet items)

/-- Brackets are a form when what they enclose is, in the number they need. -/
theorem toForm_node_eq_ok {offset : Nat} {b : Bracket} {children : List Tree} {f : Form} :
    (Tree.node offset b children).toForm = .ok f ↔
      ∃ items, treesToForms children = .ok items ∧ b.form? items = some f := by
  rw [Tree.toForm]
  cases treesToForms children with
  | error e => exact ⟨nofun, fun ⟨_, h, _⟩ => nomatch h⟩
  | ok items =>
    cases b with
    | map => cases hp : pairUp? items <;> simp [Bracket.form?, hp, bind, Except.bind, pure,
        Except.pure, throw, throwThe, MonadExceptOf.throw]
    | _ => simp [Bracket.form?, bind, Except.bind, pure, Except.pure]

end Forms

/-! ## Reading -/

/-- Layout ends a name. -/
theorem Layout.ended_of_ne_nil {gap : List Char} (h : Layout gap) (hne : gap ≠ [])
    (rest : List Char) : Ended (gap ++ rest) := by
  cases h with
  | nil => exact absurd rfl hne
  | @spacing c gap hc h =>
    refine .cons ?_ (gap ++ rest)
    rcases of_isSpacing hc with rfl | rfl | rfl | rfl | rfl <;> decide
  | comment hb h => exact .cons (by decide) _

theorem Layout.ended {gap rest : List Char} (h : Layout gap) (hr : Ended rest) :
    Ended (gap ++ rest) := by
  by_cases hne : gap = []
  · simpa [hne] using hr
  · exact h.ended_of_ne_nil hne rest

section Reading

variable [PatternReader]

/-- A text that reads as some forms, wherever it starts, whatever ended text follows and whatever
has been read before. -/
def Reads (text : List Char) (forms : List Form) : Prop :=
  ∀ offset rest, Ended rest → ∃ next lexemes trees,
    Scan.scanFrom offset (text ++ rest) = (Scan.scanFrom next rest).behind lexemes ∧
    (∀ d : Draft, lexemes.foldlM Draft.step d = .ok (trees.foldl Draft.add d)) ∧
    treesToForms trees = .ok forms

namespace Reads

variable {text a b gap : List Char} {fs gs : List Form} {f : Form}

theorem nil : Reads [] [] :=
  fun offset _ _ => ⟨offset, [], [], rfl, fun _ => rfl, rfl⟩

/-- Layout in front changes nothing. -/
theorem layout_append (hg : Layout gap) (h : Reads text fs) : Reads (gap ++ text) fs := by
  intro offset rest hr
  rw [List.append_assoc, scanFrom_layout hg]
  exact h _ rest hr

/-- Texts one after the other read as their forms together, if the first is over where the second
begins. -/
theorem append (ha : Reads a fs) (hb : Reads b gs) (hend : ∀ rest, Ended rest → Ended (b ++ rest)) :
    Reads (a ++ b) (fs ++ gs) := by
  intro offset rest hr
  obtain ⟨mid, las, tas, hcuta, hadda, hformsa⟩ := ha offset (b ++ rest) (hend rest hr)
  obtain ⟨next, lbs, tbs, hcutb, haddb, hformsb⟩ := hb mid rest hr
  refine ⟨next, las ++ lbs, tas ++ tbs, ?_, fun d => ?_, treesToForms_append hformsa hformsb⟩
  · rw [List.append_assoc, hcuta, hcutb, Scan.behind_behind]
  · rw [List.foldlM_append, hadda, List.foldl_append]
    exact haddb _

/-- Layout behind changes nothing. -/
theorem append_layout (h : Reads text fs) (hg : Layout gap) : Reads (text ++ gap) fs := by
  have hgap : Reads gap [] := by simpa using layout_append hg nil
  simpa using h.append hgap fun rest => hg.ended

/-- Texts with layout between them read as their forms together. -/
theorem append_gap (ha : Reads a fs) (hg : Layout gap) (hne : gap ≠ []) (hb : Reads b gs) :
    Reads (a ++ gap ++ b) (fs ++ gs) := by
  -- The first text is over at the gap, so nothing is asked of how the second begins.
  have h := ha.append (layout_append hg hb) fun rest _ => by
    rw [List.append_assoc]
    exact hg.ended_of_ne_nil hne (b ++ rest)
  simpa only [List.append_assoc] using h

/-- The spelling of a literal reads as its form. -/
theorem literal {l : Literal} (hl : l.SpelledBy text) (hf : ∀ offset, l.toForm offset = .ok f) :
    Reads text [f] := by
  intro offset rest hr
  obtain ⟨next, hnext⟩ := scanFrom_of_next? offset (hl rest hr)
  refine ⟨next, [⟨offset, .literal l⟩], [.leaf offset l], hnext, fun d => rfl,
    treesToForms_singleton ?_⟩
  rw [Tree.toForm, hf]

/-- Brackets around a text read as the collection of its forms. -/
theorem group (b : Bracket) (h : Reads text fs) (hf : b.form? fs = some f) :
    Reads (b.opening ++ text ++ b.closer.text) [f] := by
  intro offset rest hr
  have hopen : Token.next? (b.opening ++ (text ++ (b.closer.text ++ rest))) =
      some (.opening b, text ++ (b.closer.text ++ rest)) := by cases b <;> rfl
  have hclose : Token.next? (b.closer.text ++ rest) = some (.closing b.closer, rest) := by
    cases b <;> rfl
  -- Whatever stands last between the brackets is over where they close.
  have hended : Ended (b.closer.text ++ rest) := by
    cases b <;> exact .cons (by decide) rest
  obtain ⟨first, hfirst⟩ := scanFrom_of_next? offset hopen
  obtain ⟨last, lexemes, trees, hcut, hadd, hforms⟩ := h first _ hended
  obtain ⟨next, hlast⟩ := scanFrom_of_next? last hclose
  refine ⟨next, ⟨offset, .opening b⟩ :: (lexemes ++ [⟨last, .closing b.closer⟩]),
    [.node offset b trees], ?_, fun d => ?_,
    treesToForms_singleton (toForm_node_eq_ok.2 ⟨fs, hforms, hf⟩)⟩
  · rw [List.append_assoc, List.append_assoc, hfirst, hcut, hlast, Scan.behind_behind,
      Scan.behind_behind]
    rfl
  · exact foldlM_brackets b offset last hadd d

/-- A laid-out group reads as the collection of what its pieces read as. -/
theorem of_laidOut_group {b : Bracket} {children : List Piece}
    (hc : ∀ inner, Siblings children inner → Reads inner fs) (hf : b.form? fs = some f)
    (h : (Piece.group b children).LaidOut text) : Reads text [f] := by
  cases h with
  | group _ hb hi ha => exact group b ((layout_append hb (hc _ hi)).append_layout ha) hf

/-- Laid-out pieces read as what each of them reads as. -/
theorem of_siblings_cons {p : Piece} {ps : List Piece} (hp : ∀ t, p.LaidOut t → Reads t fs)
    (hps : ∀ t, Siblings ps t → Reads t gs) (h : Siblings (p :: ps) text) :
    Reads text (fs ++ gs) := by
  cases h with
  | single h => simpa using (hp _ h).append (hps [] .nil) fun rest hr => hr
  | cons h hg hne hm => exact (hp _ h).append_gap hg hne (hps _ hm)

end Reads

/-- A text that reads as one form is read as that form. -/
theorem read_of_reads {text : String} {f : Form} (h : Reads text.toList [f]) :
    Form.read text = .ok f := by
  obtain ⟨next, lexemes, trees, hcut, hadd, hforms⟩ := h 0 [] .nil
  have hcutall : Scan.ofText text = ⟨lexemes, none, next⟩ := by
    rw [Scan.ofText, ← List.append_nil text.toList, hcut]
    simp [scanFrom_eq, skipLayout, Scan.behind, byteLength]
  have hforest : forest text = .ok trees := by
    rw [forest, hcutall, Scan.forest, hadd, foldl_add_done]
    simp [Draft.finish, bind, Except.bind]
  obtain ⟨t, rfl, ht⟩ := of_treesToForms_eq_singleton hforms
  rw [Form.read, hforest]
  exact ht

end Reading

/-! ## What trees hold -/

/-- A literal that was cut from some text. -/
def Literal.Cut (l : Literal) : Prop :=
  ∃ cs after, Token.next? cs = some (.literal l, after)

/-- A tree of literals that were cut. -/
inductive Tree.Cut : Tree → Prop where
  | leaf (offset : Nat) {l : Literal} (h : l.Cut) : Tree.Cut (.leaf offset l)
  | node (offset : Nat) (b : Bracket) {children : List Tree} (h : ∀ t ∈ children, t.Cut) :
    Tree.Cut (.node offset b children)

/-- A draft with trees of literals that were cut. -/
structure Draft.Cut (d : Draft) : Prop where
  done : ∀ t ∈ d.done, t.Cut
  opened : ∀ f ∈ d.opened, ∀ t ∈ f.children, t.Cut

theorem Draft.Cut.add {d : Draft} {t : Tree} (hd : d.Cut) (ht : t.Cut) : (d.add t).Cut := by
  unfold Draft.add
  split
  · next hopened =>
    refine ⟨fun u hu => ?_, hd.opened⟩
    rcases List.mem_cons.1 hu with rfl | hu
    · exact ht
    · exact hd.done u hu
  · next f fs hopened =>
    refine ⟨hd.done, fun g hg u hu => ?_⟩
    rcases List.mem_cons.1 hg with rfl | hg
    · rcases List.mem_cons.1 hu with rfl | hu
      · exact ht
      · exact hd.opened f (by simp [hopened]) u hu
    · exact hd.opened g (by simp [hopened, hg]) u hu

/-- A token that is taken keeps a draft one of literals that were cut. -/
theorem Draft.Cut.step {d d' : Draft} {x : Lexeme} (hd : d.Cut)
    (hx : ∀ l, x.token = .literal l → l.Cut) (h : d.step x = .ok d') : d'.Cut := by
  obtain ⟨b, -, rfl⟩ | ⟨l, hl, rfl⟩ | ⟨f, fs, -, hopened, rfl⟩ := step_eq_ok h
  · refine ⟨hd.done, fun g hg u hu => ?_⟩
    rcases List.mem_cons.1 hg with rfl | hg
    · cases hu
    · exact hd.opened g hg u hu
  · exact hd.add (.leaf _ (hx l hl))
  · have hrest : Draft.Cut { d with opened := fs } :=
      ⟨hd.done, fun g hg => hd.opened g (by simp [hopened, hg])⟩
    -- The children of the frame that is closed become those of the node.
    refine hrest.add (.node _ _ fun t ht => ?_)
    exact hd.opened f (by simp [hopened]) t (List.mem_reverse.1 ht)

theorem Draft.Cut.run {xs : List Lexeme} {d d' : Draft} (hd : d.Cut)
    (hxs : ∀ x ∈ xs, ∀ l, x.token = .literal l → l.Cut) (h : xs.foldlM Draft.step d = .ok d') :
    d'.Cut := by
  induction xs generalizing d with
  | nil =>
    cases h
    exact hd
  | cons x xs ih =>
    rw [List.foldlM_cons] at h
    cases hstep : d.step x with
    | error e =>
      rw [hstep] at h
      cases h
    | ok d₁ =>
      rw [hstep] at h
      exact ih (hd.step (hxs x List.mem_cons_self) hstep)
        (fun y hy => hxs y (List.mem_cons_of_mem x hy)) h

/-- The tokens of a text were cut from it. -/
theorem cut_of_mem_lexemes (offset : Nat) (cs : List Char) :
    ∀ x ∈ (Scan.scanFrom offset cs).lexemes, ∀ l, x.token = .literal l → l.Cut := by
  induction hn : cs.length using Nat.strongRecOn generalizing offset cs with
  | _ n ih =>
    rw [scanFrom_eq]
    split
    · nofun
    · next c rest hskip =>
      dsimp only
      split
      · nofun
      · next token after hnext =>
        intro x hx l hl
        rcases List.mem_cons.1 hx with rfl | hx
        · cases hl
          exact ⟨_, _, hnext⟩
        · have hle := length_skipLayout_le false cs
          have hlt := length_lt_of_next? hnext
          rw [hskip] at hle
          exact ih after.length (by omega) _ after rfl x hx l hl

/-- A text is a forest when all of it is cut into tokens that leave no collection open. -/
theorem of_forest_eq_ok {text : String} {trees : List Tree} (h : forest text = .ok trees) :
    (Scan.ofText text).stuck = none ∧
      (Scan.ofText text).lexemes.foldlM Draft.step {} = .ok ⟨trees.reverse, []⟩ := by
  unfold forest Scan.forest at h
  cases hrun : (Scan.ofText text).lexemes.foldlM Draft.step {} with
  | error f =>
    rw [hrun] at h
    cases h
  | ok d =>
    rw [hrun] at h
    replace h : d.finish (Scan.ofText text).stuck (Scan.ofText text).size = .ok trees := h
    unfold Draft.finish at h
    split at h
    · cases h
    · cases h
    · next hstuck hopened =>
      cases h
      obtain ⟨done, opened⟩ := d
      cases hopened
      exact ⟨hstuck, by rw [List.reverse_reverse]⟩

/-- The trees of a text hold literals that were cut from it. -/
theorem cut_of_forest {text : String} {trees : List Tree} (h : forest text = .ok trees) :
    ∀ t ∈ trees, t.Cut := by
  obtain ⟨-, hrun⟩ := of_forest_eq_ok h
  have hstart : Draft.Cut {} := ⟨nofun, nofun⟩
  have hd := hstart.run (cut_of_mem_lexemes 0 text.toList) hrun
  exact fun t ht => hd.done t (List.mem_reverse.2 ht)

end Source

end Attest
