import Attest.Pattern.Reading
import Attest.Proofs.Cutting
import Mathlib.Algebra.Module.Submodule.Lattice
/-!
# Where a fault lies

A syntax fault parts a text in two (`exists_fault`). What stands in front of it can be read once its open
collections are closed, and what stands behind it begins with what does not belong there: a
closing bracket of no open collection, no token at all, or the end of the text inside a
collection (`Offends`). So the place that is told for a fault is where the first of them is
(`Form.readAll_syntaxFault`).
-/

namespace Attest

open Source

namespace Source

/-! ## Open collections -/

/-- The collections that are open behind a token, innermost first. -/
def Token.nest (opened : List Bracket) : Token → List Bracket
  | .opening b => b :: opened
  | .closing _ => opened.tail
  | .literal _ => opened

/-- The collections that a text opens and does not close, innermost first. -/
def openBrackets (text : String) : List Bracket :=
  ((Scan.ofText text).lexemes.map (·.token)).foldl Token.nest []

/-- The text that closes collections, innermost first. -/
def closers (opened : List Bracket) : List Char := opened.flatMap (·.closer.text)

/-- A text that begins with what does not belong there when some collections are open. -/
inductive Offends (opened : List Bracket) : List Char → Prop where
  /-- The text is over, but not all collections are. -/
  | ending (h : opened ≠ []) : Offends opened []
  | stuck {cs : List Char} (h : Stuck cs) : Offends opened cs
  /-- What is closed is not open, or something else is open in it. -/
  | closer {c : Closer} {after : List Char} (h : ∀ b ∈ opened.head?, b.closer ≠ c) :
    Offends opened (c.text ++ after)

/-- The brackets of the open collections, innermost first. -/
def Draft.brackets (d : Draft) : List Bracket := d.opened.map (·.bracket)

variable {d d' : Draft} {x : Lexeme} {ls : List Lexeme} {f : SyntaxFault}

theorem brackets_add (d : Draft) (t : Tree) : (d.add t).brackets = d.brackets := by
  unfold Draft.add
  split
  · rfl
  · next hopened => rw [Draft.brackets, Draft.brackets, hopened, List.map_cons, List.map_cons]

/-- A token that is taken opens and closes collections by its kind. -/
theorem brackets_step (h : d.step x = .ok d') : d'.brackets = x.token.nest d.brackets := by
  obtain ⟨b, hx, rfl⟩ | ⟨l, hx, rfl⟩ | ⟨g, gs, hx, hopened, rfl⟩ := step_eq_ok h
  · rw [hx]
    rfl
  · rw [hx, brackets_add]
    rfl
  · rw [hx, brackets_add, Draft.brackets, Draft.brackets, hopened]
    rfl

theorem brackets_run (h : ls.foldlM Draft.step d = .ok d') :
    d'.brackets = (ls.map (·.token)).foldl Token.nest d.brackets := by
  induction ls generalizing d with
  | nil =>
    cases h
    rfl
  | cons x ls ih =>
    rw [List.foldlM_cons] at h
    cases hstep : d.step x with
    | error f =>
      rw [hstep] at h
      cases h
    | ok e =>
      rw [hstep] at h
      rw [List.map_cons, List.foldl_cons, ← brackets_step hstep]
      exact ih h

/-- A token that cannot be taken closes what is not open. -/
theorem step_eq_error (h : d.step x = .error f) : f = ⟨x.offset, !d.opened.isEmpty⟩ ∧
    ∃ c, x.token = .closing c ∧ ∀ b ∈ d.brackets.head?, b.closer ≠ c := by
  unfold Draft.step at h
  cases hx : x.token with
  | opening b =>
    rw [hx] at h
    cases h
  | literal l =>
    rw [hx] at h
    cases h
  | closing c =>
    rw [hx] at h
    cases hopened : d.opened with
    | nil =>
      simp only [hopened] at h
      cases h
      simp [Draft.brackets, hopened]
    | cons g gs =>
      simp only [hopened] at h
      split at h
      · cases h
      · next hne =>
        cases h
        simpa [Draft.brackets, hopened] using hne

/-- The first token that cannot be taken. -/
theorem run_eq_error (h : ls.foldlM Draft.step d = .error f) : ∃ before x after d',
    ls = before ++ x :: after ∧ before.foldlM Draft.step d = .ok d' ∧ d'.step x = .error f := by
  induction ls generalizing d with
  | nil => cases h
  | cons x ls ih =>
    rw [List.foldlM_cons] at h
    cases hstep : d.step x with
    | error e =>
      rw [hstep] at h
      cases h
      exact ⟨[], x, ls, d, rfl, rfl, hstep⟩
    | ok e =>
      rw [hstep] at h
      obtain ⟨before, y, after, d', rfl, hrun, hlast⟩ := ih h
      refine ⟨x :: before, y, after, d', rfl, ?_, hlast⟩
      rw [List.foldlM_cons, hstep]
      exact hrun

/-! ## Closing what is open -/

theorem step_closer {b : Bracket} {bs : List Bracket} (hx : x.token = .closing b.closer)
    (hd : d.brackets = b :: bs) : ∃ d', d.step x = .ok d' ∧ d'.brackets = bs := by
  obtain ⟨g, gs, hopened, rfl, rfl⟩ := List.map_eq_cons_iff.1 hd
  refine ⟨_, ?_, brackets_add { d with opened := gs } (.node g.offset g.bracket g.children.reverse)⟩
  simp [Draft.step, hx, hopened]

/-- The closing brackets of all open collections leave none open. -/
theorem run_closers {bs : List Bracket} (hls : ls.map (·.token) = bs.map fun b => .closing b.closer)
    (hd : d.brackets = bs) : ∃ d', ls.foldlM Draft.step d = .ok d' ∧ d'.brackets = [] := by
  induction bs generalizing d ls with
  | nil =>
    obtain rfl := List.map_eq_nil_iff.1 hls
    exact ⟨d, rfl, hd⟩
  | cons b bs ih =>
    obtain ⟨x, ls, rfl, hx, hls⟩ := List.map_eq_cons_iff.1 hls
    obtain ⟨e, hstep, he⟩ := step_closer hx hd
    obtain ⟨d', hrun, hd'⟩ := ih hls he
    refine ⟨d', ?_, hd'⟩
    rw [List.foldlM_cons, hstep]
    exact hrun

theorem next?_closer (c : Closer) (rest : List Char) : Token.next? (c.text ++ rest) = some (.closing c, rest) := by
  cases c <;> rfl

theorem scanFrom_closers (offset : Nat) (bs : List Bracket) :
    (Scan.scanFrom offset (closers bs)).stuck = none ∧
      (Scan.scanFrom offset (closers bs)).lexemes.map (·.token) = bs.map fun b => .closing b.closer := by
  induction bs generalizing offset with
  | nil =>
    rw [(Cutting.blank rfl : Cutting offset (closers []) _).scanFrom_eq]
    exact ⟨rfl, rfl⟩
  | cons b bs ih =>
    rw [closers, List.flatMap_cons, scanFrom_word offset (next?_closer b.closer _)]
    obtain ⟨hstuck, htokens⟩ := ih (offset + byteLength b.closer.text)
    exact ⟨hstuck, congrArg (Token.closing b.closer :: ·) htokens⟩

/-- A text that is cut to its end into tokens that can all be taken is a forest when its open
collections are closed on the next line. -/
theorem forest_closed {text : String} (hs : (Scan.ofText text).stuck = none)
    (hrun : (Scan.ofText text).lexemes.foldlM Draft.step {} = .ok d) :
    ∃ trees, forest (text ++ "\n" ++ String.ofList (closers d.brackets)) = .ok trees := by
  obtain ⟨hstuck, htokens⟩ := scanFrom_closers (text.utf8ByteSize + 1) d.brackets
  obtain ⟨d', hrun', hd'⟩ := run_closers htokens rfl
  have hopened : d'.opened = [] := List.map_eq_nil_iff.1 hd'
  refine ⟨d'.done.reverse, ?_⟩
  rw [forest, Scan.forest, ofText_newline hs, String.toList_ofList]
  simp only [Scan.behind, hstuck]
  rw [List.foldlM_append, hrun]
  show (List.foldlM Draft.step d _ >>= _) = _
  rw [hrun']
  simp [Draft.finish, hopened, bind, Except.bind]

/-! ## What stands at a fault -/

theorem eq_nil_of_layout {gap cs : List Char} (hg : Layout gap) (hcs : skipLayout false cs = cs)
    (h : skipLayout false (gap ++ cs) = gap ++ cs) : gap = [] := by
  rw [skipLayout_append hg, hcs] at h
  exact List.self_eq_append_left.1 h

/-- What is cut first from a text stands at its start: the end of the text, a place where no token can be
taken, or a token. -/
def Scan.Starts (s : Scan) (offset : Nat) (cs : List Char) : Prop :=
  match s.lexemes, s.stuck with
  | [], none => cs = [] ∧ s.size = offset
  | [], some place => Stuck cs ∧ place = offset
  | x :: _, _ => x.offset = offset ∧ ∃ after, Token.next? cs = some (x.token, after)

/-- A text that begins with no layout is cut from its start. -/
theorem Cutting.starts {offset : Nat} {cs : List Char} {s : Scan} (h : Cutting offset cs s)
    (hskip : skipLayout false cs = cs) : s.Starts offset cs := by
  cases h with
  | blank h =>
    obtain rfl : cs = [] := hskip.symm.trans h
    exact ⟨rfl, rfl⟩
  | stuck hg h =>
    obtain rfl := eq_nil_of_layout hg h.skipLayout hskip
    exact ⟨h, rfl⟩
  | token hg ht h =>
    obtain rfl := eq_nil_of_layout hg (skipLayout_of_next? ht.next?) hskip
    exact ⟨rfl, _, ht.next?⟩

theorem of_next?_eq_closing {cs after : List Char} {c : Closer}
    (h : Token.next? cs = some (.closing c, after)) : cs = c.text ++ after := by
  unfold Token.next? at h
  split at h
  case h_2 | h_4 | h_6 =>
    cases h
    rfl
  case h_7 | h_8 | h_10 | h_11 | h_13 =>
    obtain ⟨p, -, he⟩ := Option.map_eq_some_iff.1 h
    cases he
  all_goals cases h

/-- A text parted in front of one of its tokens, or of where its cutting ends. -/
theorem ofText_part {text : String} {before after : List Lexeme}
    (h : (Scan.ofText text).lexemes = before ++ after) :
    ∃ first second : String, text = first ++ second ∧
      Scan.ofText first = ⟨before, none, first.utf8ByteSize⟩ ∧
      Scan.Starts { Scan.ofText text with lexemes := after } first.utf8ByteSize second.toList := by
  obtain ⟨first, second, htext, hfirst, hskip, hsecond⟩ := (cutting_scanFrom 0 text.toList).exists_part h
  have hlength : 0 + byteLength first = (String.ofList first).utf8ByteSize := by
    rw [← byteLength_toList, String.toList_ofList, Nat.zero_add]
  rw [hlength] at hfirst hsecond
  refine ⟨String.ofList first, String.ofList second, ?_, ?_, ?_⟩
  · rw [← String.ofList_append, ← htext, String.ofList_toList]
  · rw [Scan.ofText, String.toList_ofList, hfirst]
  · rw [String.toList_ofList]
    exact hsecond.starts hskip

/-- A text that is no forest falls into a part that is cut into tokens that can all be taken, and one that
begins with what does not belong there. -/
theorem exists_fault {text : String} (h : forest text = .error f) : ∃ (before after : String) (d : Draft),
    text = before ++ after ∧ (Scan.ofText before).stuck = none ∧
    (Scan.ofText before).lexemes.foldlM Draft.step {} = .ok d ∧
    f = ⟨before.utf8ByteSize, !d.opened.isEmpty⟩ ∧ Offends d.brackets after.toList := by
  unfold forest Scan.forest at h
  cases hrun : (Scan.ofText text).lexemes.foldlM Draft.step {} with
  | error e =>
    rw [hrun] at h
    cases h
    obtain ⟨ls, x, rest, d, hls, hbefore, hstep⟩ := run_eq_error hrun
    obtain ⟨before, after, htext, hcut, hoffset, more, hnext⟩ := ofText_part hls
    obtain ⟨hf, c, hc, hopened⟩ := step_eq_error hstep
    rw [hc] at hnext
    refine ⟨before, after, d, htext, by rw [hcut], by rw [hcut, hbefore], by rw [hf, hoffset], ?_⟩
    rw [of_next?_eq_closing hnext]
    exact .closer hopened
  | ok d =>
    rw [hrun] at h
    replace h : d.finish (Scan.ofText text).stuck (Scan.ofText text).size = .error f := h
    obtain ⟨before, after, htext, hcut, hend⟩ := ofText_part (List.append_nil _).symm
    refine ⟨before, after, d, htext, by rw [hcut], by rw [hcut, hrun], ?_⟩
    unfold Draft.finish at h
    split at h
    · next place _ hstuck =>
      cases h
      rw [Scan.Starts, hstuck] at hend
      obtain ⟨hafter, rfl⟩ := hend
      exact ⟨rfl, .stuck hafter⟩
    · next g gs hstuck hopened =>
      cases h
      rw [Scan.Starts, hstuck] at hend
      obtain ⟨hafter, hsize⟩ := hend
      rw [hafter, hsize, hopened]
      exact ⟨rfl, .ending (by simp [Draft.brackets, hopened])⟩
    · cases h

/-! ## Faults and other errors -/

section Reader

variable [PatternReader]

theorem toForm_literal_ne_syntaxFault (offset : Nat) (l : Literal) : l.toForm offset ≠ .error (.syntaxFault f) := by
  have hpattern : ∀ kind start body, Literal.toForm.patternForm kind start body ≠ .error (.syntaxFault f) := by
    intro kind start body
    unfold Literal.toForm.patternForm
    cases Pattern.ofSource kind (String.ofList body) <;> nofun
  cases l with
  | regex body => exact hpattern .regex (offset + 2) body
  | glob body => exact hpattern .glob (offset + 6) body
  | _ => nofun

mutual

/-- What is wrong with a tree is no syntax fault. -/
theorem toForm_ne_syntaxFault : (t : Tree) → t.toForm ≠ .error (.syntaxFault f)
  | .leaf offset l => toForm_literal_ne_syntaxFault offset l
  | .node offset b children => by
    have hchildren := treesToForms_ne_syntaxFault children
    rw [Tree.toForm]
    cases hc : treesToForms children with
    | error e =>
      rw [hc] at hchildren
      rintro ⟨⟩
      exact hchildren rfl
    | ok items =>
      cases b with
      | map =>
        simp only [bind, Except.bind]
        cases pairUp? items <;> nofun
      | _ => nofun

theorem treesToForms_ne_syntaxFault : (ts : List Tree) → treesToForms ts ≠ .error (.syntaxFault f)
  | [] => nofun
  | t :: ts => by
    have hhead := toForm_ne_syntaxFault t
    have htail := treesToForms_ne_syntaxFault ts
    rw [treesToForms]
    cases ht : t.toForm with
    | error e =>
      rw [ht] at hhead
      rintro ⟨⟩
      exact hhead rfl
    | ok form =>
      cases hts : treesToForms ts with
      | error e =>
        rw [hts] at htail
        rintro ⟨⟩
        exact htail rfl
      | ok forms => nofun

end

end Reader

end Source

namespace Form

section Reader

variable [PatternReader] {text : String} {fault : SyntaxFault}

/-- Only a text that is no forest has a syntax fault. -/
theorem readAll_eq_syntaxFault_iff : readAll text = .error (.syntaxFault fault) ↔ forest text = .error fault := by
  unfold readAll
  cases forest text with
  | error f => simp
  | ok trees => exact iff_of_false (treesToForms_ne_syntaxFault trees) nofun

/-- A syntax fault lies at the first token that does not belong where it stands. Its place is at most the end
of the text and parts it between two characters. The part in front of it has no syntax fault when a new line
and the closing brackets of the collections open in it are added, and the part behind begins with what
does not belong there. The fault tells whether a collection is open. -/
theorem readAll_syntaxFault (h : readAll text = .error (.syntaxFault fault)) :
    fault.offset ≤ text.utf8ByteSize ∧
      ∃ before after : String, text = before ++ after ∧ before.utf8ByteSize = fault.offset ∧
        (∀ f, readAll (before ++ "\n" ++ String.ofList (closers (openBrackets before))) ≠ .error (.syntaxFault f)) ∧
        Offends (openBrackets before) after.toList ∧ fault.inside = !(openBrackets before).isEmpty := by
  obtain ⟨before, after, d, rfl, hstuck, hrun, rfl, hafter⟩ := exists_fault (readAll_eq_syntaxFault_iff.1 h)
  have hopened : d.brackets = openBrackets before := brackets_run hrun
  obtain ⟨trees, htrees⟩ := forest_closed hstuck hrun
  rw [hopened] at hafter htrees
  refine ⟨?_, before, after, rfl, rfl, fun f hf => ?_, hafter, ?_⟩
  · rw [String.utf8ByteSize_append]
    exact Nat.le_add_right _ _
  · rw [readAll_eq_syntaxFault_iff, htrees] at hf
    cases hf
  · rw [← hopened, Draft.brackets, List.isEmpty_map]

end Reader

/-- A bracket that does not close the set which is open, behind a character of two bytes. -/
theorem readAll_mismatched :
    let text := "é [1 #\x7b2 ) 3"
    readAll text = .error (.syntaxFault ⟨10, true⟩) ∧ 10 ≤ text.utf8ByteSize ∧
      ∃ before after : String, text = before ++ after ∧ before.utf8ByteSize = 10 ∧
        (∀ f, readAll (before ++ "\n" ++ String.ofList (closers (openBrackets before))) ≠ .error (.syntaxFault f)) ∧
        Offends (openBrackets before) after.toList ∧ true = !(openBrackets before).isEmpty := by
  intro text
  have h : readAll "é [1 #\x7b2 ) 3" = .error (.syntaxFault ⟨10, true⟩) := by cbv
  exact ⟨h, readAll_syntaxFault h⟩

example : openBrackets "é [1 #\x7b2 " = [.set, .vector] ∧ closers [.set, .vector] = ['\x7d', ']'] := by
  constructor <;> cbv

end Form

end Attest
