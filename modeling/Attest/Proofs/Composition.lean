import Attest.Pattern.Reading
import Attest.Proofs.Cutting
import Mathlib.Algebra.Module.Submodule.Lattice
/-!
# Texts one after the other

A text that begins some bytes further on is read in the same way, with all offsets so much further on
(`scanFrom_add`, `run_shift`, `toForm_shift`). So what stands on the lines behind a text that can be read
is read as it would be on its own: its forms come behind those of the text, and where it fails, there the
whole fails (`Form.readAll_append_newline`).
-/

namespace Attest

open Source

namespace Source

variable (k : Nat)

/-- What was read or what is wrong, the one changed in one way and the other in another. -/
def mapBoth {ε α β : Type} (onError : ε → ε) (onValue : α → β) : Except ε α → Except ε β
  | .ok a => .ok (onValue a)
  | .error e => .error (onError e)

/-! ## Further on -/

/-- The token some bytes further on. -/
def Lexeme.shift (l : Lexeme) : Lexeme := ⟨k + l.offset, l.token⟩

/-- The same tokens, all some bytes further on. -/
def Scan.shift (s : Scan) : Scan := ⟨s.lexemes.map (·.shift k), s.stuck.map (k + ·), k + s.size⟩

/-- The fault some bytes further on. -/
def SyntaxFault.shift (f : SyntaxFault) : SyntaxFault := ⟨k + f.offset, f.inside⟩

mutual

/-- The tree some bytes further on, with all that is in it. -/
def Tree.shift : Tree → Tree
  | .leaf offset l => .leaf (k + offset) l
  | .node offset b children => .node (k + offset) b (shiftTrees children)

/-- Several trees some bytes further on. -/
def shiftTrees : List Tree → List Tree
  | [] => []
  | t :: ts => t.shift :: shiftTrees ts

end

theorem shiftTrees_eq_map (ts : List Tree) : shiftTrees k ts = ts.map (·.shift k) := by
  induction ts with
  | nil => rfl
  | cons t ts ih => rw [shiftTrees, ih, List.map_cons]

/-- An open collection some bytes further on. -/
def Frame.shift (f : Frame) : Frame := ⟨f.bracket, k + f.offset, f.children.map (·.shift k)⟩

/-- What has been read some bytes further on, behind finished trees, last first. -/
def Draft.behind (before : List Tree) (d : Draft) : Draft :=
  ⟨d.done.map (·.shift k) ++ before, d.opened.map (·.shift k)⟩

end Source

/-- The error some bytes further on. -/
def ReadError.shift (k : Nat) : ReadError → ReadError
  | .syntaxFault fault => .syntaxFault (fault.shift k)
  | .oddMap offset => .oddMap (k + offset)
  | .pattern offset e => .pattern (k + offset) e
  | .missing offset => .missing (k + offset)
  | .trailing offset => .trailing (k + offset)

theorem ReadError.offset_shift (k : Nat) (e : ReadError) : (e.shift k).offset = k + e.offset := by
  cases e <;> rfl

namespace Source

variable (k : Nat)

/-! ## Cutting -/

theorem Scan.shift_behind (lexemes : List Lexeme) (s : Scan) :
    (s.behind lexemes).shift k = (s.shift k).behind (lexemes.map (·.shift k)) := by
  simp [Scan.shift, Scan.behind]

theorem Cutting.shift {offset : Nat} {cs : List Char} {s : Scan} (h : Cutting offset cs s) :
    Cutting (k + offset) cs (s.shift k) := by
  induction h with
  | @blank offset gap h =>
    have hblank : Cutting (k + offset) gap _ := .blank h
    rwa [Nat.add_assoc] at hblank
  | @stuck offset gap rest hg h =>
    have hstuck : Cutting (k + offset) (gap ++ rest) _ := .stuck hg h
    rwa [Nat.add_assoc, Nat.add_assoc] at hstuck
  | @token offset gap word after t s hg ht h ih =>
    rw [Scan.shift_behind]
    rw [← Nat.add_assoc, ← Nat.add_assoc] at ih
    have htoken := Cutting.token hg ht ih
    rwa [Nat.add_assoc] at htoken

/-- A text is cut into the same tokens wherever it begins. -/
theorem scanFrom_add (offset : Nat) (cs : List Char) :
    Scan.scanFrom (k + offset) cs = (Scan.scanFrom offset cs).shift k :=
  ((cutting_scanFrom offset cs).shift k).scanFrom_eq

/-! ## Trees -/

variable (before : List Tree)

theorem Draft.behind_add (d : Draft) (t : Tree) :
    (d.add t).behind k before = (d.behind k before).add (t.shift k) := by
  unfold Draft.add
  cases hopened : d.opened with
  | nil => simp [Draft.behind, hopened]
  | cons f fs => simp [Draft.behind, Frame.shift, hopened]

/-- A token does the same further on. -/
theorem step_shift (d : Draft) (l : Lexeme) : (d.behind k before).step (l.shift k) =
    mapBoth (·.shift k) (·.behind k before) (d.step l) := by
  unfold Draft.step Lexeme.shift
  cases l.token with
  | opening b => rfl
  | literal lit => simp [mapBoth, Draft.behind_add, Tree.shift]
  | closing c =>
    cases hopened : d.opened with
    | nil => simp [Draft.behind, hopened, mapBoth, SyntaxFault.shift]
    | cons f fs =>
      by_cases hcloser : f.bracket.closer = c
      · -- The finished collection is added outside of its brackets.
        have hadd := Draft.behind_add k before { d with opened := fs } (.node f.offset f.bracket f.children.reverse)
        rw [Tree.shift, shiftTrees_eq_map, List.map_reverse] at hadd
        have hopen : (d.behind k before).opened = f.shift k :: fs.map (·.shift k) := by
          rw [Draft.behind, hopened, List.map_cons]
        simp only [hopen]
        rw [if_pos hcloser, if_pos (show (f.shift k).bracket.closer = c from hcloser)]
        exact congrArg Except.ok hadd.symm
      · simp [Draft.behind, hopened, hcloser, mapBoth, SyntaxFault.shift, Frame.shift]

/-- Tokens do the same further on. -/
theorem run_shift (d : Draft) (ls : List Lexeme) : (ls.map (·.shift k)).foldlM Draft.step (d.behind k before) =
    mapBoth (·.shift k) (·.behind k before) (ls.foldlM Draft.step d) := by
  induction ls generalizing d with
  | nil => rfl
  | cons l ls ih =>
    rw [List.map_cons, List.foldlM_cons, List.foldlM_cons, step_shift]
    cases d.step l with
    | error f => rfl
    | ok d => exact ih d

theorem finish_shift (d : Draft) (stuck : Option Nat) (size : Nat) :
    (d.behind k before).finish (stuck.map (k + ·)) (k + size) =
      mapBoth (·.shift k) (fun trees => before.reverse ++ trees.map (·.shift k)) (d.finish stuck size) := by
  cases stuck with
  | some offset => simp [Draft.finish, Draft.behind, mapBoth, SyntaxFault.shift]
  | none =>
    cases hopened : d.opened with
    | nil => simp [Draft.finish, Draft.behind, hopened, mapBoth]
    | cons f fs => simp [Draft.finish, Draft.behind, hopened, mapBoth, SyntaxFault.shift]

/-- Behind a forest and a new line a text is the forest that it is on its own, further on. -/
theorem forest_append_newline {s : String} {trees : List Tree} (h : forest s = .ok trees) (t : String) :
    forest (s ++ "\n" ++ t) =
      mapBoth (·.shift (s.utf8ByteSize + 1)) (fun more => trees ++ more.map (·.shift (s.utf8ByteSize + 1)))
        (forest t) := by
  obtain ⟨hstuck, hrun⟩ := of_forest_eq_ok h
  have hcut : Scan.ofText (s ++ "\n" ++ t) =
      ((Scan.ofText t).shift (s.utf8ByteSize + 1)).behind (Scan.ofText s).lexemes := by
    rw [ofText_newline hstuck, ← Nat.add_zero (s.utf8ByteSize + 1), scanFrom_add]
    rfl
  -- The second text begins where the first one left nothing open.
  have hrunAll : ((Scan.ofText s).lexemes ++ (Scan.ofText t).lexemes.map (·.shift (s.utf8ByteSize + 1))).foldlM
      Draft.step {} = mapBoth (·.shift (s.utf8ByteSize + 1)) (·.behind (s.utf8ByteSize + 1) trees.reverse)
        ((Scan.ofText t).lexemes.foldlM Draft.step {}) := by
    rw [List.foldlM_append, hrun]
    exact run_shift (s.utf8ByteSize + 1) trees.reverse {} (Scan.ofText t).lexemes
  unfold forest Scan.forest
  rw [hcut]
  simp only [Scan.behind, Scan.shift]
  rw [hrunAll]
  cases (Scan.ofText t).lexemes.foldlM Draft.step {} with
  | error f => rfl
  | ok d =>
    have hfinish := finish_shift (s.utf8ByteSize + 1) trees.reverse d (Scan.ofText t).stuck (Scan.ofText t).size
    rw [List.reverse_reverse] at hfinish
    exact hfinish

/-! ## Forms -/

section Reader

variable [PatternReader]

theorem toForm_literal_shift (offset : Nat) (l : Literal) :
    l.toForm (k + offset) = mapBoth (·.shift k) id (l.toForm offset) := by
  have hpattern : ∀ kind start body, Literal.toForm.patternForm kind (k + start) body =
      mapBoth (·.shift k) id (Literal.toForm.patternForm kind start body) := by
    intro kind start body
    unfold Literal.toForm.patternForm
    cases Pattern.ofSource kind (String.ofList body) <;> rfl
  cases l with
  | regex body => exact hpattern .regex (offset + 2) body
  | glob body => exact hpattern .glob (offset + 6) body
  | _ => rfl

mutual

/-- A tree further on is the same form, or fails further on. -/
theorem toForm_shift : (t : Tree) → (t.shift k).toForm = mapBoth (·.shift k) id t.toForm
  | .leaf offset l => toForm_literal_shift k offset l
  | .node offset b children => by
    rw [Tree.shift, Tree.toForm, Tree.toForm, treesToForms_shift children]
    cases treesToForms children with
    | error e => rfl
    | ok items =>
      cases b with
      | map =>
        simp only [mapBoth, bind, Except.bind, id]
        cases pairUp? items <;> rfl
      | _ => rfl

theorem treesToForms_shift : (ts : List Tree) →
    treesToForms (shiftTrees k ts) = mapBoth (·.shift k) id (treesToForms ts)
  | [] => rfl
  | t :: ts => by
    rw [shiftTrees, treesToForms, treesToForms, toForm_shift t, treesToForms_shift ts]
    cases t.toForm with
    | error e => rfl
    | ok f => cases treesToForms ts <;> rfl

end

end Reader

end Source

namespace Form

section Reader

variable [PatternReader] {s : String} {as : List Form}

/-- What is read of two texts with a new line between them, if the first can be read. -/
theorem readAll_newline (h : readAll s = .ok as) (t : String) : readAll (s ++ "\n" ++ t) =
    mapBoth (·.shift (s.utf8ByteSize + 1)) (as ++ ·) (readAll t) := by
  unfold readAll at h ⊢
  cases hs : forest s with
  | error f =>
    rw [hs] at h
    cases h
  | ok trees =>
    rw [hs] at h
    rw [forest_append_newline hs]
    cases forest t with
    | error f => rfl
    | ok more =>
      show treesToForms (trees ++ _) = mapBoth _ _ (treesToForms more)
      rw [treesToForms_behind h, ← shiftTrees_eq_map, treesToForms_shift]
      cases treesToForms more <;> rfl

/-- Behind a text that was read and a new line, a text is read as on its own: its forms come behind those
of the first text, and an error is the same, so many bytes further on as the first text and the line end
take. -/
theorem readAll_append_newline (h : readAll s = .ok as) (t : String) :
    (∀ bs, readAll t = .ok bs → readAll (s ++ "\n" ++ t) = .ok (as ++ bs)) ∧
      ∀ e, readAll t = .error e → ∃ e', readAll (s ++ "\n" ++ t) = .error e' ∧
        e' = e.shift (s.utf8ByteSize + 1) ∧ e'.offset = s.utf8ByteSize + 1 + e.offset := by
  refine ⟨fun bs hbs => ?_, fun e he => ⟨_, ?_, rfl, e.offset_shift _⟩⟩
  · rw [readAll_newline h, hbs]
    rfl
  · rw [readAll_newline h, he]
    rfl

end Reader

/-- Behind a comment without a line end, which has a character of two bytes. -/
theorem readAll_comment_newline :
    let s := "a ; é"
    readAll s = .ok [.sym "a"] ∧ readAll "b" = .ok [.sym "b"] ∧ readAll "[\x7b:k\x7d]" = .error (.oddMap 1) ∧
      readAll (s ++ "\n" ++ "b") = .ok [.sym "a", .sym "b"] ∧
      readAll (s ++ "\n" ++ "[\x7b:k\x7d]") = .error (.oddMap 8) := by
  intro s
  have hs : readAll "a ; é" = .ok [.sym "a"] := by cbv
  have hb : readAll "b" = .ok [.sym "b"] := by cbv
  have hmap : readAll "[\x7b:k\x7d]" = .error (.oddMap 1) := by cbv
  obtain ⟨e, he, rfl, -⟩ := (readAll_append_newline hs "[\x7b:k\x7d]").2 _ hmap
  exact ⟨hs, hb, hmap, (readAll_append_newline hs "b").1 _ hb, he⟩

end Form

end Attest
