import Attest.Proofs.Composition
import Attest.Proofs.Fresh
import Attest.Proofs.RoundTrip
import Attest.Standard
/-!
# Set literals

A text that reads as some forms reads as them inside brackets too (`Source.Reads.of_readAll`): what the
tokens of a whole text do does not touch what was open before them. So a set is read of the forms that a
vector would be read of. Its value is then the set of their values, taken from the first form to the last as
those of the vector are (`Form.eval_readSet`), as long as `hash-set` has its meaning: a set of other forms
than literals is a call of what that name is bound to (`Form.readSet_unbound`).
-/

namespace Attest

open Source

namespace Source

/-! ## A text inside of something open -/

/-- What has been read, and behind it another draft, as one draft: finished trees go into the innermost
collection that was open before. -/
def Draft.inside (base d : Draft) : Draft :=
  let outer := d.done.reverse.foldl Draft.add base
  ⟨outer.done, d.opened ++ outer.opened⟩

theorem Draft.inside_add (base d : Draft) (t : Tree) : base.inside (d.add t) = (base.inside d).add t := by
  unfold Draft.add
  cases hopened : d.opened with
  | nil =>
    have houter : base.inside ⟨t :: d.done, []⟩ = (d.done.reverse.foldl Draft.add base).add t := by
      simp only [Draft.inside, List.reverse_cons, List.foldl_append, List.foldl_cons, List.foldl_nil, List.nil_append]
    have hinner : base.inside d = d.done.reverse.foldl Draft.add base := by
      rw [Draft.inside, hopened, List.nil_append]
    rw [houter, hinner, Draft.add]
  | cons f fs => simp only [Draft.inside, hopened, List.cons_append]

/-- A token that can be taken does not touch what was open before. -/
theorem step_inside (base : Draft) {d d' : Draft} {l : Lexeme} (h : d.step l = .ok d') :
    (base.inside d).step l = .ok (base.inside d') := by
  unfold Draft.step
  rcases step_eq_ok h with ⟨b, hl, rfl⟩ | ⟨lit, hl, rfl⟩ | ⟨f, fs, hl, hopened, rfl⟩
  · rw [hl]
    rfl
  · rw [hl, Draft.inside_add]
  · have hopen : (base.inside d).opened = f :: (Draft.inside base { d with opened := fs }).opened := by
      simp only [Draft.inside, hopened, List.cons_append]
    rw [hl, hopen]
    dsimp only
    rw [if_pos rfl, Draft.inside_add]
    rfl

theorem run_inside (base : Draft) {d d' : Draft} {ls : List Lexeme} (h : ls.foldlM Draft.step d = .ok d') :
    ls.foldlM Draft.step (base.inside d) = .ok (base.inside d') := by
  induction ls generalizing d with
  | nil =>
    cases h
    rfl
  | cons l ls ih =>
    rw [List.foldlM_cons] at h ⊢
    cases hstep : d.step l with
    | error f =>
      rw [hstep] at h
      cases h
    | ok d₁ =>
      rw [hstep] at h
      rw [step_inside base hstep]
      exact ih h

/-- A layout without comments needs nothing behind it. -/
theorem layout_of_no_comment {gap : List Char} (hc : ';' ∉ gap) (h : skipLayout false gap = []) : Layout gap := by
  induction gap with
  | nil => exact .nil
  | cons c cs ih =>
    obtain ⟨hne, hcs⟩ := not_or.1 (List.mem_cons.not.1 hc)
    unfold skipLayout at h
    split at h
    · next hs => exact .spacing hs (ih hcs h)
    · split at h
      · next heq => exact absurd (beq_iff_eq.1 heq).symm hne
      · cases h

/-- What may stand behind a text for a bracket to close it: a line end, or nothing if the text has no comment. -/
def Closes (text tail : String) : Prop := tail = "\n" ∨ tail = "" ∧ ';' ∉ text.toList

/-- A text that reads as some forms reads as them wherever it stands. -/
theorem Reads.of_readAll [PatternReader] {text tail : String} {items : List Form} (h : Form.readAll text = .ok items)
    (htail : Closes text tail) : Reads (text.toList ++ tail.toList) items := by
  intro offset rest hr
  unfold Form.readAll at h
  cases hforest : forest text with
  | error f =>
    rw [hforest] at h
    cases h
  | ok trees =>
    rw [hforest] at h
    replace h : treesToForms trees = .ok items := h
    obtain ⟨hstuck, hrun⟩ := of_forest_eq_ok hforest
    have hscan : Scan.scanFrom offset text.toList = (Scan.ofText text).shift offset := scanFrom_add offset 0 _
    have hcut := cutting_scanFrom offset text.toList
    rw [hscan] at hcut
    have hnone : ((Scan.ofText text).shift offset).stuck = none := by rw [Scan.shift, hstuck]; rfl
    -- Behind the last token of the text there is nothing but layout, and no comment stays open in it.
    have hgap : ∀ before gap, text.toList = before ++ gap → skipLayout false gap = [] →
        Layout (gap ++ tail.toList) := by
      intro before gap htext hskip
      rcases htail with rfl | ⟨rfl, hno⟩
      · exact layout_newline false hskip
      · have hgap : ';' ∉ gap := fun hmem => hno (htext ▸ List.mem_append_right before hmem)
        rw [String.toList_empty, List.append_nil]
        exact layout_of_no_comment hgap hskip
    have hended : Ended (tail.toList ++ rest) := by
      rcases htail with rfl | ⟨rfl, -⟩
      · exact .cons (by decide) rest
      · exact hr
    have hall := hcut.append_closed hnone hgap hended
    rw [← List.append_assoc] at hall
    refine ⟨_, _, trees.map (·.shift offset), hall, ?_, ?_⟩
    · intro d
      have hshift := run_shift offset [] {} (Scan.ofText text).lexemes
      rw [hrun] at hshift
      have hinside := run_inside d hshift
      have hstart : d.inside (Draft.behind offset [] {}) = d := rfl
      have hend : d.inside (Draft.behind offset [] ⟨trees.reverse, []⟩) =
          (trees.map (·.shift offset)).foldl Draft.add d := by
        simp [Draft.behind, Draft.inside]
      rw [hstart, hend] at hinside
      exact hinside
    · rw [← shiftTrees_eq_map, treesToForms_shift, h]
      rfl

end Source

/-! ## The value of a set -/

/-- Literals have their values. -/
theorem evalItems_literals (depth : Nat) (site : Site) (scope : Scope) (i : Nat) (vs : List Value) :
    evalItems (eval (depth + 1)) site scope i (vs.map .lit) = pure vs := by
  induction vs generalizing i with
  | nil => rfl
  | cons v vs ih =>
    rw [List.map_cons, evalItems, ih]
    rfl

/-- In these scopes a set of such forms is built with `hash-set`, or needs nothing to be built. -/
def Scope.BuildsSet (scope : Scope) (items : List Form) : Prop :=
  scope.lookup "hash-set" = some (.fn (.builtin .hashSet)) ∨ ∀ f ∈ items, ∃ v, f = .lit v

/-- A set has the values of its forms, taken from the first one to the last. -/
theorem eval_ofSet {scope : Scope} {items : List Form} (h : scope.BuildsSet items) (depth : Nat) (site : Site) :
    eval (depth + 2) site scope (.ofSet items) =
      (do return .setOf (← evalItems (eval (depth + 1)) site.operands scope 1 items)) := by
  unfold Form.ofSet
  cases hl : literals? items with
  | some vs =>
    obtain rfl := literals?_eq_some_iff.1 hl
    rw [evalItems_literals]
    rfl
  | none =>
    have hbuild : scope.lookup "hash-set" = some (.fn (.builtin .hashSet)) := by
      refine h.resolve_right fun hlits => ?_
      -- If all forms were literals, their values would have been found.
      obtain ⟨vs, rfl⟩ : ∃ vs : List Value, items = vs.map .lit := by
        choose! value hvalue using hlits
        refine ⟨items.map value, ?_⟩
        rw [List.map_map]
        exact (List.map_id items).symm.trans (List.map_congr_left hvalue)
      rw [literals?_eq_some_iff.2 rfl] at hl
      cases hl
    exact Discipline.eval_call_of_lookup (by decide) hbuild depth site items

namespace Form

/-- What a text reads as in set brackets and in vector brackets: a set of the values of its forms and a list of
them. The values are found in the same way, from the first form to the last or the first that throws, and only
depend on names that the forms mention. -/
theorem eval_readSet [PatternReader] {text tail : String} {items : List Form} (htext : readAll text = .ok items)
    (htail : Closes text tail) : ∃ set vector,
      read ("#\x7b" ++ text ++ tail ++ "\x7d") = .ok set ∧ read ("[" ++ text ++ tail ++ "]") = .ok vector ∧
      ∀ (depth : Nat) (site : Site) (scope : Scope), scope.BuildsSet items →
        eval (depth + 2) site scope set =
          (do return .setOf (← evalItems (eval (depth + 1)) site.operands scope 1 items)) ∧
        eval (depth + 2) site scope vector =
          (do return .list (← evalItems (eval (depth + 1)) site scope 0 items)) ∧
        ∀ (x : String) (other : Scope), omitsAll x items → scope.AgreeExcept x other → other.BuildsSet items →
          eval (depth + 2) site other set = eval (depth + 2) site scope set ∧
          eval (depth + 2) site other vector = eval (depth + 2) site scope vector := by
  have hreads := Reads.of_readAll htext htail
  have hset : read ("#\x7b" ++ text ++ tail ++ "\x7d") = .ok (.ofSet items) := by
    refine read_of_reads ?_
    rw [String.toList_append, String.toList_append, String.toList_append, List.append_assoc "#\x7b".toList]
    exact hreads.group .set rfl
  have hvector : read ("[" ++ text ++ tail ++ "]") = .ok (.vector items) := by
    refine read_of_reads ?_
    rw [String.toList_append, String.toList_append, String.toList_append, List.append_assoc "[".toList]
    exact hreads.group .vector rfl
  refine ⟨_, _, hset, hvector, fun depth site scope hscope => ⟨eval_ofSet hscope depth site, rfl, ?_⟩⟩
  intro x other hx hagree hother
  have hignores : Evaluator.Ignores x (eval (depth + 1)) := eval_ignores (depth + 1)
  constructor
  · rw [eval_ofSet hscope, eval_ofSet hother, hignores.evalItems_eq hagree site.operands 1 hx]
  · show (do return Value.list (← evalItems (eval (depth + 1)) site other 0 items)) =
      (do return Value.list (← evalItems (eval (depth + 1)) site scope 0 items) : Eval Value)
    rw [hignores.evalItems_eq hagree site 0 hx]

/-- Behind a comment the brackets are closed on the next line. -/
theorem eval_readSet_comment :
    let text := "(inc 1) 2 ; twice"
    let items := [Form.list [.sym "inc", .lit (.int 1)], .lit (.int 2)]
    readAll text = .ok items ∧ Closes text "\n" ∧ Scope.standard.BuildsSet items ∧
      ∃ set vector, read ("#\x7b" ++ text ++ "\n" ++ "\x7d") = .ok set ∧
        read ("[" ++ text ++ "\n" ++ "]") = .ok vector ∧
        eval 3 [] .standard set {} = (.ok (.set [.int 2]), {}) ∧
        eval 3 [] .standard vector {} = (.ok (.list [.int 2, .int 2]), {}) := by
  intro text items
  have htext : readAll "(inc 1) 2 ; twice" = .ok [.list [.sym "inc", .lit (.int 1)], .lit (.int 2)] := by cbv
  have hbuilds : Scope.standard.BuildsSet items := .inl (by with_unfolding_all rfl)
  have hitems : ∀ site i, evalItems (eval 2) site .standard i items {} = (.ok [.int 2, .int 2], {}) := by
    intro site i
    with_unfolding_all rfl
  obtain ⟨set, vector, hset, hvector, heval⟩ := eval_readSet htext (.inl rfl)
  obtain ⟨hevalSet, hevalVector, -⟩ := heval 1 [] .standard hbuilds
  refine ⟨htext, .inl rfl, hbuilds, set, vector, hset, hvector, ?_, ?_⟩
  · rw [hevalSet, Run.bind_of_ok (hitems _ 1)]
    with_unfolding_all rfl
  · rw [hevalVector, Run.bind_of_ok (hitems _ 0)]
    rfl

/-- Where `hash-set` is not bound, a set of a form that has a value has none, while a vector of it has; and where
the name is bound to something else, that is what is called. -/
theorem readSet_unbound :
    (∃ set vector, read "#\x7b(do 1)\x7d" = .ok set ∧ read "[(do 1)]" = .ok vector ∧
      eval 3 [] .empty set {} = (.error (.thrown ⟨.lookup, "unable to resolve symbol: hash-set", none⟩), {}) ∧
      eval 3 [] .empty vector {} = (.ok (.list [.int 1]), {})) ∧
    ∃ form, read "(let [hash-set vector] #\x7b(do 1)\x7d)" = .ok form ∧
      eval 4 [] .standard form {} = (.ok (.list [.int 1]), {}) := by
  have hset : read "#\x7b(do 1)\x7d" = .ok (.list [.sym "hash-set", .list [.sym "do", .lit (.int 1)]]) := by cbv
  have hvector : read "[(do 1)]" = .ok (.vector [.list [.sym "do", .lit (.int 1)]]) := by cbv
  have hbound : read "(let [hash-set vector] #\x7b(do 1)\x7d)" = .ok (.list [.sym "let",
      .vector [.sym "hash-set", .sym "vector"], .list [.sym "hash-set", .list [.sym "do", .lit (.int 1)]]]) := by cbv
  refine ⟨⟨_, _, hset, hvector, ?_, ?_⟩, _, hbound, ?_⟩
  · with_unfolding_all rfl
  · with_unfolding_all rfl
  · with_unfolding_all rfl

end Form

end Attest
