import Attest.Proofs.Depth
import Attest.Proofs.Destructuring
import Attest.Proofs.Fresh
import Attest.Proofs.Patterns
/-!
# Calling a function form is binding its parameters

A call of a function form evaluates all arguments in the scope around it and then takes them apart one after
the other. Local bindings go back and forth, and each value is evaluated in the scope of the bindings before it.
Where the arguments mention no name that the parameters bind, and make no function, that scope gives them the
same values (`evalBindings_of_evalItems`). So the same body runs in the same scope (`Form.yields_applied_iff`).
-/

namespace Attest

/-! ## Patterns side by side -/

/-- Several patterns are read as one pattern by position. -/
theorem Binding.parseSeq_patterns (whole : List Form) {clauses : List (Form × Form)} {bs : List Binding}
    (h : List.Forall₂ (fun c b => Binding.parse c.1 = .ok b) clauses bs) (done : List Binding) :
    parseSeq whole (clauses.map (·.1)) { items := done } = .ok { items := bs.reverse ++ done } := by
  induction h generalizing done with
  | nil => simp only [List.map_nil, parseSeq, List.reverse_nil, List.nil_append]
  | @cons c b clauses bs hb _ ih =>
    rw [List.map_cons, parseSeq_item hb _ rfl, ih, List.reverse_cons, List.append_assoc]
    rfl

theorem Binding.parse_parameters {clauses : List (Form × Form)} {bs : List Binding}
    (h : List.Forall₂ (fun c b => Binding.parse c.1 = .ok b) clauses bs) :
    parse (.vector (clauses.map (·.1))) = .ok (.seq bs none none) := by
  rw [parse, parseSeq_patterns _ h [], List.append_nil]
  show Except.ok (Binding.seq bs.reverse.reverse none none) = _
  rw [List.reverse_reverse]

/-- Patterns that fit their values one by one fit them one after the other. -/
theorem Binding.exists_bindItems {scope : Scope} {bs : List Binding} {values : List Value}
    (h : List.Forall₂ (fun b v => ∃ inner, b.bind v scope = .ok inner) bs values) (other : Scope) :
    ∃ inner, bindItems bs values other = .ok inner := by
  induction h generalizing other with
  | nil => exact ⟨other, by rw [bindItems]⟩
  | cons hb _ ih =>
    obtain ⟨result, hb⟩ := hb
    obtain ⟨front, -, -, hother⟩ := exists_front_of_bind hb
    obtain ⟨inner, hinner⟩ := ih (front ++ other)
    refine ⟨inner, ?_⟩
    rw [bindItems, List.head?_cons, Option.getD_some, hother]
    exact hinner

/-! ## The values of the arguments -/

/-- A form evaluates alike behind bindings for names that it does not mention. -/
theorem eval_append_of_omits {front : Scope} {form : Form} (h : ∀ p ∈ front, form.Omits p.1) (depth : Nat)
    (site : Site) (scope : Scope) : eval depth site (front ++ scope) form = eval depth site scope form := by
  induction front with
  | nil => rfl
  | cons p front ih =>
    obtain ⟨hp, hfront⟩ := List.forall_mem_cons.1 h
    have hagree := Scope.AgreeExcept.bind p.1 p.2 (front ++ scope)
    exact (eval_ignores depth site hagree form hp).symm.trans (ih hfront)

/-- Arguments have the values that they have in the scope around, as long as what is bound in front is nothing
that they mention. -/
theorem evalBindings_of_evalItems {clauses : List (Form × Form)} {bs : List Binding}
    (hparse : List.Forall₂ (fun c b => Binding.parse c.1 = .ok b) clauses bs)
    (homits : ∀ c ∈ clauses, ∀ b ∈ bs, ∀ name ∈ b.names, c.2.Omits name) {depth : Nat} {site : Site} {i : Nat}
    {scope front inner : Scope} (hfront : ∀ c ∈ clauses, ∀ p ∈ front, c.2.Omits p.1) {values : List Value}
    {s u : Effects} (hargs : evalItems (eval depth) site scope i (clauses.map (·.2)) s = (.ok values, u))
    (hbind : Binding.bindItems bs values (front ++ scope) = .ok inner) :
    evalBindings (eval depth) site i clauses (front ++ scope) s = (.ok inner, u) := by
  induction hparse generalizing i front values s with
  | nil =>
    cases hargs
    simp only [Binding.bindItems] at hbind
    cases hbind
    rfl
  | @cons c b clauses bs hb hrest ih =>
    obtain ⟨pattern, argument⟩ := c
    obtain ⟨hargument, hfront⟩ := List.forall_mem_cons.1 hfront
    obtain ⟨v, s₁, hv, hargs⟩ := Run.ok_of_bind hargs
    obtain ⟨vs, s₂, hvs, hargs⟩ := Run.ok_of_bind hargs
    cases hargs
    simp only [Binding.bindItems, List.head?_cons, Option.getD_some] at hbind
    obtain ⟨mid, hmid, hbind⟩ := exists_of_bind_ok hbind
    obtain ⟨added, rfl, hkeys, -⟩ := Binding.exists_front_of_bind hmid
    have hvalue : eval depth (site.at i) (front ++ scope) argument s = (.ok v, s₁) := by
      rw [eval_append_of_omits hargument]
      exact hv
    have hnext : evalBindings (eval depth) site (i + 1) clauses (added ++ (front ++ scope)) s₁ =
        (.ok inner, u) := by
      rw [← List.append_assoc] at hbind ⊢
      refine ih (fun c hc b hb => ?_) (fun c hc p hp => ?_) hvs hbind
      · exact homits c (List.mem_cons_of_mem _ hc) b (List.mem_cons_of_mem _ hb)
      · rcases List.mem_append.1 hp with hp | hp
        · have hname : p.1 ∈ b.names := List.mem_reverse.1 (hkeys ▸ List.mem_map_of_mem hp)
          exact homits c (List.mem_cons_of_mem _ hc) b List.mem_cons_self _ hname
        · exact hfront c hc p hp
    unfold evalBindings
    rw [hb]
    dsimp only
    rw [Run.bind_of_ok hvalue, hmid]
    exact hnext

/-! ## Both forms -/

namespace Form

/-- The call of a function form, given its parameters with their arguments. -/
def applied (clauses : List (Form × Form)) (body : List Form) : Form :=
  .list (.list (.sym "fn" :: .vector (clauses.map (·.1)) :: body) :: clauses.map (·.2))

/-- The same patterns and forms as local bindings. -/
def letting (clauses : List (Form × Form)) (body : List Form) : Form :=
  .list (.sym "let" :: .vector (clauses.flatMap fun (pattern, argument) => [pattern, argument]) :: body)

variable {clauses : List (Form × Form)} {bs : List Binding} {values : List Value} {scope inner : Scope} {site : Site}
  {s u : Effects} {depth : Nat}

/-- A call of a function form runs its body where the parameters are bound to the arguments. -/
theorem eval_applied (hparse : List.Forall₂ (fun c b => Binding.parse c.1 = .ok b) clauses bs)
    (hargs : evalItems (eval (depth + 1)) site.operands scope 1 (clauses.map (·.2)) s = (.ok values, u))
    (hbind : Binding.bindItems bs values scope = .ok inner) (hlength : values.length = bs.length) (body : List Form) :
    eval (depth + 2) site scope (applied clauses body) s = evalBody (eval depth) site.body inner 0 body u := by
  have hfunction : eval (depth + 1) (site.operands.at 0) scope
      (.list (.sym "fn" :: .vector (clauses.map (·.1)) :: body)) =
        pure (.fn (.closure (site.operands.at 0) (.seq bs none none) body scope)) := by
    show evalFn (site.operands.at 0) scope (.vector (clauses.map (·.1)) :: body) = _
    rw [evalFn, Binding.parse_parameters hparse]
  have hparams : (Binding.seq bs none none).bind (.list values) scope = .ok inner := by
    simp only [Binding.bind, Value.elements?, hbind, Binding.bindRest]
    rfl
  show evalCall (eval (depth + 1)) (apply (depth + 1)) site scope _ (clauses.map (·.2)) s = _
  rw [evalCall, hfunction, pure_bind, Run.bind_of_ok hargs]
  show callClosure (eval depth) site.body (.seq bs none none) body scope values u = _
  rw [callClosure, Binding.arity?]
  dsimp only
  rw [if_pos hlength, hparams]
  rfl

/-- Local bindings run their body where the patterns are bound to the values one after the other. -/
theorem eval_letting
    (hbindings : evalBindings (eval depth) site.operands 1 clauses scope s = (.ok inner, u)) (body : List Form) :
    eval (depth + 1) site scope (letting clauses body) s = evalBody (eval depth) site.body inner 0 body u := by
  show evalLet (eval depth) site scope
    (.vector (clauses.flatMap fun (pattern, argument) => [pattern, argument]) :: body) s = _
  rw [evalLet, pairUp?_flatten]
  exact Run.bind_of_ok hbindings _

/-- If the arguments evaluate and the patterns fit the values, calling a function form and binding its parameters
around the body come to the same: the same value, or the same error, with the same effects. Evaluated to the limit,
both are alike unless one of them nests too deeply for it. -/
theorem yields_applied_iff (hparse : List.Forall₂ (fun c b => Binding.parse c.1 = .ok b) clauses bs)
    (hfresh : ∀ c ∈ clauses, ∀ b ∈ bs, ∀ name ∈ b.names, .sym name ∉ c.2.subforms)
    (hfn : ∀ c ∈ clauses, ∀ f ∈ c.2.subforms, f.head? ≠ some "fn")
    (hargs : Run.Reaches (fun depth => evalItems (eval depth) site.operands scope 1 (clauses.map (·.2))) s
      (.ok values) u)
    (hbinds : List.Forall₂ (fun b v => ∃ inner, b.bind v scope = .ok inner) bs values) (body : List Form) :
    (∀ o t, (applied clauses body).Yields site scope s o t ↔ (letting clauses body).Yields site scope s o t) ∧
    (((applied clauses body).evalAt site scope s).1 ≠ .error (.exhausted .nesting) →
      ((letting clauses body).evalAt site scope s).1 ≠ .error (.exhausted .nesting) →
      (applied clauses body).evalAt site scope s = (letting clauses body).evalAt site scope s) := by
  obtain ⟨hended, limit, hlimit⟩ := hargs
  have hargs : ∀ depth ≥ limit, evalItems (eval depth) site.operands scope 1 (clauses.map (·.2)) s = (.ok values, u) :=
    fun depth hd => evalItems_deepening _ _ _ _ limit depth s (.ok values) u hd hended hlimit
  obtain ⟨inner, hinner⟩ := Binding.exists_bindItems hbinds scope
  have homits : ∀ c ∈ clauses, ∀ b ∈ bs, ∀ name ∈ b.names, c.2.Omits name := fun c hc b hb name hname =>
    c.2.omits_of_subforms fun f hf => ⟨fun h => hfresh c hc b hb name hname (h ▸ hf), hfn c hc f hf⟩
  have hrun : ∀ depth ≥ limit, eval (depth + 2) site scope (applied clauses body) s =
      eval (depth + 1) site scope (letting clauses body) s := by
    intro depth hd
    have hfront : ∀ c ∈ clauses, ∀ p ∈ Scope.empty, c.2.Omits p.1 := fun _ _ => nofun
    have hbindings := evalBindings_of_evalItems hparse homits hfront (hargs depth hd) hinner
    rw [eval_applied hparse (hargs (depth + 1) (Nat.le_succ_of_le hd)) hinner hbinds.length_eq.symm]
    exact (eval_letting hbindings body).symm
  have happlied := eval_deepening site scope (applied clauses body)
  have hletting := eval_deepening site scope (letting clauses body)
  have hreaches : ∀ r t, (applied clauses body).Reaches site scope s r t ↔
      (letting clauses body).Reaches site scope s r t := by
    intro r t
    have hsame := Run.reaches_iff_of_eq (r := r) (t := t) (happlied.shift 2) (hletting.shift 1) limit hrun
    rwa [Run.reaches_shift_iff happlied, Run.reaches_shift_iff hletting] at hsame
  exact ⟨fun o t => hreaches _ t, evalAt_eq_of_reaches fun r t h => (hreaches r t).1 h⟩

/-- `((fn [[x y] x] (vector x y)) [1 (trace 2)] 3)`, where the second parameter hides a part of the first. -/
theorem yields_applied_iff_hidden :
    let scope : Scope := [("trace", .fn (.probe .trace)), ("vector", .fn (.builtin .vector))]
    let clauses : List (Form × Form) :=
      [(.vector [.sym "x", .sym "y"], .vector [.lit (.int 1), .list [.sym "trace", .lit (.int 2)]]),
        (.sym "x", .lit (.int 3))]
    let bs : List Binding := [.seq [.name "x", .name "y"] none none, .name "x"]
    let values : List Value := [.list [.int 1, .int 2], .int 3]
    List.Forall₂ (fun c b => Binding.parse c.1 = .ok b) clauses bs ∧
      (∀ c ∈ clauses, ∀ b ∈ bs, ∀ name ∈ b.names, .sym name ∉ c.2.subforms) ∧
      (∀ c ∈ clauses, ∀ f ∈ c.2.subforms, f.head? ≠ some "fn") ∧
      Run.Reaches (fun depth => evalItems (eval depth) (Site.operands []) scope 1 (clauses.map (·.2))) {} (.ok values)
        { log := ["2"] } ∧
      List.Forall₂ (fun b v => ∃ inner, b.bind v scope = .ok inner) bs values ∧
      (applied clauses [.list [.sym "vector", .sym "x", .sym "y"]]).Yields [] scope {} (.ok (.list [.int 3, .int 2]))
        { log := ["2"] } := by
  intro scope clauses bs values
  have hparse : List.Forall₂ (fun c b => Binding.parse c.1 = .ok b) clauses bs := by
    refine .cons ?_ (.cons ?_ .nil)
    · with_unfolding_all rfl
    · with_unfolding_all rfl
  have hfresh : ∀ c ∈ clauses, ∀ b ∈ bs, ∀ name ∈ b.names, .sym name ∉ c.2.subforms := by
    simp [clauses, bs, Binding.names, Binding.namesOfItems, Binding.namesOfRest, Form.subforms, subformsOf]
  have hfn : ∀ c ∈ clauses, ∀ f ∈ c.2.subforms, f.head? ≠ some "fn" := by
    simp [clauses, Form.subforms, subformsOf, Form.head?]
  have hargs : Run.Reaches (fun depth => evalItems (eval depth) (Site.operands []) scope 1 (clauses.map (·.2))) {}
      (.ok values) { log := ["2"] } := ⟨Run.ended_ok _, 4, by with_unfolding_all rfl⟩
  have hbinds : List.Forall₂ (fun b v => ∃ inner, b.bind v scope = .ok inner) bs values := by
    refine .cons ⟨("y", .int 2) :: ("x", .int 1) :: scope, ?_⟩ (.cons ⟨("x", .int 3) :: scope, ?_⟩ .nil)
    · with_unfolding_all rfl
    · with_unfolding_all rfl
  have hletting : (letting clauses [.list [.sym "vector", .sym "x", .sym "y"]]).Yields [] scope {}
      (.ok (.list [.int 3, .int 2])) { log := ["2"] } := ⟨Run.ended_ok _, 4, by with_unfolding_all rfl⟩
  exact ⟨hparse, hfresh, hfn, hargs, hbinds,
    ((yields_applied_iff hparse hfresh hfn hargs hbinds _).1 _ _).2 hletting⟩

end Form

end Attest
