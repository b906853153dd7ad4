import Attest.Proofs.Fresh
/-!
# Names that an assertion does not mention

A binding for a name that occurs in neither form of an assertion has no part in checking it: the
assertion ends with the same defect or the same events, and with the same effects
(`Engine.check_bind_of_not_mem`). A function that the assertion made would keep the scope it was
made in, so its forms make none.
-/

namespace Attest

/-- Two runs with one engine in scopes that may differ in a name. -/
def Variation.rebound (engine : Engine) (x : String) : Variation :=
  .fresh engine x Eq withContext_congr fun _ => rfl

namespace Engine

variable {x : String}

/-- An assertion is checked alike in scopes that agree in all names but one that it does not
mention. -/
theorem check_eq_of_agreeExcept (engine : Engine) {a : Assertion} (he : a.expected.Omits x)
    (ha : a.actual.Omits x) {s s' : Scope} (hs : s.AgreeExcept x s') :
    engine.check a s = engine.check a s' := by
  have hplan : a.plan.Within (Variation.rebound engine x).forms := Plan.ofForms_within omits_inherited he ha
  refine Run.Rel.eq (Run.Rel.bind_same rfl fun site => ?_)
  have halike : (Variation.rebound engine x).CheckAlike (a.check site s) (a.check site s') :=
    { expected := rfl
      form := he
      scope := hs
      raise := rfl
      label := fun _ => rfl
      message := rfl
      site := rfl
      outcome := Variation.outcome_eq (V := .rebound engine x) ha hs rfl rfl rfl }
  refine (Variation.checkAt_alike (V := .rebound engine x) rfl hplan halike).mono fun es es' h => ?_
  exact Variation.events_eq trivial (fun _ _ hm => hm) h

/-- Binding a name that occurs in neither form of an assertion, not even as a name to be bound,
changes nothing of what checking the assertion gives or does. -/
theorem check_bind_of_not_mem (engine : Engine) (a : Assertion) (scope : Scope) (v : Value)
    (he : .sym x ∉ a.expected.subforms) (ha : .sym x ∉ a.actual.subforms)
    (hfn : ∀ f ∈ a.expected.subforms ++ a.actual.subforms, f.head? ≠ some "fn") :
    engine.check a (scope.bind x v) = engine.check a scope := by
  have homits : ∀ form : Form, .sym x ∉ form.subforms → (∀ f ∈ form.subforms, f.head? ≠ some "fn") →
      form.Omits x := fun form hx hfn =>
    form.omits_of_subforms fun f hf => ⟨fun h => hx (h ▸ hf), hfn f hf⟩
  have hexpected := homits a.expected he fun f hf => hfn f (List.mem_append_left _ hf)
  have hactual := homits a.actual ha fun f hf => hfn f (List.mem_append_right _ hf)
  exact (check_eq_of_agreeExcept engine hexpected hactual (Scope.AgreeExcept.bind x v scope)).symm

/-- `(expect (more 1 x) (from-each [x [1]] x))` does not mention `y`. -/
theorem check_bind_y : Engine.check {}
      { expected := .list [.sym "more", .lit (.int 1), .sym "x"]
        actual := .list [.sym "from-each", .vector [.sym "x", .vector [.lit (.int 1)]], .sym "x"] }
      (Scope.bind .empty "y" (.int 2)) =
    Engine.check {}
      { expected := .list [.sym "more", .lit (.int 1), .sym "x"]
        actual := .list [.sym "from-each", .vector [.sym "x", .vector [.lit (.int 1)]], .sym "x"] }
      .empty :=
  check_bind_of_not_mem {} _ .empty (.int 2) (by simp [Form.subforms, subformsOf])
    (by simp [Form.subforms, subformsOf]) (by simp [Form.subforms, subformsOf, Form.head?])

end Engine

end Attest
