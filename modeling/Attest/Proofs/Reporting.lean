import Attest.Proofs.Variation
/-!
# Reporting does not decide

The label and the message of an assertion and the renderer of an engine are for those who
read its events. They have no part in what is evaluated, so they change no verdict
(`Engine.statuses_check_eq`).
-/

namespace Attest

/-- Two runs that report differently, in the same scope. -/
def Variation.reporting (schemas : Option Validator) (r r' : Option Renderer) : Variation where
  left := ⟨r, schemas⟩
  right := ⟨r', schemas⟩
  forms _ := True
  scopes := Eq
  texts := False
  messages _ _ := True
  parts := ⟨fun _ _ _ _ => trivial, fun _ _ _ _ => trivial, fun _ _ => trivial⟩
  literal _ := trivial
  step _ _ _ := trivial
  eval := by
    rintro form s _ - rfl site
    rfl
  extend := by
    rintro s _ rfl ext
    rfl
  schemas := rfl
  renderer := False.elim
  context _ _ := trivial
  reason _ _ := trivial

namespace Variation

variable {schemas : Option Validator} {r r' : Option Renderer}

/-- Events that differ in what they report have the same statuses, in the same order. -/
theorem statuses_eq_of_reporting {es es' : List Event}
    (h : List.Forall₂ (reporting schemas r r').EventAlike es es') :
    es.map Event.status = es'.map Event.status := by
  induction h with
  | nil => rfl
  | cons he _ ih => rw [List.map_cons, List.map_cons, he.status, ih]

/-- Checks that differ in their label and message alone are run alike. -/
theorem reporting_checkAlike (a : Assertion) (l l' m m' : Option String) (site : Site) (s : Scope) :
    (reporting schemas r r').CheckAlike ({ a with label := l, message := m }.check site s)
      ({ a with label := l', message := m' }.check site s) where
  expected := rfl
  form := trivial
  outcome _ := rfl
  scope := rfl
  raise := rfl
  label := False.elim
  message := trivial
  site := rfl

end Variation

namespace Engine

/-- Whatever the labels, messages and renderers, an assertion ends with the same defect or
with events of the same statuses, and with the same effects. -/
theorem statuses_check_eq (a : Assertion) (scope : Scope) (schemas : Option Validator)
    (l l' m m' : Option String) (r r' : Option Renderer) :
    List.map Event.status <$> Engine.check ⟨r, schemas⟩ { a with label := l, message := m } scope =
      List.map Event.status <$> Engine.check ⟨r', schemas⟩ { a with label := l', message := m' } scope := by
  have hw : a.plan.Within (Variation.reporting schemas r r').forms :=
    Plan.ofForms_within (Variation.reporting schemas r r').parts trivial trivial
  have hcheck : Run.Rel (List.Forall₂ (Variation.reporting schemas r r').EventAlike)
      (Engine.check ⟨r, schemas⟩ { a with label := l, message := m } scope)
      (Engine.check ⟨r', schemas⟩ { a with label := l', message := m' } scope) := by
    refine Run.Rel.bind_same rfl fun site => ?_
    exact Variation.checkAt_alike (V := .reporting schemas r r') rfl hw
      (Variation.reporting_checkAlike a l l' m m' site scope)
  exact hcheck.map_eq fun es es' h => Variation.statuses_eq_of_reporting h

end Engine

end Attest
