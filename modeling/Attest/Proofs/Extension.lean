import Attest.Binding
import Attest.Proofs.Computation
/-!
# Binding puts names in front of a scope

What a pattern binds does not depend on the scope it is bound in: it is put in front of the
scope, or fails the same way in every scope (`Binding.bind_extending`).
-/

namespace Attest

/-- A step from scope to scope that fails in every scope alike or puts the same bindings in
front of it. -/
def Scope.Extending (f : Scope → Except Thrown Scope) : Prop :=
  ∀ scope, f scope = (f .empty).map (· ++ scope)

namespace Scope.Extending

variable {f g : Scope → Except Thrown Scope}

theorem ok : Extending .ok := fun _ => rfl

theorem error (t : Thrown) : Extending fun _ => .error t := fun _ => rfl

theorem bindName (name : String) (value : Value) : Extending fun scope => .ok (scope.bind name value) :=
  fun _ => rfl

theorem andThen (hf : Extending f) (hg : Extending g) : Extending fun scope => f scope >>= g := by
  intro scope
  show f scope >>= g = (f .empty >>= g).map (· ++ scope)
  rw [hf scope]
  cases f .empty with
  | error t => rfl
  | ok ext =>
    show g (ext ++ scope) = (g ext).map (· ++ scope)
    rw [hg, hg ext]
    cases g .empty with
    | error t => rfl
    | ok ext' => exact congrArg Except.ok (List.append_assoc ..).symm

/-- The bindings that are put in front of one scope are put in front of every scope. -/
theorem exists_append (hf : Extending f) {scope result : Scope} (h : f scope = .ok result) :
    ∃ ext, result = ext ++ scope ∧ ∀ other, f other = .ok (ext ++ other) := by
  rw [hf scope] at h
  cases he : f .empty with
  | error t =>
    rw [he] at h
    cases h
  | ok ext =>
    rw [he] at h
    cases h
    exact ⟨ext, rfl, fun other => by rw [hf other, he]; rfl⟩

theorem error_of (hf : Extending f) {scope : Scope} {t : Thrown} (h : f scope = .error t)
    (other : Scope) : f other = .error t := by
  rw [hf scope] at h
  rw [hf other]
  cases he : f .empty with
  | error t' =>
    rw [he] at h
    cases h
    rfl
  | ok ext =>
    rw [he] at h
    cases h

end Scope.Extending

namespace Binding

open Scope.Extending

theorem bindWhole_extending (whole : Option String) (value : Value) :
    Scope.Extending fun scope => .ok (bindWhole whole value scope) := by
  cases whole with
  | none => exact ok
  | some n => exact bindName n value

mutual

/-- A pattern binds the same names to the same values in every scope. -/
theorem bind_extending : (b : Binding) → (value : Value) → Scope.Extending (b.bind value)
  | .name n, value => by
    show Scope.Extending fun scope => bind (.name n) value scope
    simp only [bind]
    exact bindName n value
  | .seq items rest whole, value => by
    show Scope.Extending fun scope => bind (.seq items rest whole) value scope
    simp only [bind]
    cases value.elements? with
    | none => exact error _
    | some elements =>
      exact (bindItems_extending items elements).andThen
        ((bindRest_extending rest _).andThen (bindWhole_extending whole value))
  | .map entries whole, value => by
    show Scope.Extending fun scope => bind (.map entries whole) value scope
    simp only [bind]
    cases entriesOf value with
    | error t => exact error t
    | ok found =>
      exact (bindEntries_extending entries found).andThen (bindWhole_extending whole value)

theorem bindItems_extending :
    (bs : List Binding) → (elements : List Value) → Scope.Extending (bindItems bs elements)
  | [], elements => by
    show Scope.Extending fun scope => bindItems [] elements scope
    simp only [bindItems]
    exact ok
  | b :: bs, elements => by
    show Scope.Extending fun scope => bindItems (b :: bs) elements scope
    simp only [bindItems]
    exact (bind_extending b _).andThen (bindItems_extending bs elements.tail)

theorem bindRest_extending :
    (rest : Option Binding) → (value : Value) → Scope.Extending (bindRest rest value)
  | none, value => by
    show Scope.Extending fun scope => bindRest none value scope
    simp only [bindRest]
    exact ok
  | some b, value => by
    show Scope.Extending fun scope => bindRest (some b) value scope
    simp only [bindRest]
    exact bind_extending b value

theorem bindEntries_extending :
    (entries : List (Binding × Value)) → (found : List (Value × Value)) →
      Scope.Extending (bindEntries entries found)
  | [], found => by
    show Scope.Extending fun scope => bindEntries [] found scope
    simp only [bindEntries]
    exact ok
  | (b, key) :: rest, found => by
    show Scope.Extending fun scope => bindEntries ((b, key) :: rest) found scope
    simp only [bindEntries]
    exact (bind_extending b _).andThen (bindEntries_extending rest found)

end

/-- A pattern puts the same bindings in front of two scopes, or fails alike in both. -/
theorem bind_rel (b : Binding) (v : Value) {R : Scope → Scope → Prop} {s s' : Scope}
    (h : ∀ ext : Scope, R (ext ++ s) (ext ++ s')) :
    Run.Rel R (Run.ofExcept (b.bind v s) : Eval Scope) (Run.ofExcept (b.bind v s')) := by
  have hb := b.bind_extending v
  cases hs : b.bind v s with
  | error t =>
    rw [hb.error_of hs s']
    exact .raise _ t
  | ok inner =>
    obtain ⟨ext, rfl, hother⟩ := hb.exists_append hs
    rw [hother s']
    exact .pure (h ext)

end Binding

end Attest
