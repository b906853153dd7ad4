import Attest.Proofs.Extension
import Attest.Proofs.Within
/-!
# Destructuring binds the names of its pattern

Where a pattern fits a value, it puts one binding in front of the scope for each of its names, the last name
first (`Binding.keys_of_bind`), so that of a name that it has twice the last occurrence counts. Hence the names
of a pattern are bound, to values that do not depend on the scope, and no other name is touched
(`Binding.bind_names`).
-/

namespace Attest

namespace Scope

variable {front scope : Scope} {name : String}

/-- A name is looked up in what stands in front first. -/
theorem lookup_append (front scope : Scope) (name : String) :
    lookup (front ++ scope) name = (lookup front name).or (lookup scope name) := by
  simp only [lookup, List.find?_append]
  cases front.find? (·.1 == name) <;> rfl

theorem lookup_eq_none_iff : lookup scope name = none ↔ name ∉ scope.map (·.1) := by
  simp only [lookup, Option.map_eq_none_iff, List.find?_eq_none, List.mem_map, beq_iff_eq, not_exists, not_and]

/-- What a name is bound to in front does not depend on what is behind. -/
theorem exists_lookup_append (h : name ∈ front.map (·.1)) : ∃ v, ∀ scope, lookup (front ++ scope) name = some v := by
  cases hv : lookup front name with
  | none => exact absurd h (lookup_eq_none_iff.1 hv)
  | some v => exact ⟨v, fun scope => by rw [lookup_append, hv, Option.some_or]⟩

theorem lookup_append_of_notMem (h : name ∉ front.map (·.1)) (scope : Scope) :
    lookup (front ++ scope) name = lookup scope name := by
  rw [lookup_append, lookup_eq_none_iff.2 h, Option.none_or]

end Scope

namespace Binding

/-! ## What stands in front of the scope -/

theorem keys_bindWhole (whole : Option String) (value : Value) (scope : Scope) :
    (bindWhole whole value scope).map (·.1) = whole.toList.reverse ++ scope.map (·.1) := by
  cases whole <;> rfl

mutual

/-- A pattern puts its names in front of the names of the scope, the last one first. -/
theorem keys_of_bind : (b : Binding) → {value : Value} → {scope result : Scope} →
    b.bind value scope = .ok result → result.map (·.1) = b.names.reverse ++ scope.map (·.1)
  | .name n, value, scope, result, h => by
    simp only [bind] at h
    cases h
    rfl
  | .seq items rest whole, value, scope, result, h => by
    simp only [bind] at h
    cases he : value.elements? with
    | none =>
      rw [he] at h
      cases h
    | some elements =>
      rw [he] at h
      obtain ⟨positions, hi, h⟩ := exists_of_bind_ok h
      obtain ⟨both, hr, h⟩ := exists_of_bind_ok h
      cases h
      rw [keys_bindWhole, keys_of_bindRest rest hr, keys_of_bindItems items hi, names]
      simp only [List.reverse_append, List.append_assoc]
  | .map entries whole, value, scope, result, h => by
    simp only [bind] at h
    obtain ⟨found, -, h⟩ := exists_of_bind_ok h
    obtain ⟨inner, he, h⟩ := exists_of_bind_ok h
    cases h
    rw [keys_bindWhole, keys_of_bindEntries entries he, names]
    simp only [List.reverse_append, List.append_assoc]

theorem keys_of_bindItems : (bs : List Binding) → {elements : List Value} → {scope result : Scope} →
    bindItems bs elements scope = .ok result →
      result.map (·.1) = (namesOfItems bs).reverse ++ scope.map (·.1)
  | [], elements, scope, result, h => by
    simp only [bindItems] at h
    cases h
    rfl
  | b :: bs, elements, scope, result, h => by
    simp only [bindItems] at h
    obtain ⟨inner, hb, h⟩ := exists_of_bind_ok h
    rw [keys_of_bindItems bs h, keys_of_bind b hb, namesOfItems]
    simp only [List.reverse_append, List.append_assoc]

theorem keys_of_bindRest : (rest : Option Binding) → {value : Value} → {scope result : Scope} →
    bindRest rest value scope = .ok result →
      result.map (·.1) = (namesOfRest rest).reverse ++ scope.map (·.1)
  | none, value, scope, result, h => by
    simp only [bindRest] at h
    cases h
    rfl
  | some b, value, scope, result, h => by
    simp only [bindRest] at h
    exact keys_of_bind b h

theorem keys_of_bindEntries : (entries : List (Binding × Value)) → {found : List (Value × Value)} →
    {scope result : Scope} → bindEntries entries found scope = .ok result →
      result.map (·.1) = (namesOfEntries entries).reverse ++ scope.map (·.1)
  | [], found, scope, result, h => by
    simp only [bindEntries] at h
    cases h
    rfl
  | (b, key) :: rest, found, scope, result, h => by
    simp only [bindEntries] at h
    obtain ⟨inner, hb, h⟩ := exists_of_bind_ok h
    rw [keys_of_bindEntries rest h, keys_of_bind b hb, namesOfEntries]
    simp only [List.reverse_append, List.append_assoc]

end

/-- What a pattern puts in front of one scope it puts in front of every scope: its names, the last one first. -/
theorem exists_front_of_bind {b : Binding} {value : Value} {scope result : Scope}
    (h : b.bind value scope = .ok result) :
    ∃ front, result = front ++ scope ∧ front.map (·.1) = b.names.reverse ∧
      ∀ other, b.bind value other = .ok (front ++ other) := by
  obtain ⟨front, rfl, hother⟩ := (b.bind_extending value).exists_append h
  have hkeys := keys_of_bind b h
  rw [List.map_append, List.append_left_inj] at hkeys
  exact ⟨front, rfl, hkeys, hother⟩

/-! ## The bindings afterwards -/

/-- A pattern fails to fit a value in any two scopes with the same error, or fits it in both. Then each of its
names is bound in both to the same value, and every other name in each to what it was bound to, if anything. -/
theorem bind_names (b : Binding) (value : Value) (scope other : Scope) :
    (∃ t, b.bind value scope = .error t ∧ b.bind value other = .error t) ∨
      ∃ result result', b.bind value scope = .ok result ∧ b.bind value other = .ok result' ∧
        (∀ name ∈ b.names, ∃ v, result.lookup name = some v ∧ result'.lookup name = some v) ∧
        ∀ name ∉ b.names, result.lookup name = scope.lookup name ∧ result'.lookup name = other.lookup name := by
  cases hb : b.bind value scope with
  | error t => exact .inl ⟨t, rfl, (b.bind_extending value).error_of hb other⟩
  | ok result =>
    obtain ⟨front, rfl, hkeys, hother⟩ := exists_front_of_bind hb
    refine .inr ⟨_, _, rfl, hother other, fun name hname => ?_, fun name hname => ?_⟩
    · have hmem : name ∈ front.map (·.1) := hkeys ▸ List.mem_reverse.2 hname
      obtain ⟨v, hv⟩ := Scope.exists_lookup_append hmem
      exact ⟨v, hv scope, hv other⟩
    · have hmem : name ∉ front.map (·.1) := fun hmem => hname (List.mem_reverse.1 (hkeys ▸ hmem))
      exact ⟨Scope.lookup_append_of_notMem hmem scope, Scope.lookup_append_of_notMem hmem other⟩

end Binding

end Attest
