import Attest.Proofs.Lookup
/-!
# Differences from the other side

What one value has and another one lacks is what the difference the other way round tells as added
(`Value.sides_symm`), though the two sides are found in different ways: maps are gone through by the keys
of one map and then by those of the other, and of two lists either can be longer.
-/

namespace Attest

namespace Sides

/-- Both sides tell nothing, or equal values. -/
abbrev SameSide : Option Value → Option Value → Prop := Option.Rel fun v w => (v == w) = true

namespace SameSide

variable {x y : Option Value}

theorem refl (x : Option Value) : SameSide x x := by
  cases x with
  | none => exact .none
  | some v => exact .some (Value.beq_self v)

theorem symm (h : SameSide x y) : SameSide y x := by
  cases h with
  | none => exact .none
  | some h => exact .some (Value.same_equivalence.symm h)

/-- Where nothing is told, both positions have a nil. -/
theorem getD_nil (h : SameSide x y) : (x.getD .nil == y.getD .nil) = true := by
  cases h with
  | none => exact Value.beq_self _
  | some h => exact h

end SameSide

/-! ## Lists -/

theorem listSide_eq (items : List (Option Value)) : listSide items =
    match (items.map (·.getD .nil)).rdropWhile Value.isNil with
    | [] => none
    | items => some (.list items) := rfl

/-- Positions that tell the same make the same side of a difference. -/
theorem sameSide_listSide {xs ys : List (Option Value)} (h : List.Forall₂ SameSide xs ys) :
    SameSide (listSide xs) (listSide ys) := by
  have hitems : SameItems (xs.map (·.getD .nil)) (ys.map (·.getD .nil)) := by
    rw [SameItems, List.forall₂_map_left_iff, List.forall₂_map_right_iff]
    exact h.imp fun x y => SameSide.getD_nil
  have htrimmed := hitems.rdropWhile
  rw [listSide_eq, listSide_eq]
  generalize (xs.map (·.getD .nil)).rdropWhile Value.isNil = as at htrimmed ⊢
  generalize (ys.map (·.getD .nil)).rdropWhile Value.isNil = bs at htrimmed ⊢
  cases htrimmed with
  | nil => exact .none
  | cons hab hrest => exact .some (Value.list_beq_iff.2 (.cons hab hrest))

variable {sides : Value → Value → Sides}

theorem positions_nil_right (sides : Value → Value → Sides) (es : List Value) :
    positions sides es [] = es.map fun e => (some e, none) := by
  cases es <;> rfl

/-- What each position of a list removes is what it adds the other way round. -/
theorem forall₂_positions {es as : List Value} (h : ∀ e ∈ es, ∀ a ∈ as, SameSide (sides e a).1 (sides a e).2) :
    List.Forall₂ SameSide ((positions sides es as).map (·.1)) ((positions sides as es).map (·.2)) := by
  rw [List.forall₂_map_left_iff, List.forall₂_map_right_iff]
  induction es generalizing as with
  | nil =>
    rw [positions_nil_right, positions, List.forall₂_map_left_iff, List.forall₂_map_right_iff]
    exact List.forall₂_same.2 fun a _ => .refl none
  | cons e es ih =>
    cases as with
    | nil =>
      rw [positions_nil_right, positions, List.forall₂_map_left_iff, List.forall₂_map_right_iff]
      exact List.forall₂_same.2 fun e _ => .refl (some e)
    | cons a as =>
      refine .cons (h e List.mem_cons_self a List.mem_cons_self) (ih fun e' he' a' ha' => ?_)
      exact h e' (List.mem_cons_of_mem e he') a' (List.mem_cons_of_mem a ha')

/-! ## Maps -/

/-- Maps that tell the same under each key are the same side of a difference. -/
theorem sameSide_mapSide {es fs : List (Value × Value)} (hes : Elements.Increasing (Entries.keys es))
    (hfs : Elements.Increasing (Entries.keys fs))
    (h : ∀ k, SameSide (Entries.find? es k) (Entries.find? fs k)) : SameSide (mapSide es) (mapSide fs) := by
  have hentries := Entries.forall₂_of_find? hes hfs h
  cases hentries with
  | nil => exact .none
  | cons hef hrest => exact .some (Value.map_beq_iff.2 (.cons hef hrest))

variable {expected actual : List (Value × Value)}

/-- What is missing is a choice of the expected entries, with what is left of them. -/
theorem removedEntries_eq (sides : Value → Value → Sides) (expected actual : List (Value × Value)) :
    removedEntries sides expected actual = expected.filterMap fun p =>
      ((Entries.find? actual p.1).elim (some p.2) fun a => (sides p.2 a).1).map (p.1, ·) := by
  refine List.filterMap_congr fun p _ => ?_
  dsimp only
  cases Entries.find? actual p.1 <;> rfl

/-- What is under expected keys and should not be is a choice of the expected keys. -/
theorem changedEntries_eq (sides : Value → Value → Sides) (expected actual : List (Value × Value)) :
    changedEntries sides expected actual = expected.filterMap fun p =>
      ((Entries.find? actual p.1).bind fun a => (sides p.2 a).2).map (p.1, ·) := by
  refine List.filterMap_congr fun p _ => ?_
  dsimp only
  cases Entries.find? actual p.1 <;> rfl

/-- Under each key is what is expected and missing, or what is left of it. -/
theorem find?_removedEntries (h : Elements.Increasing (Entries.keys expected)) (k : Value) :
    Entries.find? (removedEntries sides expected actual) k = (Entries.find? expected k).bind fun e =>
      (Entries.find? actual k).elim (some e) fun a => (sides e a).1 := by
  rw [removedEntries_eq]
  refine Entries.find?_select h fun p _ hp => ?_
  rw [Entries.find?_congr actual hp]

/-- Under each key is what the actual value has and should not. -/
theorem find?_changedEntries (h : Elements.Increasing (Entries.keys expected)) (k : Value) :
    Entries.find? (changedEntries sides expected actual) k = (Entries.find? expected k).bind fun e =>
      (Entries.find? actual k).bind fun a => (sides e a).2 := by
  rw [changedEntries_eq]
  refine Entries.find?_select h fun p _ hp => ?_
  rw [Entries.find?_congr actual hp]

/-- Under each key that is not expected is what the actual map has. -/
theorem find?_newEntries (k : Value) : Entries.find? (newEntries expected actual) k =
    if Entries.contains expected k = true then none else Entries.find? actual k := by
  have hkeys : ∀ k l, (k == l) = true → (!Entries.contains expected k) = !Entries.contains expected l := by
    intro k l hkl
    rw [Entries.contains_eq_isSome, Entries.contains_eq_isSome, Entries.find?_congr expected hkl]
  have hfilter := Entries.find?_filter (fun k => !Entries.contains expected k) hkeys actual k
  unfold newEntries
  rw [hfilter]
  cases Entries.contains expected k <;> rfl

/-! What is told of maps has its keys in order. -/

theorem increasing_removedEntries (h : Elements.Increasing (Entries.keys expected)) :
    Elements.Increasing (Entries.keys (removedEntries sides expected actual)) := by
  rw [removedEntries_eq]
  exact h.sublist (Entries.keys_filterMap_sublist _ _)

theorem increasing_newEntries (h : Elements.Increasing (Entries.keys actual)) :
    Elements.Increasing (Entries.keys (newEntries expected actual)) :=
  h.sublist (List.filter_sublist.map Prod.fst)

theorem increasing_addedEntries (h : Elements.Increasing (Entries.keys expected)) :
    Elements.Increasing (Entries.keys (Entries.putAll (changedEntries sides expected actual)
      (newEntries expected actual))) := by
  refine Entries.increasing_putAll ?_ _
  rw [changedEntries_eq]
  exact h.sublist (Entries.keys_filterMap_sublist _ _)

/-- Under each key is what the actual map has there if it is not expected, or what its value should
not have. -/
theorem find?_addedEntries (he : Elements.Increasing (Entries.keys expected))
    (ha : Elements.Increasing (Entries.keys actual)) (k : Value) :
    Entries.find? (Entries.putAll (changedEntries sides expected actual) (newEntries expected actual)) k =
      (Entries.find? actual k).bind fun a =>
        (Entries.find? expected k).elim (some a) fun e => (sides e a).2 := by
  rw [Entries.find?_putAll, Entries.find?_reverse (increasing_newEntries ha), find?_newEntries,
    find?_changedEntries he, Entries.contains_eq_isSome]
  cases Entries.find? expected k <;> cases Entries.find? actual k <;> rfl

/-- What is removed of a map is what is added the other way round: for a key that only one map has, for
a key that both have, and for a key that none has. -/
theorem sameSide_maps {es as : List (Value × Value)} (hes : Elements.Increasing (Entries.keys es))
    (has : Elements.Increasing (Entries.keys as))
    (h : ∀ e ∈ es, ∀ a ∈ as, SameSide (sides e.2 a.2).1 (sides a.2 e.2).2) :
    SameSide (mapSide (removedEntries sides es as))
      (mapSide (Entries.putAll (changedEntries sides as es) (newEntries as es))) := by
  refine sameSide_mapSide (increasing_removedEntries hes) (increasing_addedEntries has) fun k => ?_
  rw [find?_removedEntries hes, find?_addedEntries has hes]
  cases hfe : Entries.find? es k with
  | none => exact .refl none
  | some e =>
    cases hfa : Entries.find? as k with
    | none => exact .refl (some e)
    | some a =>
      obtain ⟨x, hx, rfl⟩ := Entries.mem_of_find? hfe
      obtain ⟨y, hy, rfl⟩ := Entries.mem_of_find? hfa
      exact h x hx y hy

end Sides

namespace Value

/-- Both values are lists, or both are maps, or they are told whole, whichever of them is expected. -/
theorem both_sides_cases (e a : Value) :
    (∃ es as, e = .list es ∧ a = .list as) ∨ (∃ es as, e = .map es ∧ a = .map as) ∨
      ∀ levels, e.sides levels a = (if e == a then (none, none) else (some e, some a)) ∧
        a.sides levels e = (if a == e then (none, none) else (some a, some e)) := by
  rcases sides_cases e a with hlists | hmaps | he
  · exact .inl hlists
  · exact .inr (.inl hmaps)
  rcases sides_cases a e with ⟨as, es, ha, he⟩ | ⟨as, es, ha, he⟩ | ha
  · exact .inl ⟨es, as, he, ha⟩
  · exact .inr (.inl ⟨es, as, he, ha⟩)
  · exact .inr (.inr fun levels => ⟨(he levels).1, (ha levels).1⟩)

/-- Values that are not looked into are told whole, whichever of them is expected. -/
theorem sameSide_whole {levels : Nat} {e a : Value}
    (he : e.sides levels a = if e == a then (none, none) else (some e, some a))
    (ha : a.sides levels e = if a == e then (none, none) else (some a, some e)) :
    Sides.SameSide (e.sides levels a).1 (a.sides levels e).2 := by
  rw [he, ha]
  by_cases heq : (e == a) = true
  · rw [if_pos heq, if_pos (same_equivalence.symm heq)]
    exact .refl none
  · rw [if_neg heq, if_neg fun h => heq (same_equivalence.symm h)]
    exact .refl (some e)

/-- What is told as removed is what is told as added the other way round. -/
theorem sameSide_removed (levels : Nat) {e a : Value} (he : Invariant.sorted.OfValue e)
    (ha : Invariant.sorted.OfValue a) : Sides.SameSide (e.sides levels a).1 (a.sides levels e).2 := by
  induction levels generalizing e a with
  | zero => exact sameSide_whole (sides_zero e a) (sides_zero a e)
  | succ levels ih =>
    -- Only values that are not equal are looked into.
    by_cases heq : (e == a) = true
    · rw [sides_of_beq heq, sides_of_beq (same_equivalence.symm heq)]
      exact .refl none
    have hne : ¬(a == e) = true := fun h => heq (same_equivalence.symm h)
    rcases both_sides_cases e a with ⟨es, as, rfl, rfl⟩ | ⟨es, as, rfl, rfl⟩ | hwhole
    · rw [sides, if_neg heq, sides, if_neg hne]
      refine Sides.sameSide_listSide (Sides.forall₂_positions fun v hv w hw => ?_)
      exact ih (Invariant.ofItems_iff.1 he v hv) (Invariant.ofItems_iff.1 ha w hw)
    · rw [sides, if_neg heq, sides, if_neg hne]
      refine Sides.sameSide_maps he.1 ha.1 fun v hv w hw => ?_
      exact ih (Invariant.ofEntries_iff.1 he.2 v hv).2 (Invariant.ofEntries_iff.1 ha.2 w hw).2
    · exact sameSide_whole (hwhole (levels + 1)).1 (hwhole (levels + 1)).2

/-- The difference of two values is symmetric: what either has and the other one lacks does not depend
on which of them is expected. -/
theorem sides_symm (levels : Nat) {e a : Value} (he : Invariant.sorted.OfValue e)
    (ha : Invariant.sorted.OfValue a) :
    Sides.SameSide (e.sides levels a).1 (a.sides levels e).2 ∧
      Sides.SameSide (e.sides levels a).2 (a.sides levels e).1 :=
  ⟨sameSide_removed levels he ha, (sameSide_removed levels ha he).symm⟩

/-- Maps with keys of which each has one and both have others, and lists of which one is longer. -/
theorem sides_symm_of_maps :
    let e : Value := .map [(.int 1, .int 1), (.int 2, .list [.int 1, .int 2, .int 3])]
    let a : Value := .map [(.int 2, .list [.int 1, .int 4]), (.int 3, .int 3)]
    (Invariant.sorted.OfValue e ∧ Invariant.sorted.OfValue a) ∧
      Sides.SameSide (e.sides 2 a).1 (a.sides 2 e).2 ∧ Sides.SameSide (e.sides 2 a).2 (a.sides 2 e).1 ∧
      e.sides 2 a = (some (.map [(.int 1, .int 1), (.int 2, .list [.nil, .int 2, .int 3])]),
        some (.map [(.int 2, .list [.nil, .int 4]), (.int 3, .int 3)])) := by
  intro e a
  have h12 : (Value.int 1).compare (.int 2) = .lt := by decide +kernel
  have h23 : (Value.int 2).compare (.int 3) = .lt := by decide +kernel
  have he : Invariant.sorted.OfValue e :=
    ⟨.cons_cons h12 (.singleton _), by simp [Invariant.OfEntries, Invariant.OfValue, Invariant.OfItems]⟩
  have ha : Invariant.sorted.OfValue a :=
    ⟨.cons_cons h23 (.singleton _), by simp [Invariant.OfEntries, Invariant.OfValue, Invariant.OfItems]⟩
  obtain ⟨hremoved, hadded⟩ := sides_symm 2 he ha
  exact ⟨⟨he, ha⟩, hremoved, hadded, by with_unfolding_all rfl⟩

end Value

end Attest
