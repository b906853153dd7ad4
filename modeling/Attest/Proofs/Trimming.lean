import Attest.Proofs.Representation
import Attest.Proofs.Verdict
import Mathlib.Data.List.DropRight
/-!
# What a difference leaves out

In a list that tells a difference, `nil` stands for the positions that agree, and none is kept at
the end. So a `nil` that one list has behind the end of the other is lost with them. Two values have
no difference exactly when they are equal without such nils (`Value.trimmed`), at the levels that a
difference looks into.
-/

namespace Attest

namespace Value

/-- A value without the nils at the end of its lists, so many levels down. -/
def trimmed : Nat → Value → Value
  | levels + 1, .list items => .list ((items.map (trimmed levels)).rdropWhile isNil)
  | levels + 1, .map entries => .map (entries.map fun e => (e.1, trimmed levels e.2))
  | _, v => v

@[simp]
theorem trimmed_zero (v : Value) : v.trimmed 0 = v := by
  cases v <;> rfl

@[simp]
theorem kind_trimmed (levels : Nat) (v : Value) : (v.trimmed levels).kind = v.kind := by
  cases levels with
  | zero => rw [trimmed_zero]
  | succ levels => cases v <;> simp only [trimmed, kind]

@[simp]
theorem isNil_nil : nil.isNil = true := rfl

theorem isNil_iff {v : Value} : v.isNil = true ↔ v.kind = .nil := by
  cases v <;> simp [isNil, kind]

theorem eq_nil_of_isNil {v : Value} (h : v.isNil = true) : v = .nil := by
  cases v <;> simp [isNil] at h ⊢

@[simp]
theorem isNil_trimmed (levels : Nat) (v : Value) : (v.trimmed levels).isNil = v.isNil := by
  rw [Bool.eq_iff_iff, isNil_iff, isNil_iff, kind_trimmed]

theorem kind_eq_of_beq {a b : Value} (h : (a == b) = true) : a.kind = b.kind := by
  rw [beq_iff, compare_eq_then, Ordering.then_eq_eq] at h
  exact Kind.rank_injective (Std.LawfulEqOrd.eq_of_compare h.1)

theorem isNil_congr {a b : Value} (h : (a == b) = true) : a.isNil = b.isNil := by
  rw [Bool.eq_iff_iff, isNil_iff, isNil_iff, kind_eq_of_beq h]

theorem beq_self (a : Value) : (a == a) = true := same_equivalence.refl a

end Value

/-! ## Lists without nils at their end -/

/-- Two lists of values that are equal one by one. -/
abbrev SameItems : List Value → List Value → Prop := List.Forall₂ fun a b => (a == b) = true

theorem rdropWhile_cons {α : Type} (p : α → Bool) (a : α) (as : List α) :
    (a :: as).rdropWhile p = if as.rdropWhile p = [] ∧ p a = true then [] else a :: as.rdropWhile p := by
  unfold List.rdropWhile
  rw [List.reverse_cons, List.dropWhile_append]
  cases h : as.reverse.dropWhile p <;> cases hp : p a <;> simp [hp]

theorem sameItems_rdropWhile_cons {a b : Value} {as bs : List Value} :
    SameItems ((a :: as).rdropWhile Value.isNil) ((b :: bs).rdropWhile Value.isNil) ↔
      (a == b) = true ∧ SameItems (as.rdropWhile Value.isNil) (bs.rdropWhile Value.isNil) := by
  rw [rdropWhile_cons, rdropWhile_cons]
  by_cases hab : (a == b) = true
  · -- Equal heads are dropped together, and only where nothing of the tail remains.
    rw [← Value.isNil_congr hab]
    cases as.rdropWhile Value.isNil <;> cases bs.rdropWhile Value.isNil <;> cases a.isNil <;> simp [hab]
  · have hnil : ¬(a.isNil = true ∧ b.isNil = true) := by
      rintro ⟨ha, hb⟩
      rw [Value.eq_nil_of_isNil ha, Value.eq_nil_of_isNil hb] at hab
      exact hab (Value.beq_self _)
    cases as.rdropWhile Value.isNil <;> cases bs.rdropWhile Value.isNil <;> cases ha : a.isNil <;>
      cases hb : b.isNil <;> simp [ha, hb] at hnil ⊢ <;> simp [hab]

theorem SameItems.rdropWhile {as bs : List Value} (h : SameItems as bs) :
    SameItems (as.rdropWhile Value.isNil) (bs.rdropWhile Value.isNil) := by
  induction h with
  | nil => exact .nil
  | cons hab _ ih => exact sameItems_rdropWhile_cons.2 ⟨hab, ih⟩

namespace Value

/-- Both values are lists, or both are maps, or their difference is all of them and nothing of them
is trimmed that would make them equal. -/
theorem sides_cases (e a : Value) :
    (∃ es as, e = .list es ∧ a = .list as) ∨ (∃ es as, e = .map es ∧ a = .map as) ∨
      ∀ levels, e.sides levels a = (if e == a then (none, none) else (some e, some a)) ∧
        (e.trimmed levels == a.trimmed levels) = (e == a) := by
  by_cases h : e.kind = a.kind
  · cases e <;> cases a <;> try exact Kind.noConfusion h
    case list.list es as => exact .inl ⟨es, as, rfl, rfl⟩
    case map.map es as => exact .inr (.inl ⟨es, as, rfl, rfl⟩)
    all_goals exact .inr (.inr fun levels => by cases levels <;> exact ⟨rfl, rfl⟩)
  · refine .inr (.inr fun levels => ⟨?_, ?_⟩)
    · unfold sides
      split
      · rfl
      · split
        · exact absurd rfl h
        · exact absurd rfl h
        · rfl
    · have hne : (e == a) = false := Bool.eq_false_iff.2 fun heq => h (kind_eq_of_beq heq)
      rw [hne, Bool.eq_false_iff]
      intro heq
      have hkind := kind_eq_of_beq heq
      rw [kind_trimmed, kind_trimmed] at hkind
      exact h hkind

theorem list_beq_iff {as bs : List Value} : (Value.list as == .list bs) = true ↔ SameItems as bs := by
  rw [beq_iff, compare, compareItems_eq_iff]

theorem map_beq_iff {es fs : List (Value × Value)} :
    (Value.map es == .map fs) = true ↔
      List.Forall₂ (fun e f => (e.1 == f.1) = true ∧ (e.2 == f.2) = true) es fs := by
  rw [beq_iff, compare, compareEntries_eq_iff]

theorem trimmed_list_beq_iff {levels : Nat} {as bs : List Value} :
    ((Value.list as).trimmed (levels + 1) == (Value.list bs).trimmed (levels + 1)) = true ↔
      SameItems ((as.map (trimmed levels)).rdropWhile isNil) ((bs.map (trimmed levels)).rdropWhile isNil) :=
  list_beq_iff

theorem trimmed_map_beq_iff {levels : Nat} {es fs : List (Value × Value)} :
    ((Value.map es).trimmed (levels + 1) == (Value.map fs).trimmed (levels + 1)) = true ↔
      List.Forall₂ (fun e f => (e.1 == f.1) = true ∧ (e.2.trimmed levels == f.2.trimmed levels) = true) es fs := by
  rw [trimmed, trimmed, map_beq_iff, List.forall₂_map_left_iff, List.forall₂_map_right_iff]

theorem trimmed_congr (levels : Nat) {a b : Value} (h : (a == b) = true) :
    (a.trimmed levels == b.trimmed levels) = true := by
  induction levels generalizing a b with
  | zero => simpa using h
  | succ levels ih =>
    rcases sides_cases a b with ⟨as, bs, rfl, rfl⟩ | ⟨es, fs, rfl, rfl⟩ | hwhole
    · rw [trimmed_list_beq_iff]
      apply SameItems.rdropWhile
      rw [SameItems, List.forall₂_map_left_iff, List.forall₂_map_right_iff]
      exact (list_beq_iff.1 h).imp fun a b hab => ih hab
    · rw [trimmed_map_beq_iff]
      exact (map_beq_iff.1 h).imp fun e f hef => ⟨hef.1, ih hef.2⟩
    · rwa [(hwhole _).2]

end Value

/-! ## Differences of lists -/

namespace Sides

/-- Nothing but a nil is told on either side. -/
def IsBlank (s : Sides) : Prop := (s.1.getD .nil).isNil = true ∧ (s.2.getD .nil).isNil = true

theorem listSide_eq_none_iff {items : List (Option Value)} :
    listSide items = none ↔ ∀ v ∈ items, (v.getD .nil).isNil = true := by
  have hdropped : (items.map (·.getD .nil)).rdropWhile Value.isNil = [] ↔
      ∀ v ∈ items, (v.getD .nil).isNil = true := by
    rw [List.rdropWhile_eq_nil_iff, List.forall_mem_map]
  rw [← hdropped]
  unfold listSide
  split
  · next h => exact iff_of_true rfl h
  · next h => exact iff_of_false nofun h

theorem isNil_listSide (items : List (Option Value)) :
    ((listSide items).getD .nil).isNil = (listSide items).isNone := by
  unfold listSide
  split <;> rfl

theorem mapSide_eq_none_iff {entries : List (Value × Value)} : mapSide entries = none ↔ entries = [] := by
  cases entries <;> simp [mapSide]

theorem isNil_mapSide (entries : List (Value × Value)) :
    ((mapSide entries).getD .nil).isNil = (mapSide entries).isNone := by
  cases entries <;> rfl

variable {sides : Value → Value → Sides} {f : Value → Value}

/-- Where equal trimmed values are those without a difference, lists agree at every position just when
they are equal after trimming. -/
theorem positions_blank_iff (hf : ∀ v, (f v).isNil = v.isNil) {es as : List Value}
    (hsides : ∀ e ∈ es, ∀ a ∈ as, (sides e a).IsBlank ↔ (f e == f a) = true) :
    (∀ s ∈ positions sides es as, s.IsBlank) ↔
      SameItems ((es.map f).rdropWhile Value.isNil) ((as.map f).rdropWhile Value.isNil) := by
  fun_induction positions sides es as with
  -- Once one list has ended, nothing but nils may follow in the other.
  | case1 as => simp [IsBlank, hf, List.rdropWhile_eq_nil_iff]
  | case2 es h => simp [IsBlank, hf, List.rdropWhile_eq_nil_iff]
  | case3 e es a as ih =>
    rw [List.map_cons, List.map_cons, sameItems_rdropWhile_cons, List.forall_mem_cons,
      hsides e List.mem_cons_self a List.mem_cons_self]
    rw [ih fun e' he' a' ha' => hsides e' (List.mem_cons_of_mem e he') a' (List.mem_cons_of_mem a ha')]

end Sides

/-! ## Differences of maps -/

namespace Entries

/-- Every entry has one with an equal key and a related value in another map, which has no other
keys. -/
def Matches (R : Value → Value → Prop) (es fs : List (Value × Value)) : Prop :=
  (∀ e ∈ es, ∃ v, find? fs e.1 = some v ∧ R e.2 v) ∧ ∀ f ∈ fs, contains es f.1 = true

theorem find?_cons (key value k : Value) (es : List (Value × Value)) :
    find? ((key, value) :: es) k = if (key == k) = true then some value else find? es k := by
  unfold find?
  rw [List.find?_cons]
  cases key == k <;> simp

theorem contains_cons (key value k : Value) (es : List (Value × Value)) :
    contains ((key, value) :: es) k = (key == k || contains es k) := rfl

theorem lt_of_contains {es : List (Value × Value)} {k l : Value} (h : contains es l = true)
    (hlt : ∀ e ∈ es, k.compare e.1 = .lt) : k.compare l = .lt := by
  obtain ⟨e, he, hkey⟩ := List.any_eq_true.1 h
  rw [← Value.compare_congr_right (Value.beq_iff.1 hkey)]
  exact hlt e he

theorem contains_of_find? {es : List (Value × Value)} {k v : Value} (h : find? es k = some v) :
    contains es k = true := by
  obtain ⟨e, he, -⟩ := Option.map_eq_some_iff.1 h
  have hkey := List.find?_some he
  exact List.any_eq_true.2 ⟨e, List.mem_of_find?_eq_some he, hkey⟩

theorem lt_of_keys {k v : Value} {es : List (Value × Value)} (h : Elements.Increasing (keys ((k, v) :: es))) :
    ∀ e ∈ es, k.compare e.1 = .lt := by
  have hpairwise := Elements.increasing_iff_pairwise.1 h
  exact List.forall_mem_map.1 (List.pairwise_cons.1 hpairwise).1

variable {R : Value → Value → Prop} {es fs : List (Value × Value)}

/-- Behind equal first keys, which are below all others, maps match on their own. -/
theorem matches_cons_of_beq {k l v w : Value} (hkl : (k == l) = true) (hk : ∀ e ∈ es, k.compare e.1 = .lt)
    (hl : ∀ f ∈ fs, l.compare f.1 = .lt) :
    Matches R ((k, v) :: es) ((l, w) :: fs) ↔ R v w ∧ Matches R es fs := by
  have hlk : (l == k) = true := Value.same_equivalence.symm hkl
  have hfind : ∀ e ∈ es, find? ((l, w) :: fs) e.1 = find? fs e.1 := by
    intro e he
    rw [find?_cons, if_neg]
    rw [Value.beq_iff, ← Value.compare_congr_left (Value.beq_iff.1 hkl), hk e he]
    exact nofun
  have hcontains : ∀ f ∈ fs, contains ((k, v) :: es) f.1 = contains es f.1 := by
    intro f hf
    have hne : (k == f.1) = false := by
      rw [Bool.eq_false_iff, Ne, Value.beq_iff, Value.compare_congr_left (Value.beq_iff.1 hkl), hl f hf]
      exact nofun
    rw [contains_cons, hne, Bool.false_or]
  unfold Matches
  rw [List.forall_mem_cons, List.forall_mem_cons, find?_cons, if_pos hlk, contains_cons, hkl, Bool.true_or]
  constructor
  · rintro ⟨⟨⟨_, ⟨⟩, hvw⟩, hes⟩, -, hfs⟩
    refine ⟨hvw, fun e he => ?_, fun f hf => ?_⟩
    · rw [← hfind e he]
      exact hes e he
    · rw [← hcontains f hf]
      exact hfs f hf
  · rintro ⟨hvw, hes, hfs⟩
    refine ⟨⟨⟨w, rfl, hvw⟩, fun e he => ?_⟩, rfl, fun f hf => ?_⟩
    · rw [hfind e he]
      exact hes e he
    · rw [hcontains f hf]
      exact hfs f hf

theorem beq_of_matches_cons {k l v w : Value} (h : Matches R ((k, v) :: es) ((l, w) :: fs))
    (hk : ∀ e ∈ es, k.compare e.1 = .lt) (hl : ∀ f ∈ fs, l.compare f.1 = .lt) : (k == l) = true := by
  -- Each key is found behind the other map's first one otherwise, so each would be below the other.
  by_contra hkl
  have hlk : ¬(l == k) = true := fun h => hkl (Value.same_equivalence.symm h)
  obtain ⟨u, hu, -⟩ := h.1 (k, v) List.mem_cons_self
  rw [find?_cons, if_neg hlk] at hu
  have hlt : l.compare k = .lt := lt_of_contains (contains_of_find? hu) hl
  have hcontains := h.2 (l, w) List.mem_cons_self
  rw [contains_cons, Bool.eq_false_iff.2 hkl, Bool.false_or] at hcontains
  have hgt : k.compare l = .lt := lt_of_contains hcontains hk
  rw [Value.compare_swap k l, hgt] at hlt
  cases hlt

/-- Maps with keys in order match when they do entry by entry. -/
theorem matches_iff_forall₂ (hes : Elements.Increasing (keys es)) (hfs : Elements.Increasing (keys fs)) :
    Matches R es fs ↔ List.Forall₂ (fun e f => (e.1 == f.1) = true ∧ R e.2 f.2) es fs := by
  induction es generalizing fs with
  | nil =>
    cases fs with
    | nil => simp [Matches]
    | cons f fs => exact iff_of_false (fun h => Bool.false_ne_true (h.2 f List.mem_cons_self)) nofun
  | cons e es ih =>
    obtain ⟨k, v⟩ := e
    cases fs with
    | nil =>
      refine iff_of_false (fun h => ?_) nofun
      obtain ⟨u, hu, -⟩ := h.1 (k, v) List.mem_cons_self
      cases hu
    | cons f fs =>
      obtain ⟨l, w⟩ := f
      have hk := lt_of_keys hes
      have hl := lt_of_keys hfs
      rw [List.forall₂_cons, ← ih hes.of_cons hfs.of_cons]
      constructor
      · intro h
        have hkl := beq_of_matches_cons h hk hl
        obtain ⟨hvw, hrest⟩ := (matches_cons_of_beq hkl hk hl).1 h
        exact ⟨⟨hkl, hvw⟩, hrest⟩
      · rintro ⟨⟨hkl, hvw⟩, hrest⟩
        exact (matches_cons_of_beq hkl hk hl).2 ⟨hvw, hrest⟩

theorem put_ne_nil (key value : Value) (es : List (Value × Value)) : put key value es ≠ [] := by
  cases es with
  | nil => exact nofun
  | cons e es =>
    unfold put
    split <;> exact nofun

theorem putAll_eq_nil_iff : putAll es fs = [] ↔ es = [] ∧ fs = [] := by
  unfold putAll
  induction fs generalizing es with
  | nil => simp
  | cons f fs ih => simp [ih, put_ne_nil]

end Entries

namespace Sides

variable {sides : Value → Value → Sides} {expected actual : List (Value × Value)}

theorem removedEntries_eq_nil_iff : removedEntries sides expected actual = [] ↔
    ∀ e ∈ expected, ∃ a, Entries.find? actual e.1 = some a ∧ (sides e.2 a).1 = none := by
  unfold removedEntries
  rw [List.filterMap_eq_nil_iff]
  refine forall₂_congr fun e _ => ?_
  simp only
  cases Entries.find? actual e.1 <;> simp

theorem changedEntries_eq_nil_iff : changedEntries sides expected actual = [] ↔
    ∀ e ∈ expected, ∀ a, Entries.find? actual e.1 = some a → (sides e.2 a).2 = none := by
  unfold changedEntries
  rw [List.filterMap_eq_nil_iff]
  refine forall₂_congr fun e _ => ?_
  simp only
  cases Entries.find? actual e.1 <;> simp

theorem newEntries_eq_nil_iff : newEntries expected actual = [] ↔
    ∀ a ∈ actual, Entries.contains expected a.1 = true := by
  unfold newEntries
  simp [List.filter_eq_nil_iff]

/-- Maps have no difference just when they have the same keys, and values without a difference. -/
theorem maps_eq_none_iff :
    (mapSide (removedEntries sides expected actual),
        mapSide (Entries.putAll (changedEntries sides expected actual) (newEntries expected actual))) =
      ((none, none) : Sides) ↔
      Entries.Matches (fun e a => sides e a = (none, none)) expected actual := by
  rw [Prod.mk.injEq, mapSide_eq_none_iff, mapSide_eq_none_iff, Entries.putAll_eq_nil_iff,
    removedEntries_eq_nil_iff, changedEntries_eq_nil_iff, newEntries_eq_nil_iff, Entries.Matches]
  constructor
  · rintro ⟨hremoved, hchanged, hnew⟩
    refine ⟨fun e he => ?_, hnew⟩
    obtain ⟨a, ha, hnone⟩ := hremoved e he
    exact ⟨a, ha, Prod.ext hnone (hchanged e he a ha)⟩
  · rintro ⟨hfind, hnew⟩
    refine ⟨fun e he => ?_, fun e he a ha => ?_, hnew⟩
    · obtain ⟨a, ha, hnone⟩ := hfind e he
      exact ⟨a, ha, by rw [hnone]⟩
    · obtain ⟨a', ha', hnone⟩ := hfind e he
      cases ha.symm.trans ha'
      rw [hnone]

/-- Lists have no difference just when no position tells more than a nil. -/
theorem lists_eq_none_iff {both : List Sides} :
    (listSide (both.map (·.1)), listSide (both.map (·.2))) = ((none, none) : Sides) ↔
      ∀ s ∈ both, s.IsBlank := by
  rw [Prod.mk.injEq, listSide_eq_none_iff, listSide_eq_none_iff, List.forall_mem_map, List.forall_mem_map]
  exact forall₂_and.symm

end Sides

/-! ## Differences of values -/

theorem forall₂_congr_of_mem {α β : Type} {R S : α → β → Prop} {as : List α} {bs : List β}
    (h : ∀ a ∈ as, ∀ b ∈ bs, R a b ↔ S a b) : List.Forall₂ R as bs ↔ List.Forall₂ S as bs := by
  induction as generalizing bs with
  | nil => simp
  | cons a as ih =>
    cases bs with
    | nil => simp
    | cons b bs =>
      rw [List.forall₂_cons, List.forall₂_cons, h a List.mem_cons_self b List.mem_cons_self]
      rw [ih fun a' ha b' hb => h a' (List.mem_cons_of_mem a ha) b' (List.mem_cons_of_mem b hb)]

namespace Value

theorem whole_ne_none (e a : Value) : ((some e, some a) : Sides) ≠ (none, none) := by
  simp

theorem sides_zero (e a : Value) : e.sides 0 a = if e == a then (none, none) else (some e, some a) := by
  unfold sides
  split <;> rfl

theorem sides_of_beq {levels : Nat} {e a : Value} (h : (e == a) = true) : e.sides levels a = (none, none) := by
  unfold sides
  rw [if_pos h]

/-- What differs is never told by a nil alone. -/
theorem isBlank_sides (levels : Nat) (e a : Value) :
    (e.sides levels a).IsBlank ↔ e.sides levels a = (none, none) := by
  unfold sides
  split
  · simp [Sides.IsBlank]
  · next hne =>
    split
    · simp [Sides.IsBlank, Sides.isNil_mapSide]
    · simp [Sides.IsBlank, Sides.isNil_listSide]
    · refine iff_of_false ?_ nofun
      rintro ⟨he, ha⟩
      have he : e = .nil := eq_nil_of_isNil he
      have ha : a = .nil := eq_nil_of_isNil ha
      rw [he, ha] at hne
      exact hne (beq_self _)

/-- Two values have no difference just when they are equal without the nils at the end of lists. -/
theorem sides_eq_none_iff (levels : Nat) {e a : Value} (he : Invariant.sorted.OfValue e)
    (ha : Invariant.sorted.OfValue a) :
    e.sides levels a = (none, none) ↔ (e.trimmed levels == a.trimmed levels) = true := by
  induction levels generalizing e a with
  | zero =>
    rw [sides_zero, trimmed_zero, trimmed_zero]
    split
    · next h => exact iff_of_true rfl h
    · next h => exact iff_of_false (whole_ne_none e a) h
  | succ levels ih =>
    -- Only values that are not equal are looked into.
    by_cases heq : (e == a) = true
    · rw [sides_of_beq heq]
      exact iff_of_true rfl (trimmed_congr _ heq)
    rcases sides_cases e a with ⟨es, as, rfl, rfl⟩ | ⟨es, as, rfl, rfl⟩ | hwhole
    · rw [sides, if_neg heq, trimmed_list_beq_iff]
      simp only [Sides.lists_eq_none_iff]
      refine Sides.positions_blank_iff (isNil_trimmed levels) fun v hv w hw => ?_
      rw [isBlank_sides]
      exact ih (Invariant.ofItems_iff.1 he v hv) (Invariant.ofItems_iff.1 ha w hw)
    · rw [sides, if_neg heq, trimmed_map_beq_iff, Sides.maps_eq_none_iff, Entries.matches_iff_forall₂ he.1 ha.1]
      refine forall₂_congr_of_mem fun v hv w hw => and_congr_right fun _ => ?_
      exact ih (Invariant.ofEntries_iff.1 he.2 v hv).2 (Invariant.ofEntries_iff.1 ha.2 w hw).2
    · rw [(hwhole _).1, (hwhole _).2, if_neg heq]
      exact iff_of_false (whole_ne_none e a) heq

end Value

namespace Difference

theorem structural_empty_iff {e a : Value} (he : Invariant.sorted.OfValue e) (ha : Invariant.sorted.OfValue a) :
    structural e a = ⟨none, none⟩ ↔ (e.trimmed levels == a.trimmed levels) = true := by
  rw [← Value.sides_eq_none_iff levels he ha, Prod.ext_iff]
  simp [structural]

/-- The structural difference of two values is empty exactly when they are equal but for nils at the
end of lists, down to the levels it looks into. So these are the only failed comparisons that the
event does not show a side of. -/
theorem structural_eq_none_iff {e a : Value} (he : Invariant.sorted.OfValue e) (ha : Invariant.sorted.OfValue a) :
    (structural e a = ⟨none, none⟩ ↔ (e.trimmed levels == a.trimmed levels) = true) ∧
    ∀ c : Check, (c.equalEvent (some structural) e a).status = .fail →
      ∃ d, (c.equalEvent (some structural) e a).difference = some d ∧
        ((d.removed = none ∧ d.added = none) ↔ (e.trimmed levels == a.trimmed levels) = true) := by
  refine ⟨structural_empty_iff he ha, fun c hfail => ⟨structural e a, ?_, ?_⟩⟩
  · have hne : ¬(e == a) = true := by
      intro heq
      rw [Check.equalEvent_status, if_pos heq] at hfail
      cases hfail
    rw [Check.equalEvent, if_neg hne]
  · rw [← structural_empty_iff he ha, Difference.mk.injEq]

/-- A failed comparison of which no side is told. -/
theorem structural_of_nil_behind :
    let e : Value := .list [.int 1, .nil]
    let a : Value := .list [.int 1]
    let c : Check := { expected := .lit e, subject := .outcome (.ok a), scope := .empty, site := [0] }
    Invariant.sorted.OfValue e ∧ Invariant.sorted.OfValue a ∧ structural e a = ⟨none, none⟩ ∧
      (c.equalEvent (some structural) e a).status = .fail ∧
      ∃ d, (c.equalEvent (some structural) e a).difference = some d ∧ d.removed = none ∧ d.added = none := by
  intro e a c
  have he : Invariant.sorted.OfValue e := by simp [e, Invariant.OfValue, Invariant.OfItems]
  have ha : Invariant.sorted.OfValue a := by simp [a, Invariant.OfValue, Invariant.OfItems]
  have htrimmed : (e.trimmed levels == a.trimmed levels) = true := by decide +kernel
  have hfail : (c.equalEvent (some structural) e a).status = .fail := by decide +kernel
  obtain ⟨hempty, hshown⟩ := structural_eq_none_iff he ha
  obtain ⟨d, hd, hnone⟩ := hshown c hfail
  exact ⟨he, ha, hempty.2 htrimmed, hfail, d, hd, hnone.2 htrimmed⟩

theorem structural_hides_nil_behind :
    ¬(structural (.list [.int 1, .nil]) (.list [.int 1]) = ⟨none, none⟩ ↔
      (Value.list [.int 1, .nil] == .list [.int 1]) = true) := by
  decide +kernel

/-- Values without a nil at the end of a list have no difference only if they are equal. -/
theorem structural_eq_none_iff_same {e a : Value} (he : Invariant.sorted.OfValue e)
    (ha : Invariant.sorted.OfValue a) (hte : e.trimmed levels = e) (hta : a.trimmed levels = a) :
    structural e a = ⟨none, none⟩ ↔ (e == a) = true := by
  rw [structural_empty_iff he ha, hte, hta]

end Difference

end Attest
