import Attest.Proofs.Order
/-!
# The order of values is a total preorder

Three comparisons of three values hang together (`Chained`): an equal value may stand for
another in every comparison, and what comes before something comes before all that follows
it. This holds of the texts, numbers and places that values are made of, passes through
comparing one thing after another, and so holds of all values (`Value.compare_chained`).
-/

namespace Attest

/-! ## Three comparisons that hang together -/

/-- The comparisons of a first thing with a second, of the second with a third, and of the
first with the third, as they have to be in an order. -/
structure Chained (ab bc ac : Ordering) : Prop where
  of_eq_left : ab = .eq → ac = bc
  of_eq_right : bc = .eq → ac = ab
  of_lt : ab = .lt → bc = .lt → ac = .lt

namespace Chained

theorem ofOrd {α : Type} [Ord α] [Std.TransOrd α] (a b c : α) :
    Chained (Ord.compare a b) (Ord.compare b c) (Ord.compare a c) where
  of_eq_left h := Std.TransCmp.congr_left h
  of_eq_right h := (Std.TransCmp.congr_right h).symm
  of_lt := Std.TransCmp.lt_trans

/-- Three equal things. -/
theorem eq : Chained .eq .eq .eq := ⟨fun _ => rfl, fun _ => rfl, nofun⟩

variable {ab bc ac ab' bc' ac' : Ordering}

/-- Where one comparison leaves things equal, a second one may decide. -/
theorem andThen (h : Chained ab bc ac) (h' : ab = .eq → bc = .eq → Chained ab' bc' ac') :
    Chained (ab.then ab') (bc.then bc') (ac.then ac') := by
  cases ab with
  | lt =>
    cases bc with
    | lt =>
      rw [h.of_lt rfl rfl]
      exact ⟨nofun, nofun, fun _ _ => rfl⟩
    | eq =>
      rw [h.of_eq_right rfl]
      exact ⟨nofun, fun _ => rfl, fun _ _ => rfl⟩
    | gt => exact ⟨nofun, nofun, nofun⟩
  | eq =>
    rw [h.of_eq_left rfl]
    cases bc with
    | lt => exact ⟨fun _ => rfl, nofun, fun _ _ => rfl⟩
    | eq => exact h' rfl rfl
    | gt => exact ⟨fun _ => rfl, nofun, nofun⟩
  | gt =>
    cases bc with
    | lt => exact ⟨nofun, nofun, nofun⟩
    | eq =>
      rw [h.of_eq_right rfl]
      exact ⟨nofun, fun _ => rfl, nofun⟩
    | gt => exact ⟨nofun, nofun, nofun⟩

/-- Where things are compared by rank first, only those of one rank are left. -/
theorem ofRank {α : Type} (rank : α → Nat) {cmp : α → α → Ordering}
    (hcmp : ∀ a b, cmp a b = (Ord.compare (rank a) (rank b)).then (cmp a b)) {a b c : α}
    (h : rank a = rank b → rank b = rank c → Chained (cmp a b) (cmp b c) (cmp a c)) :
    Chained (cmp a b) (cmp b c) (cmp a c) := by
  rw [hcmp a b, hcmp b c, hcmp a c]
  exact (ofOrd _ _ _).andThen fun hab hbc =>
    h (Std.LawfulEqOrd.eq_of_compare hab) (Std.LawfulEqOrd.eq_of_compare hbc)

end Chained

/-! ## The parts of values -/

theorem Class.compare_chained (a b c : Class) :
    Chained (a.compare b) (b.compare c) (a.compare c) := by
  refine Chained.ofRank Class.rank ?_ fun hab hbc => ?_
  · intro a b
    cases a <;> cases b <;> rfl
  · cases a <;> cases b <;> try cases hab
    all_goals cases c <;> try cases hbc
    all_goals exact Chained.ofOrd _ _ _

theorem compareSites_chained (a b c : Option Site) :
    Chained (compareSites a b) (compareSites b c) (compareSites a c) := by
  refine Chained.ofRank (fun o => o.isSome.toNat) ?_ fun hab hbc => ?_
  · intro a b
    cases a <;> cases b <;> rfl
  · match a, b, c, hab, hbc with
    | none, none, none, _, _ => exact .eq
    | some a, some b, some c, _, _ => exact Chained.ofOrd a b c

theorem Fn.compare_chained (f g h : Fn) : Chained (f.compare g) (g.compare h) (f.compare h) :=
  (Chained.ofOrd f.name g.name h.name).andThen fun _ _ => compareSites_chained f.site? g.site? h.site?

theorem Pattern.compare_chained (p q r : Pattern) :
    Chained (p.compare q) (q.compare r) (p.compare r) :=
  (Chained.ofOrd p.kind.rank q.kind.rank r.kind.rank).andThen fun _ _ =>
    Chained.ofOrd p.source q.source r.source

/-! ## Values -/

/-- Values are compared by kind first. -/
theorem Value.compare_eq_then (a b : Value) :
    a.compare b = (Ord.compare a.kind.rank b.kind.rank).then (a.compare b) := by
  by_cases h : a.kind = b.kind
  · rw [h, Std.ReflOrd.compare_self, Ordering.eq_then]
  · rw [compare_of_kind_ne h, Ordering.then_self]

mutual

/-- Three comparisons of three values hang together. -/
theorem Value.compare_chained (a b c : Value) :
    Chained (a.compare b) (b.compare c) (a.compare c) := by
  refine Chained.ofRank (fun v => v.kind.rank) Value.compare_eq_then fun hab hbc => ?_
  -- Of all kinds of three values only the equal ones are left.
  replace hab := Kind.rank_injective hab
  replace hbc := Kind.rank_injective hbc
  cases a <;> cases b <;> try exact Kind.noConfusion hab
  all_goals cases c <;> try exact Kind.noConfusion hbc
  case nil.nil.nil => simp only [Value.compare]; exact .eq
  case bool.bool.bool x y z => simp only [Value.compare]; exact Chained.ofOrd x y z
  case int.int.int x y z => simp only [Value.compare]; exact Chained.ofOrd _ _ _
  case float.float.float x y z => simp only [Value.compare]; exact Chained.ofOrd _ _ _
  case str.str.str x y z => simp only [Value.compare]; exact Chained.ofOrd x y z
  case keyword.keyword.keyword x y z => simp only [Value.compare]; exact Chained.ofOrd x y z
  case list.list.list x y z => simp only [Value.compare]; exact compareItems_chained x y z
  case set.set.set x y z => simp only [Value.compare]; exact compareItems_chained x y z
  case map.map.map x y z => simp only [Value.compare]; exact compareEntries_chained x y z
  case fn.fn.fn f g h => simp only [Value.compare]; exact Fn.compare_chained f g h
  case cls.cls.cls x y z => simp only [Value.compare]; exact Class.compare_chained x y z
  case pattern.pattern.pattern p q r => simp only [Value.compare]; exact Pattern.compare_chained p q r
  case error.error.error s t u => simp only [Value.compare]; exact Thrown.compare_chained s t u

theorem compareItems_chained (as bs cs : List Value) :
    Chained (compareItems as bs) (compareItems bs cs) (compareItems as cs) := by
  refine Chained.ofRank (fun l => (!l.isEmpty).toNat) ?_ fun hab hbc => ?_
  · intro as bs
    cases as <;> cases bs <;> simp only [compareItems] <;> rfl
  · match as, bs, cs, hab, hbc with
    | [], [], [], _, _ => simp only [compareItems]; exact .eq
    | a :: as, b :: bs, c :: cs, _, _ =>
      simp only [compareItems]
      exact (Value.compare_chained a b c).andThen fun _ _ => compareItems_chained as bs cs

theorem compareEntries_chained (as bs cs : List (Value × Value)) :
    Chained (compareEntries as bs) (compareEntries bs cs) (compareEntries as cs) := by
  refine Chained.ofRank (fun l => (!l.isEmpty).toNat) ?_ fun hab hbc => ?_
  · intro as bs
    rcases as with _ | ⟨⟨k, v⟩, as⟩ <;> rcases bs with _ | ⟨⟨l, w⟩, bs⟩ <;> simp only [compareEntries] <;> rfl
  · match as, bs, cs, hab, hbc with
    | [], [], [], _, _ => simp only [compareEntries]; exact .eq
    | (k, v) :: as, (l, w) :: bs, (m, x) :: cs, _, _ =>
      simp only [compareEntries]
      refine (Value.compare_chained k l m).andThen fun _ _ => ?_
      exact (Value.compare_chained v w x).andThen fun _ _ => compareEntries_chained as bs cs

theorem Thrown.compare_chained (s t u : Thrown) :
    Chained (s.compare t) (t.compare u) (s.compare u) := by
  match s, t, u with
  | ⟨c, m, d⟩, ⟨c', m', d'⟩, ⟨c'', m'', d''⟩ =>
    simp only [Thrown.compare]
    exact (Chained.ofOrd c.name c'.name c''.name).andThen fun _ _ =>
      (Chained.ofOrd m m' m'').andThen fun _ _ => compareData_chained d d' d''

theorem compareData_chained (a b c : Option Value) :
    Chained (compareData a b) (compareData b c) (compareData a c) := by
  refine Chained.ofRank (fun o => o.isSome.toNat) ?_ fun hab hbc => ?_
  · intro a b
    cases a <;> cases b <;> simp only [compareData] <;> rfl
  · match a, b, c, hab, hbc with
    | none, none, none, _, _ => simp only [compareData]; exact .eq
    | some a, some b, some c, _, _ => simp only [compareData]; exact Value.compare_chained a b c

end

/-! ## The preorder -/

instance : Std.OrientedOrd Value where
  eq_swap {a b} := Value.compare_swap b a

instance : Std.TransOrd Value where
  isLE_trans {a b c} hab hbc := by
    show (a.compare c).isLE = true
    have h := Value.compare_chained a b c
    replace hab : (a.compare b).isLE = true := hab
    replace hbc : (b.compare c).isLE = true := hbc
    rcases Ordering.isLE_iff_eq_lt_or_eq_eq.1 hab with hab' | hab'
    · rcases Ordering.isLE_iff_eq_lt_or_eq_eq.1 hbc with hbc' | hbc'
      · rw [h.of_lt hab' hbc']; rfl
      · rw [h.of_eq_right hbc']; exact hab
    · rw [h.of_eq_left hab']; exact hbc

namespace Value

theorem compare_self (a : Value) : a.compare a = .eq := Std.ReflOrd.compare_self (α := Value)

/-- An equal value may stand on the left of every comparison. -/
theorem compare_congr_left {a b : Value} (h : a.compare b = .eq) (c : Value) :
    a.compare c = b.compare c := (compare_chained a b c).of_eq_left h

/-- An equal value may stand on the right of every comparison. -/
theorem compare_congr_right {a b : Value} (h : a.compare b = .eq) (c : Value) :
    c.compare a = c.compare b := by
  rw [compare_swap a c, compare_swap b c, compare_congr_left h]

theorem same_equivalence : Equivalence fun a b : Value => (a == b) = true where
  refl a := beq_iff.2 (compare_self a)
  symm {a b} h := by
    rw [beq_iff] at h ⊢
    rw [compare_swap a b, h]
    rfl
  trans {a b c} hab hbc := by
    rw [beq_iff] at hab hbc ⊢
    rw [compare_congr_left hab, hbc]

end Value

/-! ## Equal part by part -/

theorem compareItems_eq_iff {as bs : List Value} :
    compareItems as bs = .eq ↔ List.Forall₂ (fun a b => (a == b) = true) as bs := by
  induction as generalizing bs with
  | nil => cases bs <;> simp [compareItems]
  | cons a as ih => cases bs <;> simp [compareItems, ih, Value.beq_iff]

theorem compareEntries_eq_iff {es fs : List (Value × Value)} :
    compareEntries es fs = .eq ↔
      List.Forall₂ (fun e f => (e.1 == f.1) = true ∧ (e.2 == f.2) = true) es fs := by
  induction es generalizing fs with
  | nil => cases fs <;> simp [compareEntries]
  | cons e es ih =>
    cases fs with
    | nil => simp [compareEntries]
    | cons f fs => rw [compareEntries, Ordering.then_eq_eq, Ordering.then_eq_eq, ih, List.forall₂_cons,
        Value.beq_iff, Value.beq_iff, and_assoc]

/-! ## Replacing a part of a value -/

/-- A value with one place left open, at any depth: that of an element of a list or a set, of a
key or a value in a map, or of the data of an error. -/
inductive Surroundings where
  | here
  | element (before : List Value) (inner : Surroundings) (after : List Value)
  | member (before : List Value) (inner : Surroundings) (after : List Value)
  | key (before : List (Value × Value)) (inner : Surroundings) (value : Value)
      (after : List (Value × Value))
  | entry (before : List (Value × Value)) (k : Value) (inner : Surroundings)
      (after : List (Value × Value))
  | data (errorClass : ErrorClass) (message : String) (inner : Surroundings)

/-- The value that has a given one at the open place. -/
def Surroundings.fill : Surroundings → Value → Value
  | here, a => a
  | element before inner after, a => .list (before ++ inner.fill a :: after)
  | member before inner after, a => .set (before ++ inner.fill a :: after)
  | key before inner value after, a => .map (before ++ (inner.fill a, value) :: after)
  | entry before k inner after, a => .map (before ++ (k, inner.fill a) :: after)
  | data errorClass message inner, a => .error ⟨errorClass, message, some (inner.fill a)⟩

theorem compareItems_self (as : List Value) : compareItems as as = .eq := by
  have h := Value.compare_self (.list as)
  rwa [Value.compare] at h

theorem compareEntries_self (as : List (Value × Value)) : compareEntries as as = .eq := by
  have h := Value.compare_self (.map as)
  rwa [Value.compare] at h

theorem compareItems_append (before as bs : List Value) :
    compareItems (before ++ as) (before ++ bs) = compareItems as bs := by
  induction before with
  | nil => rfl
  | cons v before ih =>
    rw [List.cons_append, List.cons_append, compareItems, Value.compare_self, Ordering.eq_then, ih]

theorem compareEntries_append (before as bs : List (Value × Value)) :
    compareEntries (before ++ as) (before ++ bs) = compareEntries as bs := by
  induction before with
  | nil => rfl
  | cons e before ih =>
    obtain ⟨k, v⟩ := e
    rw [List.cons_append, List.cons_append, compareEntries, Value.compare_self, Value.compare_self,
      Ordering.eq_then, Ordering.eq_then, ih]

/-- Equal values at the open place make equal values. -/
theorem Surroundings.compare_fill (s : Surroundings) {a b : Value} (h : a.compare b = .eq) :
    (s.fill a).compare (s.fill b) = .eq := by
  induction s with
  | here => rwa [fill, fill]
  | element before inner after ih =>
    rw [fill, fill, Value.compare, compareItems_append, compareItems, ih, compareItems_self]
    rfl
  | member before inner after ih =>
    rw [fill, fill, Value.compare, compareItems_append, compareItems, ih, compareItems_self]
    rfl
  | key before inner value after ih =>
    rw [fill, fill, Value.compare, compareEntries_append, compareEntries, ih, Value.compare_self,
      compareEntries_self]
    rfl
  | entry before k inner after ih =>
    rw [fill, fill, Value.compare, compareEntries_append, compareEntries, Value.compare_self, ih,
      compareEntries_self]
    rfl
  | data errorClass message inner ih =>
    rw [fill, fill, Value.compare, Thrown.compare, compareData, ih, Std.ReflOrd.compare_self,
      Std.ReflOrd.compare_self]
    rfl

namespace Value

/-- Comparing values is a total preorder, values are the same just when they compare as equal, and
wherever one of the same values takes the place of the other, no comparison changes. -/
theorem compare_totalPreorder :
    (∀ a : Value, a.compare a = .eq) ∧
    (∀ a b : Value, b.compare a = (a.compare b).swap) ∧
    (∀ a b c : Value, (a.compare b).isLE = true → (b.compare c).isLE = true → (a.compare c).isLE = true) ∧
    (∀ a b : Value, (a == b) = true ↔ a.compare b = .eq) ∧
    (Equivalence fun a b : Value => (a == b) = true) ∧
    ∀ (s : Surroundings) (a b : Value), (a == b) = true → ∀ c : Value,
      (s.fill a).compare c = (s.fill b).compare c ∧ c.compare (s.fill a) = c.compare (s.fill b) := by
  refine ⟨compare_self, compare_swap, ?_, fun a b => beq_iff, same_equivalence, ?_⟩
  · intro a b c hab hbc
    exact Std.TransOrd.isLE_trans (α := Value) hab hbc
  · intro s a b h c
    have hfill := s.compare_fill (beq_iff.1 h)
    exact ⟨compare_congr_left hfill c, compare_congr_right hfill c⟩

end Value

end Attest
