import Attest.Proofs.Lookup
/-!
# Collections are equal when they hold the same

A set is known by which values are in it, and a map by what it has under each key, whatever they were
built from and in whatever order (`Value.collection_beq_iff`). Both come down to one fact: a collection
in order that holds the same as another one is equal to it part by part.
-/

namespace Attest

/-- Equal values are equal to the same values. -/
theorem Value.beq_congr_left {x y : Value} (h : (x == y) = true) (z : Value) : (x == z) = (y == z) := by
  rw [Bool.eq_iff_iff, beq_iff, beq_iff, compare_congr_left (beq_iff.1 h)]

/-! ## Sets -/

namespace Elements

variable {xs ys : List Value} {x y : Value}

theorem contains_iff : contains xs y = true ↔ ∃ x ∈ xs, (y == x) = true := by
  rw [contains, List.any_eq_true]
  exact exists_congr fun x => and_congr_right fun _ => ⟨Value.same_equivalence.symm, Value.same_equivalence.symm⟩

/-- One of two equal values is in a set just when the other is. -/
theorem contains_congr (xs : List Value) (h : (x == y) = true) : contains xs x = contains xs y := by
  rw [Bool.eq_iff_iff, contains_iff, contains_iff]
  exact exists_congr fun z => and_congr_right fun _ => by rw [Value.beq_congr_left h]

/-- In a set with one more element is that element, and what was in it. -/
theorem contains_insert (x y : Value) (xs : List Value) : contains (insert x xs) y = (x == y || contains xs y) := by
  induction xs with
  | nil => rfl
  | cons z zs ih =>
    have hcons : ∀ ws, contains (z :: ws) y = (z == y || contains ws y) := fun _ => rfl
    unfold insert
    split
    · rfl
    · next hxz =>
      -- An equal element is there, which stands for the new one.
      rw [hcons, Value.beq_congr_left (Value.beq_iff.2 hxz), ← Bool.or_assoc, Bool.or_self]
    · rw [hcons, hcons, ih, Bool.or_left_comm]

/-- In the set of a list are the elements of the list. -/
theorem contains_ofList (xs : List Value) (y : Value) : contains (ofList xs) y = contains xs y := by
  induction xs with
  | nil => rfl
  | cons x xs ih =>
    rw [ofList, List.foldr_cons, ← ofList, contains_insert, ih]
    rfl

/-- A list as the keys of a map. -/
def toEntries (xs : List Value) : List (Value × Value) := xs.map (·, .nil)

theorem keys_toEntries (xs : List Value) : Entries.keys (toEntries xs) = xs := by
  rw [Entries.keys, toEntries, List.map_map]
  exact List.map_id xs

theorem find?_toEntries (xs : List Value) (k : Value) :
    Entries.find? (toEntries xs) k = if contains xs k = true then some .nil else none := by
  induction xs with
  | nil => rfl
  | cons x xs ih =>
    rw [toEntries, List.map_cons, Entries.find?_cons, ← toEntries, ih, contains, contains, List.any_cons]
    cases x == k <;> rfl

/-- Sets in order that have the same elements are equal one by one. -/
theorem sameItems_of_contains (hxs : Increasing xs) (hys : Increasing ys)
    (h : ∀ v, contains xs v = contains ys v) : SameItems xs ys := by
  have hfind : ∀ k, Option.Rel (fun _ _ => True) (Entries.find? (toEntries xs) k)
      (Entries.find? (toEntries ys) k) := by
    intro k
    rw [find?_toEntries, find?_toEntries, h k]
    split
    · exact .some trivial
    · exact .none
  have hsame := Entries.forall₂_of_find? (by rwa [keys_toEntries]) (by rwa [keys_toEntries]) hfind
  rw [toEntries, toEntries, List.forall₂_map_left_iff, List.forall₂_map_right_iff] at hsame
  exact hsame.imp fun _ _ => And.left

/-- Sets that are equal one by one have the same elements. -/
theorem contains_of_sameItems (h : SameItems xs ys) (v : Value) : contains xs v = contains ys v := by
  induction h with
  | nil => rfl
  | @cons x y xs ys hxy h ih =>
    show (x == v || contains xs v) = (y == v || contains ys v)
    rw [Value.beq_congr_left hxy, ih]

/-- Two lists have the same elements when every element of each equals one of the other. -/
theorem forall_contains_eq_iff : (∀ v, contains xs v = contains ys v) ↔
    (∀ x ∈ xs, ∃ y ∈ ys, (x == y) = true) ∧ ∀ y ∈ ys, ∃ x ∈ xs, (y == x) = true := by
  have hself : ∀ {zs : List Value} {z : Value}, z ∈ zs → contains zs z = true := fun hz =>
    contains_iff.2 ⟨_, hz, Value.beq_self _⟩
  have hsub : ∀ {as bs : List Value}, (∀ a ∈ as, ∃ b ∈ bs, (a == b) = true) → ∀ v, contains as v = true →
      contains bs v = true := by
    intro as bs h v hv
    obtain ⟨a, ha, hva⟩ := contains_iff.1 hv
    rw [contains_congr bs hva]
    exact contains_iff.2 (h a ha)
  constructor
  · intro h
    exact ⟨fun x hx => contains_iff.1 (h x ▸ hself hx), fun y hy => contains_iff.1 (h y ▸ hself hy)⟩
  · rintro ⟨hxy, hyx⟩ v
    exact Bool.eq_iff_iff.2 ⟨hsub hxy v, hsub hyx v⟩

end Elements

/-! ## Maps -/

namespace Entries

variable {es fs : List (Value × Value)}

/-- Maps that are equal entry by entry have equal values under each key. -/
theorem find?_rel_of_forall₂ {R : Value → Value → Prop}
    (h : List.Forall₂ (fun e f => (e.1 == f.1) = true ∧ R e.2 f.2) es fs) (k : Value) :
    Option.Rel R (find? es k) (find? fs k) := by
  induction h with
  | nil => exact .none
  | @cons e f es fs hef h ih =>
    rw [find?_cons, find?_cons, Value.beq_congr_left hef.1]
    split
    · exact .some hef.2
    · exact ih

/-- Maps with their keys in order are equal when they have equal values under each key. -/
theorem map_beq_iff_find? (hes : Elements.Increasing (keys es)) (hfs : Elements.Increasing (keys fs)) :
    (Value.map es == .map fs) = true ↔
      ∀ k, Option.Rel (fun v w => (v == w) = true) (find? es k) (find? fs k) := by
  rw [Value.map_beq_iff]
  exact ⟨fun h => find?_rel_of_forall₂ h, forall₂_of_find? hes hfs⟩

theorem increasing_ofList (es : List (Value × Value)) : Elements.Increasing (keys (ofList es)) := by
  induction es with
  | nil => exact .nil
  | cons e es ih =>
    rw [ofList, List.foldr_cons, ← ofList, keys_putNew]
    exact Elements.increasing_insert ih

end Entries

/-! ## Maps that are built -/

section Evaluation

variable {ev : Evaluator} {site : Site} {scope : Scope} {i : Nat} {s t : Effects}

/-- Forms have values in turn when the first has one and, after it, the others have. -/
theorem evalItems_cons_eq_ok_iff {f : Form} {fs : List Form} {vs : List Value} :
    evalItems ev site scope i (f :: fs) s = (.ok vs, t) ↔ ∃ v u ws, ev (site.at i) scope f s = (.ok v, u) ∧
      evalItems ev site scope (i + 1) fs u = (.ok ws, t) ∧ vs = v :: ws := by
  rw [evalItems]
  constructor
  · intro h
    obtain ⟨v, u, hv, h⟩ := Run.ok_of_bind h
    obtain ⟨ws, w, hws, h⟩ := Run.ok_of_bind h
    cases h
    exact ⟨v, u, ws, hv, hws, rfl⟩
  · rintro ⟨v, u, ws, hv, hws, rfl⟩
    rw [Run.bind_of_ok hv, Run.bind_of_ok hws]
    rfl

/-- The keys and values of a map form are evaluated in turn, and put into the map pair by pair. -/
theorem evalEntries_eq_ok_iff {entries : List (Form × Form)} {es fs : List (Value × Value)} :
    evalEntries ev site scope i es entries s = (.ok fs, t) ↔
      ∃ pairs, evalItems ev site scope i (entries.flatMap fun (k, v) => [k, v]) s =
        (.ok (pairs.flatMap fun (k, v) => [k, v]), t) ∧ fs = Entries.putAll es pairs := by
  induction entries generalizing i es s with
  | nil =>
    constructor
    · rintro ⟨⟩
      exact ⟨[], rfl, rfl⟩
    · rintro ⟨pairs, h, rfl⟩
      cases pairs with
      | nil =>
        cases h
        rfl
      | cons p ps => cases h
  | cons e entries ih =>
    rw [evalEntries, List.flatMap_cons]
    constructor
    · intro h
      obtain ⟨k, u, hk, h⟩ := Run.ok_of_bind h
      obtain ⟨v, w, hv, h⟩ := Run.ok_of_bind h
      obtain ⟨pairs, hpairs, rfl⟩ := ih.1 h
      refine ⟨(k, v) :: pairs, ?_, rfl⟩
      refine evalItems_cons_eq_ok_iff.2 ⟨k, u, _, hk, evalItems_cons_eq_ok_iff.2 ⟨v, w, _, hv, hpairs, rfl⟩, rfl⟩
    · rintro ⟨pairs, h, rfl⟩
      obtain ⟨k, u, _, hk, hvalue, hpairs⟩ := evalItems_cons_eq_ok_iff.1 h
      obtain ⟨v, w, ws, hv, hrest, rfl⟩ := evalItems_cons_eq_ok_iff.1 hvalue
      cases pairs with
      | nil => cases hpairs
      | cons p ps =>
        cases hpairs
        rw [Run.bind_of_ok hk, Run.bind_of_ok hv]
        exact ih.2 ⟨ps, hrest, rfl⟩

end Evaluation

namespace Entries

variable {es fs : List (Value × Value)}

/-- The maps that are made by calling `hash-map`, by evaluating map forms, and by calling `assoc` on such
maps, wherever and however deeply nested that is done. -/
inductive Built : List (Value × Value) → Prop where
  | hashMap {depth : Nat} {site : Site} {args : List Value} {s t : Effects} {es : List (Value × Value)}
    (h : apply depth site (.fn (.builtin .hashMap)) args s = (.ok (.map es), t)) : Built es
  | form {depth : Nat} {site : Site} {scope : Scope} {entries : List (Form × Form)} {s t : Effects}
    {es : List (Value × Value)} (h : eval depth site scope (.map entries) s = (.ok (.map es), t)) : Built es
  | assoc {depth : Nat} {site : Site} {pairs : List Value} {s t : Effects} {es fs : List (Value × Value)}
    (hes : Built es) (h : apply depth site (.fn (.builtin .assoc)) (.map es :: pairs) s = (.ok (.map fs), t)) :
    Built fs

/-- What a function gives that needs nothing but its arguments. -/
theorem compute_of_apply {b : Builtin} {depth : Nat} {site : Site} {args : List Value} {s t : Effects} {v : Value}
    (hb : ∀ call, b.call call site args = Run.ofExcept (b.compute args))
    (h : apply depth site (.fn (.builtin b)) args s = (.ok v, t)) : b.compute args = .ok v := by
  cases depth with
  | zero => cases h
  | succ depth =>
    have hcall : apply (depth + 1) site (.fn (.builtin b)) args = Run.ofExcept (b.compute args) := hb (apply depth)
    rw [hcall] at h
    cases hr : b.compute args with
    | error e =>
      rw [hr] at h
      cases h
    | ok w =>
      rw [hr] at h
      cases h
      rfl

/-- The keys of a map that was built are in order. -/
theorem Built.increasing (h : Built es) : Elements.Increasing (keys es) := by
  induction h with
  | @hashMap depth site args s t es h =>
    replace h : (Builtin.hashMap.compute args) = .ok (.map es) := compute_of_apply (fun _ => rfl) h
    unfold Builtin.compute at h
    cases hp : pairUp? args with
    | none => simp only [hp] at h; cases h
    | some pairs =>
      simp only [hp] at h
      cases h
      exact increasing_ofList pairs
  | @form depth site scope entries s t es h =>
    cases depth with
    | zero => cases h
    | succ depth =>
      rw [eval, Form.step] at h
      obtain ⟨fs, u, hfs, h⟩ := Run.ok_of_bind h
      cases h
      obtain ⟨pairs, -, rfl⟩ := evalEntries_eq_ok_iff.1 hfs
      have hempty : Elements.Increasing (keys []) := .nil
      exact increasing_putAll hempty pairs
  | @assoc depth site pairs s t es fs hes h ih =>
    replace h : associate (.map es :: pairs) = .ok (.map fs) := compute_of_apply (b := .assoc) (fun _ => rfl) h
    unfold associate at h
    cases hp : pairUp? pairs with
    | none => simp only [hp] at h; cases h
    | some more =>
      simp only [hp] at h
      cases h
      exact increasing_putAll ih more

end Entries

namespace Value

/-- Two sets are equal when every element of either list they were built from equals one of the other, and two
maps that were built are equal when under each key both have nothing or equal values. -/
theorem collection_beq_iff :
    (∀ xs ys : List Value, (setOf xs == setOf ys) = true ↔
      (∀ x ∈ xs, ∃ y ∈ ys, (x == y) = true) ∧ ∀ y ∈ ys, ∃ x ∈ xs, (y == x) = true) ∧
    ∀ es fs : List (Value × Value), Entries.Built es → Entries.Built fs → ((Value.map es == .map fs) = true ↔
      ∀ k, Option.Rel (fun v w => (v == w) = true) (Entries.find? es k) (Entries.find? fs k)) := by
  refine ⟨fun xs ys => ?_, fun es fs hes hfs => Entries.map_beq_iff_find? hes.increasing hfs.increasing⟩
  have hset : (setOf xs == setOf ys) = true ↔ SameItems (Elements.ofList xs) (Elements.ofList ys) := by
    rw [beq_iff, setOf, setOf, compare, compareItems_eq_iff]
  rw [hset, ← Elements.forall_contains_eq_iff]
  constructor
  · intro h v
    rw [← Elements.contains_ofList xs, ← Elements.contains_ofList ys, Elements.contains_of_sameItems h]
  · intro h
    refine Elements.sameItems_of_contains (Elements.increasing_ofList xs) (Elements.increasing_ofList ys) fun v => ?_
    rw [Elements.contains_ofList, Elements.contains_ofList, h]

/-- Of the two zeros a map that is built at once keeps the last one as key, and a map form the first one. -/
theorem collection_beq_of_zeros :
    let zero : Value := .float (Float.ofBits 0)
    let minusZero : Value := .float (Float.ofBits 0x8000000000000000)
    let es := [(Value.int 1, Value.nil), (minusZero, .int 2)]
    let fs := [(Value.int 1, Value.nil), (zero, .int 2)]
    (apply 1 [] (.fn (.builtin .hashMap)) [zero, .int 3, minusZero, .int 2, .int 1, .nil] {} = (.ok (.map es), {}) ∧
      eval 2 [] .empty (.map [(.lit zero, .lit (.int 3)), (.lit minusZero, .lit (.int 2))]) {} =
        (.ok (.map [(zero, .int 2)]), {}) ∧
      apply 1 [] (.fn (.builtin .assoc)) [.map [(zero, .int 2)], .int 1, .nil] {} = (.ok (.map fs), {})) ∧
      (setOf [zero, .int 1, minusZero] == setOf [.int 1, zero]) = true ∧ (Value.map es == .map fs) = true ∧
      ∀ k, Option.Rel (fun v w => (v == w) = true) (Entries.find? es k) (Entries.find? fs k) := by
  intro zero minusZero es fs
  have hmap : apply 1 [] (.fn (.builtin .hashMap)) [zero, .int 3, minusZero, .int 2, .int 1, .nil] {} =
      (.ok (.map es), {}) := by with_unfolding_all rfl
  have hform : eval 2 [] .empty (.map [(.lit zero, .lit (.int 3)), (.lit minusZero, .lit (.int 2))]) {} =
      (.ok (.map [(zero, .int 2)]), {}) := by with_unfolding_all rfl
  have hassoc : apply 1 [] (.fn (.builtin .assoc)) [.map [(zero, .int 2)], .int 1, .nil] {} = (.ok (.map fs), {}) := by
    with_unfolding_all rfl
  have hzeros : (zero == minusZero) = true := by decide +kernel
  have hequal : (Value.map es == .map fs) = true := by decide +kernel
  have hset := (collection_beq_iff.1 [zero, .int 1, minusZero] [.int 1, zero]).2
    ⟨by simp [beq_self, same_equivalence.symm hzeros], by simp [beq_self]⟩
  refine ⟨⟨hmap, hform, hassoc⟩, hset, hequal, ?_⟩
  exact (collection_beq_iff.2 es fs (.hashMap hmap) (.assoc (.form hform) hassoc)).1 hequal

end Value

end Attest
