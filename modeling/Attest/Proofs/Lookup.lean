import Attest.Proofs.Trimming
/-!
# What a look-up finds

A map is known by what it has under each key. Here is what a look-up finds after entries were put
(`find?_put`, `find?_putAll`), and after entries were left out or given other values by their keys
(`find?_select`, `find?_filter`). Maps with keys in order that have related values under every key are
related entry by entry (`forall₂_of_find?`).
-/

namespace Attest

namespace Entries

variable {es fs : List (Value × Value)} {key k v : Value}

/-- Equal keys find the same. -/
theorem find?_congr (es : List (Value × Value)) {k l : Value} (h : (k == l) = true) : find? es k = find? es l := by
  unfold find?
  congr 2
  funext e
  have hcompare := Value.compare_congr_right (Value.beq_iff.1 h) e.1
  rw [Bool.eq_iff_iff, Value.beq_iff, Value.beq_iff, hcompare]

theorem contains_eq_isSome (es : List (Value × Value)) (k : Value) : contains es k = (find? es k).isSome := by
  rw [Bool.eq_iff_iff, find?, Option.isSome_map, contains, List.find?_isSome, List.any_eq_true]

/-- Keys that all come after a key are other keys. -/
theorem find?_eq_none_of_lt (h : ∀ e ∈ es, key.compare e.1 = .lt) (hk : (key == k) = true) : find? es k = none := by
  rw [find?, Option.map_eq_none_iff, List.find?_eq_none]
  intro e he heq
  have heq := Value.same_equivalence.trans hk (Value.same_equivalence.symm heq)
  rw [Value.beq_iff, h e he] at heq
  cases heq

theorem mem_of_find? (h : find? es k = some v) : ∃ e ∈ es, e.2 = v := by
  obtain ⟨e, he, hv⟩ := Option.map_eq_some_iff.1 h
  exact ⟨e, List.mem_of_find?_eq_some he, hv⟩

/-! ## After entries were put -/

theorem find?_put (key value k : Value) (es : List (Value × Value)) :
    find? (put key value es) k = if (key == k) = true then some value else find? es k := by
  induction es with
  | nil => exact find?_cons key value k []
  | cons e es ih =>
    obtain ⟨l, w⟩ := e
    unfold put
    cases hcompare : key.compare l with
    | lt => exact find?_cons key value k _
    | eq =>
      have hkey : (key == k) = true ↔ (l == k) = true := by
        rw [Value.beq_iff, Value.beq_iff, Value.compare_congr_left hcompare]
      simp only [find?_cons, hkey]
      split <;> rfl
    | gt =>
      simp only [find?_cons, ih]
      -- The entry that comes first is under another key.
      by_cases hl : (l == k) = true
      · have hkey : ¬(key == k) = true := by
          intro hkey
          have heq := Value.beq_iff.1 (Value.same_equivalence.trans hkey (Value.same_equivalence.symm hl))
          rw [hcompare] at heq
          cases heq
        rw [if_pos hl, if_neg hkey, if_pos hl]
      · rw [if_neg hl, if_neg hl]

theorem find?_append (es fs : List (Value × Value)) (k : Value) :
    find? (es ++ fs) k = (find? es k).or (find? fs k) := by
  unfold find?
  rw [List.find?_append, Option.map_or]

/-- Under each key is what was put there last, or what was there before. -/
theorem find?_putAll (es more : List (Value × Value)) (k : Value) :
    find? (putAll es more) k = (find? more.reverse k).or (find? es k) := by
  induction more generalizing es with
  | nil => rfl
  | cons e more ih =>
    have hstep : putAll es (e :: more) = putAll (put e.1 e.2 es) more := rfl
    rw [hstep, ih, find?_put, List.reverse_cons, find?_append, Option.or_assoc, find?_cons]
    congr 1
    split <;> rfl

/-- Where no two keys are equal, the last entry under a key is the first. -/
theorem find?_reverse (h : Elements.Increasing (keys es)) (k : Value) : find? es.reverse k = find? es k := by
  induction es with
  | nil => rfl
  | cons e es ih =>
    rw [List.reverse_cons, find?_append, ih h.of_cons, find?_cons, find?_cons]
    split
    · next hk => rw [find?_eq_none_of_lt (lt_of_keys h) hk, Option.none_or]
    · exact Option.or_none

theorem increasing_putAll (h : Elements.Increasing (keys es)) (more : List (Value × Value)) :
    Elements.Increasing (keys (putAll es more)) := by
  induction more generalizing es with
  | nil => exact h
  | cons e more ih =>
    refine ih ?_
    rw [keys_put]
    exact Elements.increasing_insert h

/-! ## After entries were left out -/

/-- Leaving entries out by their keys. -/
theorem find?_filter (p : Value → Bool) (hp : ∀ k l, (k == l) = true → p k = p l) (es : List (Value × Value))
    (k : Value) : find? (es.filter fun e => p e.1) k = if p k = true then find? es k else none := by
  induction es with
  | nil => simp [find?]
  | cons e es ih =>
    obtain ⟨l, w⟩ := e
    rw [List.filter_cons, find?_cons]
    by_cases hl : (l == k) = true
    · -- The first entry under the key is left out just when all others under it are.
      rw [if_pos hl, ← hp l k hl]
      split
      · rw [find?_cons, if_pos hl]
      · next hpl => rw [ih, ← hp l k hl, if_neg hpl]
    · rw [if_neg hl, ← ih]
      split
      · rw [find?_cons, if_neg hl]
      · rfl

/-- Leaving entries out and giving others new values, when only the old value counts for entries under
the key. -/
theorem find?_select (h : Elements.Increasing (keys es)) {f : Value × Value → Option Value}
    {g : Value → Option Value} (hf : ∀ e ∈ es, (e.1 == k) = true → f e = g e.2) :
    find? (es.filterMap fun e => (f e).map (e.1, ·)) k = (find? es k).bind g := by
  induction es with
  | nil => rfl
  | cons e es ih =>
    obtain ⟨hhead, htail⟩ := List.forall_mem_cons.1 hf
    have hrest := ih h.of_cons htail
    rw [List.filterMap_cons, find?_cons]
    by_cases hk : (e.1 == k) = true
    · -- Behind it no entry has an equal key.
      have hnone := find?_eq_none_of_lt (lt_of_keys h) hk
      rw [hnone] at hrest
      rw [if_pos hk, Option.bind_some, ← hhead hk]
      cases f e with
      | none => exact hrest
      | some v => exact (find?_cons _ _ _ _).trans (if_pos hk)
    · rw [if_neg hk, ← hrest]
      cases f e with
      | none => rfl
      | some v => exact (find?_cons _ _ _ _).trans (if_neg hk)

/-! ## Maps that are related under every key -/

theorem find?_of_mem (h : Elements.Increasing (keys es)) {e : Value × Value} (he : e ∈ es) :
    find? es e.1 = some e.2 := by
  induction es with
  | nil => cases he
  | cons f es ih =>
    rw [find?_cons]
    rcases List.mem_cons.1 he with rfl | he
    · exact if_pos (Value.beq_self _)
    · have hlt := lt_of_keys h e he
      rw [if_neg (by rw [Value.beq_iff, hlt]; exact nofun), ih h.of_cons he]

/-- Maps with keys in order whose values under each key are related have related entries. -/
theorem forall₂_of_find? {R : Value → Value → Prop} (hes : Elements.Increasing (keys es))
    (hfs : Elements.Increasing (keys fs)) (h : ∀ k, Option.Rel R (find? es k) (find? fs k)) :
    List.Forall₂ (fun e f => (e.1 == f.1) = true ∧ R e.2 f.2) es fs := by
  refine (matches_iff_forall₂ hes hfs).1 ⟨fun e he => ?_, fun f hf => ?_⟩
  · have hrel := h e.1
    rw [find?_of_mem hes he] at hrel
    generalize hw : find? fs e.1 = o at hrel
    cases hrel with
    | some hr => exact ⟨_, rfl, hr⟩
  · have hrel := h f.1
    rw [find?_of_mem hfs hf] at hrel
    rw [contains_eq_isSome]
    generalize find? es f.1 = o at hrel
    cases hrel with
    | some hr => rfl

end Entries

end Attest
