import Attest.Proofs.Extensionality
/-!
# Maps are finite maps

Whichever way a map is asked, it answers from one finite map (`Value.Answers`): under each key it has the
value of the last pair with an equal key that was put into it, or what was there before. So it does not matter
whether the pairs were put in one by one, were given all at once, or were written as a map
(`Value.answers_of_pairs`).
-/

namespace Attest

namespace Entries

variable {es : List (Value × Value)} {key value : Value}

/-- The value of the last pair whose key equals a key. -/
def last? (pairs : List (Value × Value)) (key : Value) : Option Value :=
  (pairs.filter (·.1 == key)).getLast?.map (·.2)

theorem find?_reverse_eq_last? (pairs : List (Value × Value)) (k : Value) :
    find? pairs.reverse k = last? pairs k := by
  rw [find?, ← List.head?_filter, List.filter_reverse, List.head?_reverse, last?]

/-- Under each key is what was there, or else what was put there if there was nothing. -/
theorem find?_putNew (h : Elements.Increasing (keys es)) (k : Value) :
    find? (putNew key value es) k = (find? es k).or (if (key == k) = true then some value else none) := by
  induction es with
  | nil => exact find?_cons key value k []
  | cons e es ih =>
    obtain ⟨l, w⟩ := e
    unfold putNew
    cases hcompare : key.compare l with
    | lt =>
      -- The new key comes before all others, so there is nothing under an equal one.
      have hlt : ∀ e ∈ (l, w) :: es, key.compare e.1 = .lt := by
        refine List.forall_mem_cons.2 ⟨hcompare, fun e he => ?_⟩
        exact (Value.compare_chained key l e.1).of_lt hcompare (lt_of_keys h e he)
      rw [find?_cons]
      split
      · next hk => rw [find?_eq_none_of_lt hlt hk, Option.none_or]
      · rw [Option.or_none]
    | eq =>
      rw [find?_cons]
      by_cases hl : (l == k) = true
      · rw [if_pos hl, Option.some_or]
      · rw [if_neg hl, Value.beq_congr_left (Value.beq_iff.2 hcompare), if_neg hl, Option.or_none]
    | gt =>
      rw [find?_cons, find?_cons, ih h.of_cons]
      split
      · rw [Option.some_or]
      · rfl

/-- A map that is built at once has under each key what the last pair under it says. -/
theorem find?_ofList (pairs : List (Value × Value)) (k : Value) : find? (ofList pairs) k = last? pairs k := by
  rw [← find?_reverse_eq_last?]
  induction pairs with
  | nil => rfl
  | cons p pairs ih =>
    rw [ofList, List.foldr_cons, ← ofList, find?_putNew (increasing_ofList pairs), ih, List.reverse_cons,
      find?_append, find?_cons]
    rfl

end Entries

namespace Value

variable {m f : Value} {answers : Value → Option Value}

/-- Calling `f` with these arguments gives `v`, whenever and wherever that is done, and has no effect. -/
def Gives (f : Value) (args : List Value) (v : Value) : Prop :=
  ∀ (depth : Nat) (site : Site), apply (depth + 1) site f args = pure v

/-- Calling `f` with these arguments fails with `t`, whenever and wherever that is done, and has no effect. -/
def Throws (f : Value) (args : List Value) (t : Thrown) : Prop :=
  ∀ (depth : Nat) (site : Site), apply (depth + 1) site f args = Run.raise t

section

variable {b : Builtin} {args : List Value} (hb : ∀ call site, b.call call site args = Run.ofExcept (b.compute args))

include hb

/-- A function that needs nothing but its arguments gives what it computes from them. -/
theorem gives_of_compute {v : Value} (h : b.compute args = .ok v) : Gives (.fn (.builtin b)) args v := by
  intro depth site
  exact (hb (apply depth) site).trans (congrArg Run.ofExcept h)

theorem throws_of_compute {t : Thrown} (h : b.compute args = .error t) : Throws (.fn (.builtin b)) args t := by
  intro depth site
  exact (hb (apply depth) site).trans (congrArg Run.ofExcept h)

end

/-- What is found when a map is asked for a key: by calling `get`, the map itself, or the key if it is a
keyword, with or without a default, or by calling `contains?`. -/
structure Finds (m key : Value) (found : Option Value) : Prop where
  get : Gives (.fn (.builtin .get)) [m, key] (found.getD .nil)
  getOr : ∀ default, Gives (.fn (.builtin .get)) [m, key, default] (found.getD default)
  called : Gives m [key] (found.getD .nil)
  calledOr : ∀ default, Gives m [key, default] (found.getD default)
  keyword : ∀ name, key = .keyword name → Gives key [m] (found.getD .nil)
  keywordOr : ∀ name, key = .keyword name → ∀ default, Gives key [m, default] (found.getD default)
  contains : Gives (.fn (.builtin .contains)) [m, key] (.bool found.isSome)

/-- A value is asked for keys like the finite map that has `answers` under them. -/
def Answers (m : Value) (answers : Value → Option Value) : Prop := ∀ key, m.Finds key (answers key)

theorem answers_map (es : List (Value × Value)) : (Value.map es).Answers (Entries.find? es) := by
  intro key
  have hcontains : Gives (.fn (.builtin .contains)) [.map es, key] (.bool (Entries.contains es key)) :=
    fun _ _ => rfl
  rw [Entries.contains_eq_isSome] at hcontains
  refine ⟨fun _ _ => rfl, fun _ _ _ => rfl, fun _ _ => rfl, fun _ _ _ => rfl, ?_, ?_, hcontains⟩
  · rintro name rfl _ _
    rfl
  · rintro name rfl _ _ _
    rfl

/-- Arguments that are pairs put into a map. -/
theorem gives_assoc (es pairs : List (Value × Value)) : Gives (.fn (.builtin .assoc))
    (.map es :: pairs.flatMap fun (k, v) => [k, v]) (.map (Entries.putAll es pairs)) := by
  have hcompute : associate (.map es :: pairs.flatMap fun (k, v) => [k, v]) =
      .ok (.map (Entries.putAll es pairs)) := by
    rw [associate, pairUp?_flatten]
  exact gives_of_compute (fun _ _ => rfl) hcompute

theorem gives_hashMap (pairs : List (Value × Value)) : Gives (.fn (.builtin .hashMap))
    (pairs.flatMap fun (k, v) => [k, v]) (.mapOf pairs) := by
  have hcompute : Builtin.hashMap.compute (pairs.flatMap fun (k, v) => [k, v]) = .ok (.mapOf pairs) := by
    rw [Builtin.compute, pairUp?_flatten]
  exact gives_of_compute (fun _ _ => rfl) hcompute

/-- A map form puts its values into an empty map. -/
theorem eval_map_of_evalItems {entries : List (Form × Form)} {pairs : List (Value × Value)} {depth : Nat}
    {site : Site} {scope : Scope} {s t : Effects}
    (h : evalItems (eval depth) site scope 0 (entries.flatMap fun (k, v) => [k, v]) s =
      (.ok (pairs.flatMap fun (k, v) => [k, v]), t)) :
    eval (depth + 1) site scope (.map entries) s = (.ok (.map (Entries.putAll [] pairs)), t) := by
  rw [eval, Form.step, Run.bind_of_ok (evalEntries_eq_ok_iff.2 ⟨pairs, h, rfl⟩)]
  rfl

/-- After pairs were put into a map with `assoc`, it has under each key the value of the last pair whose key is
equal, or what it had before. Put into an empty map, given to `hash-map`, or written as a map form whose
parts have their values, the pairs make equal maps that have just the values of the last pairs. -/
theorem answers_of_pairs (es pairs : List (Value × Value)) :
    ∃ extended started built formed : Value,
      Gives (.fn (.builtin .assoc)) (.map es :: pairs.flatMap fun (k, v) => [k, v]) extended ∧
      Gives (.fn (.builtin .assoc)) (.map [] :: pairs.flatMap fun (k, v) => [k, v]) started ∧
      Gives (.fn (.builtin .hashMap)) (pairs.flatMap fun (k, v) => [k, v]) built ∧
      (∀ (entries : List (Form × Form)) (depth : Nat) (site : Site) (scope : Scope) (s t : Effects),
        evalItems (eval depth) site scope 0 (entries.flatMap fun (k, v) => [k, v]) s =
          (.ok (pairs.flatMap fun (k, v) => [k, v]), t) →
        eval (depth + 1) site scope (.map entries) s = (.ok formed, t)) ∧
      (∃ before, (Value.map es).Answers before ∧
        extended.Answers fun key => (Entries.last? pairs key).or (before key)) ∧
      started.Answers (Entries.last? pairs) ∧ built.Answers (Entries.last? pairs) ∧
      formed.Answers (Entries.last? pairs) ∧
      (started == built) = true ∧ (built == formed) = true ∧ (formed == started) = true := by
  have hput : ∀ es key, Entries.find? (Entries.putAll es pairs) key =
      (Entries.last? pairs key).or (Entries.find? es key) := by
    intro es key
    rw [Entries.find?_putAll, Entries.find?_reverse_eq_last?]
  have hstarted : Entries.find? (Entries.putAll [] pairs) = Entries.last? pairs := by
    funext key
    rw [hput]
    exact Option.or_none
  have hbuilt : Entries.find? (Entries.ofList pairs) = Entries.last? pairs :=
    funext (Entries.find?_ofList pairs)
  have hequal : (Value.map (Entries.putAll [] pairs) == .map (Entries.ofList pairs)) = true := by
    have hempty : Elements.Increasing (Entries.keys []) := .nil
    refine (Entries.map_beq_iff_find? (Entries.increasing_putAll hempty pairs) (Entries.increasing_ofList pairs)).2 ?_
    intro key
    rw [hstarted, hbuilt]
    cases Entries.last? pairs key with
    | none => exact .none
    | some v => exact .some (beq_self v)
  refine ⟨_, _, _, _, gives_assoc es pairs, gives_assoc [] pairs, gives_hashMap pairs,
    fun _ _ _ _ _ _ => eval_map_of_evalItems, ⟨_, answers_map es, fun key => ?_⟩, ?_, ?_, ?_, hequal,
    same_equivalence.symm hequal, beq_self _⟩
  · have hfinds := answers_map (Entries.putAll es pairs) key
    rwa [hput] at hfinds
  · rw [← hstarted]
    exact answers_map _
  · rw [← hbuilt]
    exact answers_map _
  · rw [← hstarted]
    exact answers_map _

/-- A map form with both zeros as keys is asked for either, and finds what was written last. -/
theorem answers_of_zeros :
    let zero : Value := .float (Float.ofBits 0)
    let minusZero : Value := .float (Float.ofBits 0x8000000000000000)
    let pairs := [(zero, Value.int 1), (.keyword "a", .int 2), (minusZero, .int 3)]
    let entries := pairs.map fun (k, v) => (Form.lit k, Form.lit v)
    evalItems (eval 1) [] .empty 0 (entries.flatMap fun (k, v) => [k, v]) {} =
        (.ok (pairs.flatMap fun (k, v) => [k, v]), {}) ∧
      ∃ formed, eval 2 [] .empty (.map entries) {} = (.ok formed, {}) ∧ formed.Finds zero (some (.int 3)) ∧
        formed.Finds (.keyword "a") (some (.int 2)) ∧ formed.Finds .nil none := by
  intro zero minusZero pairs entries
  have hitems : evalItems (eval 1) [] .empty 0 (entries.flatMap fun (k, v) => [k, v]) {} =
      (.ok (pairs.flatMap fun (k, v) => [k, v]), {}) := by with_unfolding_all rfl
  obtain ⟨-, -, -, formed, -, -, -, hform, -, -, -, hanswers, -⟩ := answers_of_pairs [] pairs
  have hzero : Entries.last? pairs zero = some (.int 3) := by with_unfolding_all rfl
  have hkeyword : Entries.last? pairs (.keyword "a") = some (.int 2) := by with_unfolding_all rfl
  have hnil : Entries.last? pairs .nil = none := by with_unfolding_all rfl
  exact ⟨hitems, formed, hform entries 1 [] .empty {} {} hitems, hzero ▸ hanswers zero, hkeyword ▸ hanswers _,
    hnil ▸ hanswers .nil⟩

end Value

end Attest
