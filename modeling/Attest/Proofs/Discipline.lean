import Attest.Eval.Basic
/-!
# What evaluation may work with

A `Discipline` says which values, scopes and forms there may be, so that taking values apart and
putting them together again leads to no others. Then destructuring keeps to it
(`Discipline.bind_keeps`), and so do the standard functions (`Discipline.compute_keeps`).
-/

namespace Attest

/-! ## Members of collections -/

theorem Elements.forall_mem_insert {P : Value → Prop} {x : Value} {ys : List Value} (h : ∀ y ∈ ys, P y)
    (hx : P x) : ∀ y ∈ insert x ys, P y := by
  induction ys with
  | nil => simpa [insert] using hx
  | cons y ys ih =>
    obtain ⟨hy, hys⟩ := List.forall_mem_cons.1 h
    unfold insert
    split
    · exact List.forall_mem_cons.2 ⟨hx, h⟩
    · exact h
    · exact List.forall_mem_cons.2 ⟨hy, ih hys⟩

theorem Entries.forall_mem_put {P : Value → Prop} {key value : Value} {es : List (Value × Value)}
    (h : ∀ e ∈ es, P e.1 ∧ P e.2) (hk : P key) (hv : P value) : ∀ e ∈ put key value es, P e.1 ∧ P e.2 := by
  induction es with
  | nil => simpa [put] using ⟨hk, hv⟩
  | cons e es ih =>
    obtain ⟨he, hes⟩ := List.forall_mem_cons.1 h
    unfold put
    split
    · exact List.forall_mem_cons.2 ⟨⟨hk, hv⟩, h⟩
    · exact List.forall_mem_cons.2 ⟨⟨he.1, hv⟩, hes⟩
    · exact List.forall_mem_cons.2 ⟨he, ih hes⟩

theorem Entries.forall_mem_putNew {P : Value → Prop} {key value : Value} {es : List (Value × Value)}
    (h : ∀ e ∈ es, P e.1 ∧ P e.2) (hk : P key) (hv : P value) :
    ∀ e ∈ putNew key value es, P e.1 ∧ P e.2 := by
  induction es with
  | nil => simpa [putNew] using ⟨hk, hv⟩
  | cons e es ih =>
    obtain ⟨he, hes⟩ := List.forall_mem_cons.1 h
    unfold putNew
    split
    · exact List.forall_mem_cons.2 ⟨⟨hk, hv⟩, h⟩
    · exact h
    · exact List.forall_mem_cons.2 ⟨he, ih hes⟩

theorem Entries.forall_mem_select {P : Value → Prop} {es : List (Value × Value)}
    {f : Value × Value → Option Value} (h : ∀ e ∈ es, P e.1 ∧ P e.2)
    (hf : ∀ e ∈ es, ∀ v, f e = some v → P v) :
    ∀ e ∈ es.filterMap fun e => (f e).map (e.1, ·), P e.1 ∧ P e.2 := by
  intro e he
  obtain ⟨e, hmem, hsome⟩ := List.mem_filterMap.1 he
  obtain ⟨v, hv, rfl⟩ := Option.map_eq_some_iff.1 hsome
  exact ⟨(h e hmem).1, hf e hmem v hv⟩

/-- The forms that a step with a threaded value has in its list are its own and the value. -/
theorem forall_mem_threadStep {P : Form → Prop} {step : Form} {v : Value} (last : Bool) (hv : P (.lit v))
    (hstep : P step) (hparts : ∀ items, step = .list items → ∀ f ∈ items, P f) :
    ∃ head rest, threadStep step v last = .list (head :: rest) ∧ ∀ f ∈ head :: rest, P f := by
  unfold threadStep
  split
  · rename_i head args
    have hall := hparts _ rfl
    cases last
    · obtain ⟨hhead, hargs⟩ := List.forall_mem_cons.1 hall
      exact ⟨head, _, rfl, List.forall_mem_cons.2 ⟨hhead, List.forall_mem_cons.2 ⟨hv, hargs⟩⟩⟩
    · exact ⟨head, _, rfl, List.forall_mem_append.2 ⟨hall, by simpa using hv⟩⟩
  · exact ⟨step, _, rfl, List.forall_mem_cons.2 ⟨hstep, by simpa using hv⟩⟩

/-! ## Disciplines -/

/-- A value that neither holds other values nor is a function. -/
def Value.IsAtom : Value → Prop
  | .list _ | .set _ | .map _ | .error _ | .fn _ => False
  | _ => True

/-- The values, scopes and forms that there may be. -/
structure Discipline where
  values : Value → Prop
  scopes : Scope → Prop
  forms : Form → Prop
  atom : ∀ {v : Value}, v.IsAtom → values v
  list : ∀ {items}, values (.list items) ↔ ∀ v ∈ items, values v
  elements : ∀ {items}, values (.set items) → ∀ v ∈ items, values v
  noElements : values (.set [])
  insert : ∀ {set x}, values (.set set) → values x → values (.set (Elements.insert x set))
  entries : ∀ {es}, values (.map es) → ∀ e ∈ es, values e.1 ∧ values e.2
  noEntries : values (.map [])
  put : ∀ {es k v}, values (.map es) → values k → values v → values (.map (Entries.put k v es))
  putNew : ∀ {es k v}, values (.map es) → values k → values v → values (.map (Entries.putNew k v es))
  /-- Entries may be left out, and others get a new value. -/
  select : ∀ {es} {f : Value × Value → Option Value}, values (.map es) →
    (∀ e ∈ es, ∀ v, f e = some v → values v) → values (.map (es.filterMap fun e => (f e).map (e.1, ·)))
  error : ∀ {c m data}, values (.error ⟨c, m, data⟩) ↔ ∀ v, data = some v → values v
  constantly : ∀ {site v}, values (.fn (.constantly site v)) ↔ values v
  bind : ∀ {scope v}, scopes scope → values v → ∀ n, scopes (Scope.bind scope n v)
  lookup : ∀ {scope n v}, scopes scope → forms (.sym n) → Scope.lookup scope n = some v → values v
  literal : ∀ {v}, forms (.lit v) ↔ values v
  head : ∀ {f args}, forms (.list (f :: args)) → forms f
  args : ∀ {f args}, forms (.list (f :: args)) → ∀ g ∈ args, forms g
  vector : ∀ {items}, forms (.vector items) → ∀ f ∈ items, forms f
  map : ∀ {es}, forms (.map es) → ∀ e ∈ es, forms e.1 ∧ forms e.2
  /-- A step of a threading form with the value that is threaded into it. -/
  thread : ∀ {step v}, forms step → values v → ∀ last, forms (threadStep step v last)
  /-- What a function form makes. -/
  function : ∀ {scope params body}, scopes scope → forms (.list (.sym "fn" :: .vector params :: body)) →
    ∀ site b, values (.fn (.closure site b body scope))

namespace Discipline

/-- Disciplines with the same values. A function among these was made in a scope and of forms that
one of the disciplines admits. -/
structure Covers {κ : Type} (D : κ → Discipline) : Prop where
  values : ∀ {k l v}, (D k).values v → (D l).values v
  closure : ∀ {k site params body scope}, (D k).values (.fn (.closure site params body scope)) →
    ∃ l, (D l).scopes scope ∧ ∀ f ∈ body, (D l).forms f

variable {D : Discipline}

/-- An error whose data there may be. -/
def Throws (D : Discipline) (t : Thrown) : Prop := D.values (.error t)

/-- Several values that there may be. -/
abbrev All (D : Discipline) (vs : List Value) : Prop := ∀ v ∈ vs, D.values v

/-- Entries that there may be. -/
abbrev Pairs (D : Discipline) (es : List (Value × Value)) : Prop := ∀ e ∈ es, D.values e.1 ∧ D.values e.2

/-! ## Parts of values -/

theorem values_nil : D.values .nil := D.atom trivial

theorem values_list {vs : List Value} (h : D.All vs) : D.values (.list vs) := D.list.2 h

theorem values_find? {es : List (Value × Value)} (h : D.Pairs es) {key v : Value}
    (hv : Entries.find? es key = some v) : D.values v := by
  unfold Entries.find? at hv
  obtain ⟨e, he, rfl⟩ := Option.map_eq_some_iff.1 hv
  exact (h e (List.mem_of_find?_eq_some he)).2

/-- What is looked up may be there if what is found and the default may. -/
theorem values_getD {v? : Option Value} {default : Value} (h : ∀ v, v? = some v → D.values v)
    (hd : D.values default) : D.values (v?.getD default) := by
  cases v? with
  | none => exact hd
  | some v => exact h v rfl

theorem values_findD {es : List (Value × Value)} (h : D.Pairs es) (key : Value) {default : Value}
    (hd : D.values default) : D.values ((Entries.find? es key).getD default) :=
  values_getD (fun _ hv => values_find? h hv) hd

theorem values_head? {vs : List Value} (h : D.All vs) : D.values (vs.head?.getD .nil) :=
  values_getD (fun v hv => h v (List.mem_of_mem_head? hv)) values_nil

theorem values_getLast? {vs : List Value} (h : D.All vs) : D.values (vs.getLast?.getD .nil) :=
  values_getD (fun v hv => h v (List.mem_of_getLast? hv)) values_nil

theorem all_tail {vs : List Value} (h : D.All vs) : D.All vs.tail := fun v hv => h v (List.mem_of_mem_tail hv)

theorem all_cons {v : Value} {vs : List Value} (hv : D.values v) (hvs : D.All vs) : D.All (v :: vs) :=
  List.forall_mem_cons.2 ⟨hv, hvs⟩

theorem all_single {v : Value} (hv : D.values v) : D.All [v] := all_cons hv nofun

theorem all_pair {v w : Value} (hv : D.values v) (hw : D.values w) : D.All [v, w] := all_cons hv (all_single hw)

/-- The elements of a value may be there as well. -/
theorem all_elements? {v : Value} (h : D.values v) {items : List Value} (hi : v.elements? = some items) :
    D.All items := by
  cases v <;> simp only [Value.elements?, Option.some.injEq, reduceCtorEq] at hi <;> subst hi
  case nil => nofun
  case list => exact D.list.1 h
  case set => exact D.elements h
  case map es =>
    intro v hv
    obtain ⟨⟨k, w⟩, he, rfl⟩ := List.mem_map.1 hv
    obtain ⟨hk, hw⟩ := D.entries h _ he
    exact values_list (all_pair hk hw)
  case str s =>
    intro v hv
    obtain ⟨c, -, rfl⟩ := List.mem_map.1 hv
    exact D.atom trivial

/-! ## Collections -/

theorem values_insertAll {set xs : List Value} (h : D.values (.set set)) (hx : D.All xs) :
    D.values (.set (Elements.insertAll set xs)) := by
  induction xs generalizing set with
  | nil => exact h
  | cons x xs ih =>
    obtain ⟨hx, hxs⟩ := List.forall_mem_cons.1 hx
    exact ih (D.insert h hx) hxs

theorem values_setOf {xs : List Value} (h : D.All xs) : D.values (.setOf xs) := by
  induction xs with
  | nil => exact D.noElements
  | cons x xs ih =>
    obtain ⟨hx, hxs⟩ := List.forall_mem_cons.1 h
    exact D.insert (ih hxs) hx

theorem values_putAll {es more : List (Value × Value)} (h : D.values (.map es)) (hm : D.Pairs more) :
    D.values (.map (Entries.putAll es more)) := by
  induction more generalizing es with
  | nil => exact h
  | cons e more ih =>
    obtain ⟨he, hmore⟩ := List.forall_mem_cons.1 hm
    exact ih (D.put h he.1 he.2) hmore

theorem values_mapOf {es : List (Value × Value)} (h : D.Pairs es) : D.values (.mapOf es) := by
  induction es with
  | nil => exact D.noEntries
  | cons e es ih =>
    obtain ⟨he, hes⟩ := List.forall_mem_cons.1 h
    exact D.putNew (ih hes) he.1 he.2

/-! ## Results that keep to it -/

/-- A step that ends as `P` says, or with an error that there may be. -/
def Keeps {α : Type} (D : Discipline) (P : α → Prop) : Except Thrown α → Prop
  | .ok a => P a
  | .error t => D.Throws t

section Keeps

variable {α β : Type} {P : α → Prop} {Q : β → Prop}

theorem Keeps.bind {x : Except Thrown α} {f : α → Except Thrown β} (hx : D.Keeps P x)
    (hf : ∀ a, P a → D.Keeps Q (f a)) : D.Keeps Q (x >>= f) := by
  cases x with
  | error t => exact hx
  | ok a => exact hf a hx

theorem Keeps.map {x : Except Thrown α} {f : α → β} (hx : D.Keeps P x) (hf : ∀ a, P a → Q (f a)) :
    D.Keeps Q (x.map f) := by
  cases x with
  | error t => exact hx
  | ok a => exact hf a hx

/-- An error without data. -/
theorem throws_plain (c : ErrorClass) (m : String) : D.Throws ⟨c, m, none⟩ := D.error.2 nofun

theorem foldlM_keeps {γ : Type} {f : α → γ → Except Thrown α} {a : α} {xs : List γ} (ha : P a)
    (hf : ∀ a x, P a → D.Keeps P (f a x)) : D.Keeps P (xs.foldlM f a) := by
  induction xs generalizing a with
  | nil => exact ha
  | cons x xs ih =>
    rw [List.foldlM_cons]
    exact (hf a x ha).bind fun b hb => ih hb

theorem mapM_keeps {γ : Type} {f : γ → Except Thrown α} {xs : List γ}
    (hf : ∀ x ∈ xs, D.Keeps P (f x)) : D.Keeps (fun _ => True) (xs.mapM f) := by
  induction xs with
  | nil => trivial
  | cons x xs ih =>
    rw [List.mapM_cons]
    refine (hf x List.mem_cons_self).bind fun a _ => ?_
    refine (ih fun y hy => hf y (List.mem_cons_of_mem _ hy)).bind fun as _ => ?_
    trivial

end Keeps

/-! ## Taking values apart -/

theorem scopes_bindWhole {whole : Option String} {v : Value} {scope : Scope} (hv : D.values v)
    (hs : D.scopes scope) : D.scopes (Binding.bindWhole whole v scope) := by
  cases whole with
  | none => exact hs
  | some n => exact D.bind hs hv n

theorem values_remainder {vs : List Value} (h : D.All vs) (positions : Nat) :
    D.values (Binding.remainder vs positions) := by
  unfold Binding.remainder
  split
  · exact values_list fun v hv => h v (List.mem_of_mem_drop hv)
  · exact values_nil

theorem entriesOf_keeps {v : Value} (h : D.values v) : D.Keeps D.Pairs (Binding.entriesOf v) := by
  cases v with
  | map es => exact D.entries h
  | nil => exact fun e he => absurd he List.not_mem_nil
  | _ => exact throws_plain _ _

mutual

/-- The parts of a value that a pattern binds may be there as well. -/
theorem bind_keeps : (b : Binding) → {v : Value} → D.values v → {scope : Scope} → D.scopes scope →
    D.Keeps D.scopes (b.bind v scope)
  | .name n, v, hv, scope, hs => by
    simp only [Binding.bind]
    exact D.bind hs hv n
  | .seq items rest whole, v, hv, scope, hs => by
    simp only [Binding.bind]
    cases he : v.elements? with
    | none => exact throws_plain _ _
    | some elements =>
      have hel := all_elements? hv he
      refine (bindItems_keeps items hel hs).bind fun inner hi => ?_
      refine (bindRest_keeps rest (values_remainder hel _) hi).bind fun inner hi => ?_
      exact scopes_bindWhole hv hi
  | .map entries whole, v, hv, scope, hs => by
    simp only [Binding.bind]
    refine (entriesOf_keeps hv).bind fun found hf => ?_
    refine (bindEntries_keeps entries hf hs).bind fun inner hi => ?_
    exact scopes_bindWhole hv hi

theorem bindItems_keeps : (bs : List Binding) → {vs : List Value} → D.All vs → {scope : Scope} →
    D.scopes scope → D.Keeps D.scopes (Binding.bindItems bs vs scope)
  | [], vs, _, scope, hs => by
    simp only [Binding.bindItems]
    exact hs
  | b :: bs, vs, hv, scope, hs => by
    simp only [Binding.bindItems]
    refine (bind_keeps b (values_head? hv) hs).bind fun inner hi => ?_
    exact bindItems_keeps bs (all_tail hv) hi

theorem bindRest_keeps : (rest : Option Binding) → {v : Value} → D.values v → {scope : Scope} →
    D.scopes scope → D.Keeps D.scopes (Binding.bindRest rest v scope)
  | none, v, _, scope, hs => by
    simp only [Binding.bindRest]
    exact hs
  | some b, v, hv, scope, hs => by
    simp only [Binding.bindRest]
    exact bind_keeps b hv hs

theorem bindEntries_keeps : (entries : List (Binding × Value)) → {found : List (Value × Value)} →
    D.Pairs found → {scope : Scope} → D.scopes scope →
    D.Keeps D.scopes (Binding.bindEntries entries found scope)
  | [], found, _, scope, hs => by
    simp only [Binding.bindEntries]
    exact hs
  | (b, key) :: rest, found, hf, scope, hs => by
    simp only [Binding.bindEntries]
    exact (bind_keeps b (values_findD hf key values_nil) hs).bind fun inner hi => bindEntries_keeps rest hf hi

end

/-! ## The standard functions -/

theorem single_keeps {args : List Value} (h : D.All args) : D.Keeps D.values (single args) := by
  unfold single
  split
  · exact h _ List.mem_cons_self
  · exact throws_plain _ _

theorem elements_keeps {v : Value} (h : D.values v) : D.Keeps D.All v.elements := by
  unfold Value.elements
  cases he : v.elements? with
  | none => exact throws_plain _ _
  | some items => exact all_elements? h he

theorem toFloat_keeps (v : Value) : D.Keeps (fun _ => True) v.toFloat := by
  unfold Value.toFloat
  split
  · trivial
  · exact throws_plain _ _

theorem fold_keeps (op : Operation) (start : Value) (vs : List Value) :
    D.Keeps D.values (op.fold start vs) := by
  unfold Operation.fold
  split
  · refine Keeps.map (P := fun _ => True) (foldlM_keeps trivial fun acc n _ => ?_) fun n _ => D.atom trivial
    split
    · trivial
    · exact throws_plain _ _
  · refine (toFloat_keeps _).bind fun x _ => ?_
    refine Keeps.bind (P := fun _ => True) (foldlM_keeps trivial fun acc v _ => ?_) fun r _ => D.atom trivial
    exact (toFloat_keeps v).bind fun x _ => trivial

theorem difference_keeps (vs : List Value) : D.Keeps D.values (Attest.difference vs) := by
  unfold Attest.difference
  split
  · exact throws_plain _ _
  · exact fold_keeps _ _ _
  · exact fold_keeps _ _ _

theorem floatQuotient_keeps (a b : Value) : D.Keeps D.values (floatQuotient a b) := by
  unfold floatQuotient
  refine (toFloat_keeps b).bind fun d _ => ?_
  split
  · exact throws_plain _ _
  · exact (toFloat_keeps a).bind fun n _ => D.atom trivial

theorem quotient_keeps (a b : Value) : D.Keeps D.values (quotient a b) := by
  unfold quotient
  split
  · split
    · exact throws_plain _ _
    · split
      · split
        · exact D.atom trivial
        · exact floatQuotient_keeps _ _
      · exact floatQuotient_keeps _ _
  · exact floatQuotient_keeps _ _

theorem comparison_keeps (c : Comparison) (vs : List Value) : D.Keeps D.values (c.apply vs) := by
  unfold Comparison.apply
  exact (mapM_keeps fun v _ => toFloat_keeps v).bind fun xs _ => D.atom trivial

theorem values_elementAt? {items : List Value} (h : D.All items) {i : Int64} {v : Value}
    (hv : elementAt? items i = some v) : D.values v := by
  unfold elementAt? at hv
  split at hv
  · exact h v (List.mem_of_getElem? hv)
  · cases hv

theorem values_lookUp {target key default : Value} (ht : D.values target) (hk : D.values key)
    (hd : D.values default) : D.values (lookUp target key default) := by
  unfold lookUp
  split
  · exact values_findD (D.entries ht) _ hd
  · exact values_getD (fun v hv => values_elementAt? (D.list.1 ht) hv) hd
  · split
    · exact hk
    · exact hd
  · exact hd

theorem conjoin_keeps {target : Value} {more : List Value} (ht : D.values target) (hm : D.All more) :
    D.Keeps D.values (conjoin target more) := by
  unfold conjoin
  split
  · exact values_insertAll ht hm
  · exact values_list hm
  · exact values_list (List.forall_mem_append.2 ⟨D.list.1 ht, hm⟩)
  · exact throws_plain _ _

/-- The pairs of a flat list of values are made of its members. -/
theorem pairs_pairUp? {vs : List Value} (h : D.All vs) {pairs : List (Value × Value)}
    (hp : pairUp? vs = some pairs) : D.Pairs pairs := by
  intro e he
  have hmem : ∀ v ∈ [e.1, e.2], v ∈ vs := fun v hv => flatten_of_pairUp? hp ▸ List.mem_flatMap.2 ⟨e, he, hv⟩
  exact ⟨h _ (hmem _ (by simp)), h _ (hmem _ (by simp))⟩

theorem associate_keeps {args : List Value} (h : D.All args) : D.Keeps D.values (associate args) := by
  unfold associate
  split
  · rename_i entries pairs
    obtain ⟨hmap, hpairs⟩ := List.forall_mem_cons.1 h
    cases hp : pairUp? pairs with
    | none => exact throws_plain _ _
    | some more => exact values_putAll hmap (pairs_pairUp? hpairs hp)
  · exact throws_plain _ _

theorem entriesPart_keeps {function : String} {part : Value × Value → Value}
    (hpart : ∀ e, D.values e.1 ∧ D.values e.2 → D.values (part e)) {v : Value} (h : D.values v) :
    D.Keeps D.values (entriesPart function part v) := by
  unfold entriesPart
  split
  · refine values_list fun v hv => ?_
    obtain ⟨e, he, rfl⟩ := List.mem_map.1 hv
    exact hpart e (D.entries h e he)
  · exact values_nil
  · exact throws_plain _ _

theorem values_getIn {path : List Value} {target : Value} (hp : D.All path) (ht : D.values target) :
    D.values (path.foldl (fun v key => lookUp v key .nil) target) := by
  induction path generalizing target with
  | nil => exact ht
  | cons key path ih =>
    obtain ⟨hkey, hpath⟩ := List.forall_mem_cons.1 hp
    exact ih hpath (values_lookUp ht hkey values_nil)

theorem values_rangeFrom (first stop : Int64) : D.values (.list (rangeFrom first stop)) := by
  refine values_list fun v hv => ?_
  obtain ⟨i, -, rfl⟩ := List.mem_map.1 hv
  exact D.atom trivial

theorem throw_keeps {args : List Value} (h : D.All args) : D.Keeps D.values (Builtin.throw.compute args) := by
  refine (single_keeps h).bind fun v hv => ?_
  cases v with
  | error t => exact hv
  | _ => exact throws_plain _ _

theorem exData_keeps {args : List Value} (h : D.All args) : D.Keeps D.values (Builtin.exData.compute args) := by
  refine (single_keeps h).bind fun v hv => ?_
  cases v with
  | error t =>
    obtain ⟨c, m, data⟩ := t
    exact values_getD (D.error.1 hv) values_nil
  | _ => exact values_nil

/-- A function on the elements of its only argument. -/
theorem onElements_keeps {args : List Value} (h : D.All args) {f : List Value → Value}
    (hf : ∀ items, D.All items → D.values (f items)) :
    D.Keeps D.values (do let items ← (← single args).elements; pure (f items)) := by
  refine (single_keeps h).bind fun v hv => (elements_keeps hv).bind fun items hi => ?_
  exact hf items hi

/-- The functions that need only their arguments make of them what there may be. -/
theorem compute_keeps (b : Builtin) {args : List Value} (h : D.All args) :
    D.Keeps D.values (b.compute args) := by
  cases b with
  | add => exact fold_keeps _ _ _
  | sub => exact difference_keeps _
  | mul => exact fold_keeps _ _ _
  | div =>
    simp only [Builtin.compute]
    split
    · exact quotient_keeps _ _
    · exact throws_plain _ _
  | inc => exact (single_keeps h).bind fun x _ => fold_keeps _ _ _
  | dec => exact (single_keeps h).bind fun x _ => difference_keeps _
  | compare c => exact comparison_keeps c args
  | test p => exact (single_keeps h).bind fun x _ => D.atom trivial
  | equal => exact D.atom trivial
  | get =>
    simp only [Builtin.compute]
    split
    · exact values_lookUp (h _ (by simp)) (h _ (by simp)) values_nil
    · exact values_lookUp (h _ (by simp)) (h _ (by simp)) (h _ (by simp))
    · exact throws_plain _ _
  | nth =>
    simp only [Builtin.compute]
    split
    · refine (elements_keeps (h _ List.mem_cons_self)).bind fun items hi => ?_
      split
      · rename_i v hv
        exact values_elementAt? hi hv
      · exact throws_plain _ _
    · exact throws_plain _ _
  | getIn =>
    simp only [Builtin.compute]
    split
    · exact values_getIn (D.list.1 (h _ (by simp))) (h _ (by simp))
    · exact throws_plain _ _
  | count => exact onElements_keeps h fun items _ => D.atom trivial
  | first => exact onElements_keeps h fun items hi => values_head? hi
  | last => exact onElements_keeps h fun items hi => values_getLast? hi
  | rest => exact onElements_keeps h fun items hi => values_list (all_tail hi)
  | reverse =>
    exact onElements_keeps h fun items hi => values_list fun v hv => hi v (List.mem_reverse.1 hv)
  | sort =>
    exact onElements_keeps h fun items hi => values_list fun v hv => hi v (List.mem_mergeSort.1 hv)
  | keys => exact (single_keeps h).bind fun x hx => entriesPart_keeps (fun _ he => he.1) hx
  | vals => exact (single_keeps h).bind fun x hx => entriesPart_keeps (fun _ he => he.2) hx
  | contains =>
    simp only [Builtin.compute]
    split
    · exact D.atom trivial
    · exact throws_plain _ _
  | conj =>
    simp only [Builtin.compute]
    split
    · obtain ⟨htarget, hmore⟩ := List.forall_mem_cons.1 h
      exact conjoin_keeps htarget hmore
    · exact throws_plain _ _
  | assoc => exact associate_keeps h
  | vector => exact values_list h
  | list => exact values_list h
  | hashSet => exact values_setOf h
  | set => exact onElements_keeps h fun items hi => values_setOf hi
  | hashMap =>
    simp only [Builtin.compute]
    cases hp : pairUp? args with
    | none => exact throws_plain _ _
    | some entries => exact values_mapOf (pairs_pairUp? h hp)
  | range => exact throws_plain _ _
  | map => exact throws_plain _ _
  | filter => exact throws_plain _ _
  | reduce => exact throws_plain _ _
  | identity => exact single_keeps h
  | constantly => exact single_keeps h
  | str => exact D.atom trivial
  | upperCase =>
    refine (single_keeps h).bind fun v _ => ?_
    split
    · exact D.atom trivial
    · exact throws_plain _ _
  | type => exact (single_keeps h).bind fun v _ => D.atom trivial
  | isInstance =>
    simp only [Builtin.compute]
    split
    · exact D.atom trivial
    · exact throws_plain _ _
  | exInfo =>
    simp only [Builtin.compute]
    split
    · exact throws_plain _ _
    · rename_i message data
      refine D.error.2 fun v hv => ?_
      cases hv
      exact h _ (by simp)
    · exact throws_plain _ _
  | error =>
    simp only [Builtin.compute]
    split
    · exact throws_plain _ _
    · exact throws_plain _ _
  | throw => exact throw_keeps h
  | exMessage =>
    refine (single_keeps h).bind fun v _ => ?_
    split
    · exact D.atom trivial
    · exact values_nil
  | exData => exact exData_keeps h

end Discipline

end Attest
