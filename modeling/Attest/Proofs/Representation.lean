import Attest.Difference
import Attest.Json.Value
import Attest.Proofs.Preorder
import Attest.Proofs.Quiet
import Attest.Proofs.RoundTrip
import Attest.Standard
/-!
# Sets and maps are in order

The elements of a set and the keys of a map increase strictly, at every depth of a value
(`Invariant.sorted`). What is read from a text is so, everything that evaluation gives or throws
is so, and so is what is made of values besides: the parts that patterns bind, the entries that
a search compares, and both sides of a difference.
-/

namespace Attest

/-! ## Increasing elements and keys -/

namespace Elements

instance : Trans (fun a b : Value => a.compare b = .lt) (fun a b : Value => a.compare b = .lt)
    (fun a b : Value => a.compare b = .lt) where
  trans hab hbc := (Value.compare_chained _ _ _).of_lt hab hbc

theorem increasing_iff_pairwise {xs : List Value} :
    Increasing xs ↔ xs.Pairwise fun a b => a.compare b = .lt := List.isChain_iff_pairwise

/-- Elements that are left out leave the others in order. -/
theorem Increasing.sublist {xs ys : List Value} (h : Increasing ys) (hs : xs.Sublist ys) : Increasing xs :=
  increasing_iff_pairwise.2 ((increasing_iff_pairwise.1 h).sublist hs)

/-- No two of increasing elements are equal. -/
theorem Increasing.pairwise_ne {xs : List Value} (h : Increasing xs) :
    xs.Pairwise fun a b => (a == b) = false := by
  refine (increasing_iff_pairwise.1 h).imp fun {a b} hab => ?_
  show (a.compare b == .eq) = false
  rw [hab]
  rfl

end Elements

namespace Entries

/-- The keys of entries, in order. -/
def keys (entries : List (Value × Value)) : List Value := entries.map Prod.fst

/-- Putting an entry inserts its key, unless an equal one is there. -/
theorem keys_put (key value : Value) (es : List (Value × Value)) :
    keys (put key value es) = Elements.insert key (keys es) := by
  induction es with
  | nil => rfl
  | cons e es ih =>
    obtain ⟨k, v⟩ := e
    simp only [put, keys, List.map_cons, Elements.insert] at ih ⊢
    cases key.compare k
    · rfl
    · rfl
    · exact congrArg (k :: ·) ih

theorem keys_putNew (key value : Value) (es : List (Value × Value)) :
    keys (putNew key value es) = Elements.insert key (keys es) := by
  induction es with
  | nil => rfl
  | cons e es ih =>
    obtain ⟨k, v⟩ := e
    simp only [putNew, keys, List.map_cons, Elements.insert] at ih ⊢
    cases key.compare k
    · rfl
    · rfl
    · exact congrArg (k :: ·) ih

/-- Leaving entries out and giving others a new value leaves keys out. -/
theorem keys_filterMap_sublist (f : Value × Value → Option Value) (es : List (Value × Value)) :
    (keys (es.filterMap fun e => (f e).map (e.1, ·))).Sublist (keys es) := by
  induction es with
  | nil => exact .slnil
  | cons e es ih =>
    rw [List.filterMap_cons]
    cases f e with
    | none => exact ih.cons _
    | some v => exact ih.cons_cons _

end Entries

namespace Invariant

/-- The elements of sets and the keys of maps increase strictly, so no two of them are equal. -/
def sorted : Invariant where
  elements items := Elements.Increasing items
  entries es := Elements.Increasing (Entries.keys es)
  probes := True
  noElements := .nil
  insert h _ := Elements.increasing_insert h
  noEntries := .nil
  put h key value := by
    rw [Entries.keys_put]
    exact Elements.increasing_insert h
  putNew h key value := by
    rw [Entries.keys_putNew]
    exact Elements.increasing_insert h
  select h f := h.sublist (Entries.keys_filterMap_sublist f _)

variable {I : Invariant}

/-! ## What is read -/

section Reader

variable [PatternReader]

theorem ofForm_of_literal {offset : Nat} {l : Source.Literal} {form : Form} (h : l.toForm offset = .ok form) :
    I.OfForm form := by
  have hpattern : ∀ {kind start body}, Source.Literal.toForm.patternForm kind start body = .ok form →
      I.OfForm form := by
    intro kind start body h
    unfold Source.Literal.toForm.patternForm at h
    split at h
    · cases h
      simp [OfForm, OfValue]
    · cases h
  have hnumber : ∀ n, I.OfValue (Source.Literal.toForm.numberValue n) := by
    intro n
    unfold Source.Literal.toForm.numberValue
    split
    · split <;> simp [OfValue]
    · simp [OfValue]
  cases l with
  | regex body => exact hpattern h
  | glob body => exact hpattern h
  | text content =>
    cases h
    simp [OfForm, OfValue]
  | keyword name =>
    cases h
    simp [OfForm, OfValue]
  | number n =>
    cases h
    exact hnumber n
  | symbol name =>
    simp only [Source.Literal.toForm, Except.ok.injEq] at h
    subst h
    split <;> simp [OfForm, OfValue]

omit [PatternReader] in
/-- A set of literals is built from their values, and any other set is a call. -/
theorem ofForm_ofSet {items : List Form} (h : I.OfForms items) : I.OfForm (.ofSet items) := by
  unfold Form.ofSet
  split
  · rename_i values hv
    refine Discipline.values_setOf (D := I.discipline) fun v hmem => ?_
    rw [literals?_eq_some_iff.1 hv] at h
    exact ofForms_iff.1 h (.lit v) (List.mem_map_of_mem hmem)
  · exact ⟨trivial, h⟩

omit [PatternReader] in
theorem ofFormEntries_pairUp? {items : List Form} (h : I.OfForms items) {entries : List (Form × Form)}
    (hp : pairUp? items = some entries) : I.OfFormEntries entries := by
  fun_induction pairUp? items generalizing entries with
  | case1 =>
    cases hp
    trivial
  | case2 => cases hp
  | case3 x y rest ih =>
    obtain ⟨more, hm, rfl⟩ := Option.map_eq_some_iff.1 hp
    exact ⟨h.1, h.2.1, ih h.2.2 hm⟩

mutual

theorem ofForm_of_tree : (tree : Source.Tree) → {form : Form} → tree.toForm = .ok form → I.OfForm form
  | .leaf offset l, form, h => by
    simp only [Source.Tree.toForm] at h
    exact ofForm_of_literal h
  | .node offset b children, form, h => by
    simp only [Source.Tree.toForm] at h
    obtain ⟨items, hc, h⟩ := exists_of_bind_ok h
    have hi := ofForms_of_trees children hc
    cases b with
    | list =>
      cases h
      exact hi
    | vector =>
      cases h
      exact hi
    | map =>
      cases hp : pairUp? items with
      | none => simp only [hp] at h; cases h
      | some entries =>
        simp only [hp] at h
        cases h
        exact ofFormEntries_pairUp? hi hp
    | set =>
      cases h
      exact ofForm_ofSet hi

theorem ofForms_of_trees : (trees : List Source.Tree) → {forms : List Form} →
    treesToForms trees = .ok forms → I.OfForms forms
  | [], forms, h => by
    cases h
    trivial
  | t :: ts, forms, h => by
    simp only [treesToForms] at h
    obtain ⟨f, hf, h⟩ := exists_of_bind_ok h
    obtain ⟨fs, hfs, h⟩ := exists_of_bind_ok h
    cases h
    exact ⟨ofForm_of_tree t hf, ofForms_of_trees ts hfs⟩

end

/-- The literals of a form that was read are built as the invariant asks for. -/
theorem ofForm_of_read {text : String} {form : Form} (h : Form.read text = .ok form) : I.OfForm form := by
  unfold Form.read at h
  split at h
  · exact ofForm_of_tree _ h
  · cases h
  · cases h
  · cases h

end Reader

mutual

/-- A document becomes a value of which the invariant holds. -/
theorem ofValue_toValue : (json : Json) → I.OfValue json.toValue
  | .null | .bool _ | .float _ | .str _ => by simp [Json.toValue, OfValue]
  | .int n => by
    simp only [Json.toValue]
    split <;> simp [OfValue]
  | .array items => by
    simp only [Json.toValue, OfValue]
    exact ofItems_jsonItems items
  | .object members => by
    simp only [Json.toValue]
    exact Discipline.values_mapOf (D := I.discipline) (ofEntries_iff.1 (ofEntries_jsonMembers members))

theorem ofItems_jsonItems : (items : List Json) → I.OfItems (jsonItems items)
  | [] => by simp [jsonItems, OfItems]
  | j :: js => by
    simp only [jsonItems, OfItems]
    exact ⟨ofValue_toValue j, ofItems_jsonItems js⟩

theorem ofEntries_jsonMembers : (members : List (String × Json)) → I.OfEntries (jsonMembers members)
  | [] => by simp [jsonMembers, OfEntries]
  | (key, j) :: rest => by
    simp only [jsonMembers, OfEntries]
    exact ⟨by simp [OfValue], ofValue_toValue j, ofEntries_jsonMembers rest⟩

end

/-- The standard scope holds classes and functions that keep nothing. -/
theorem ofScope_standard : I.OfScope Scope.standard := by
  refine ofScope_iff.2 fun b hb => ?_
  rcases List.mem_append.1 hb with hb | hb
  · obtain ⟨c, -, rfl⟩ := List.mem_map.1 hb
    simp [OfValue]
  · obtain ⟨f, -, rfl⟩ := List.mem_map.1 hb
    simp [OfValue, OfFn]

end Invariant

/-! ## Differences -/

namespace Discipline

variable {D : Discipline}

/-- What each side of a difference tells may be there. -/
structure OfSides (D : Discipline) (sides : Sides) : Prop where
  removed : ∀ v, sides.1 = some v → D.values v
  added : ∀ v, sides.2 = some v → D.values v

theorem ofSides_whole {expected actual : Value} (he : D.values expected) (ha : D.values actual) :
    D.OfSides (some expected, some actual) where
  removed _ hv := Option.some.inj hv ▸ he
  added _ hv := Option.some.inj hv ▸ ha

theorem values_listSide {items : List (Option Value)} (h : ∀ v, some v ∈ items → D.values v) {v : Value}
    (hv : Sides.listSide items = some v) : D.values v := by
  have hfilled : D.All (items.map (·.getD .nil)) := by
    intro v hv
    obtain ⟨o, ho, rfl⟩ := List.mem_map.1 hv
    exact values_getD (fun w hw => h w (hw ▸ ho)) values_nil
  unfold Sides.listSide at hv
  split at hv
  · cases hv
  · cases hv
    refine values_list fun w hw => hfilled w ?_
    have hdropped := (List.dropWhile_sublist Value.isNil).mem (List.mem_reverse.1 hw)
    exact List.mem_reverse.1 hdropped

theorem values_mapSide {entries : List (Value × Value)} (h : D.values (.map entries)) {v : Value}
    (hv : Sides.mapSide entries = some v) : D.values v := by
  unfold Sides.mapSide at hv
  split at hv
  · cases hv
  · cases hv
    exact h

section Sides

variable {sides : Value → Value → Sides} (hsides : ∀ e a, D.values e → D.values a → D.OfSides (sides e a))

include hsides

theorem ofSides_positions {expected actual : List Value} (he : D.All expected) (ha : D.All actual) :
    ∀ s ∈ Sides.positions sides expected actual, D.OfSides s := by
  fun_induction Sides.positions sides expected actual with
  | case1 actual =>
    intro s hs
    obtain ⟨a, hmem, rfl⟩ := List.mem_map.1 hs
    exact ⟨nofun, fun v hv => Option.some.inj hv ▸ ha a hmem⟩
  | case2 expected hne =>
    intro s hs
    obtain ⟨e, hmem, rfl⟩ := List.mem_map.1 hs
    exact ⟨fun v hv => Option.some.inj hv ▸ he e hmem, nofun⟩
  | case3 e es a as ih =>
    obtain ⟨he, hes⟩ := List.forall_mem_cons.1 he
    obtain ⟨ha, has⟩ := List.forall_mem_cons.1 ha
    exact List.forall_mem_cons.2 ⟨hsides e a he ha, ih hes has⟩

theorem values_removedEntries {expected actual : List (Value × Value)} (he : D.values (.map expected))
    (ha : D.values (.map actual)) : D.values (.map (Sides.removedEntries sides expected actual)) := by
  have hselect : Sides.removedEntries sides expected actual = expected.filterMap fun e =>
      ((Entries.find? actual e.1).elim (some e.2) fun a => (sides e.2 a).1).map (e.1, ·) := by
    unfold Sides.removedEntries
    refine congrArg (List.filterMap · expected) (funext fun e => ?_)
    simp only
    cases Entries.find? actual e.1 <;> rfl
  rw [hselect]
  refine D.select he fun e hmem v hv => ?_
  have hvalue := (D.entries he e hmem).2
  cases hfind : Entries.find? actual e.1 with
  | none =>
    simp only [hfind, Option.elim_none, Option.some.injEq] at hv
    exact hv ▸ hvalue
  | some a =>
    simp only [hfind, Option.elim_some] at hv
    exact (hsides _ _ hvalue (values_find? (D.entries ha) hfind)).removed v hv

theorem values_changedEntries {expected actual : List (Value × Value)} (he : D.values (.map expected))
    (ha : D.values (.map actual)) : D.values (.map (Sides.changedEntries sides expected actual)) := by
  have hselect : Sides.changedEntries sides expected actual = expected.filterMap fun e =>
      ((Entries.find? actual e.1).bind fun a => (sides e.2 a).2).map (e.1, ·) := by
    unfold Sides.changedEntries
    refine congrArg (List.filterMap · expected) (funext fun e => ?_)
    simp only
    cases Entries.find? actual e.1 <;> rfl
  rw [hselect]
  refine D.select he fun e hmem v hv => ?_
  obtain ⟨a, hfind, hadded⟩ := Option.bind_eq_some_iff.1 hv
  exact (hsides _ _ (D.entries he e hmem).2 (values_find? (D.entries ha) hfind)).added v hadded

theorem ofSides_maps {expected actual : List (Value × Value)} (he : D.values (.map expected))
    (ha : D.values (.map actual)) :
    D.OfSides (Sides.mapSide (Sides.removedEntries sides expected actual),
      Sides.mapSide (Entries.putAll (Sides.changedEntries sides expected actual)
        (Sides.newEntries expected actual))) where
  removed _ := values_mapSide (values_removedEntries hsides he ha)
  added _ := values_mapSide (values_putAll (values_changedEntries hsides he ha)
    fun e hmem => D.entries ha e (List.mem_of_mem_filter hmem))

theorem ofSides_lists {expected actual : List Value} (he : D.All expected) (ha : D.All actual) :
    D.OfSides (Sides.listSide ((Sides.positions sides expected actual).map (·.1)),
      Sides.listSide ((Sides.positions sides expected actual).map (·.2))) := by
  have hall := ofSides_positions hsides he ha
  constructor
  · intro v
    refine values_listSide fun w hw => ?_
    obtain ⟨s, hs, hsw⟩ := List.mem_map.1 hw
    exact (hall s hs).removed w hsw
  · intro v
    refine values_listSide fun w hw => ?_
    obtain ⟨s, hs, hsw⟩ := List.mem_map.1 hw
    exact (hall s hs).added w hsw

end Sides

/-- What a difference tells is made of parts of both values. -/
theorem ofSides_sides (levels : Nat) {expected actual : Value} (he : D.values expected)
    (ha : D.values actual) : D.OfSides (expected.sides levels actual) := by
  induction levels generalizing expected actual with
  | zero =>
    unfold Value.sides
    split
    · exact ⟨nofun, nofun⟩
    · exact ofSides_whole he ha
  | succ levels ih =>
    unfold Value.sides
    split
    · exact ⟨nofun, nofun⟩
    · split
      · rename_i next e a hlevels _
        obtain rfl : levels = next := Nat.succ.inj hlevels
        exact ofSides_maps (fun e a => ih) he ha
      · rename_i next e a hlevels _
        obtain rfl : levels = next := Nat.succ.inj hlevels
        exact ofSides_lists (fun e a => ih) (D.list.1 he) (D.list.1 ha)
      · exact ofSides_whole he ha

end Discipline

/-! ## All data of a run -/

namespace Invariant

/-- Whatever a form evaluates to or throws is in order if its literals and its scope are, however
deeply evaluation may nest. So is what a pattern binds, what a search compares of a map, and what
a difference tells. -/
theorem sorted_of_run {scope : Scope} (hs : sorted.OfScope scope) :
    (∀ {form : Form}, sorted.OfForm form → ∀ depth site s,
      (∀ v t, eval depth site scope form s = (.ok v, t) → sorted.OfValue v) ∧
        ∀ e t, eval depth site scope form s = (.error (.thrown e), t) → sorted.OfThrown e) ∧
    (∀ {v : Value}, sorted.OfValue v → ∀ pattern : Binding,
      (∀ inner, pattern.bind v scope = .ok inner → sorted.OfScope inner) ∧
        ∀ e, pattern.bind v scope = .error e → sorted.OfThrown e) ∧
    (∀ {expected entries : List (Value × Value)}, sorted.OfValue (.map expected) →
      sorted.OfValue (.map entries) → sorted.OfValue (.map (Search.projection expected entries))) ∧
    ∀ {expected actual : Value}, sorted.OfValue expected → sorted.OfValue actual → ∀ levels v,
      (expected.sides levels actual).1 = some v ∨ (expected.sides levels actual).2 = some v →
        sorted.OfValue v := by
  refine ⟨fun hf depth site s => ?_, fun hv pattern => ?_, ofValue_projection, fun he ha levels v hv => ?_⟩
  · have hkept := (keeps_of_depth depth).1 site hs hf
    exact ⟨hkept.ok s, hkept.thrown s⟩
  · have hbind := bind_keeps pattern hv hs
    constructor
    · intro inner hi
      rwa [hi] at hbind
    · intro e he
      rwa [he] at hbind
  · have hsides := Discipline.ofSides_sides (D := sorted.discipline) levels he ha
    rcases hv with hv | hv
    · exact hsides.removed v hv
    · exact hsides.added v hv

/-- Adding an element in front of those of a set. -/
theorem sorted_of_conj :
    let scope : Scope := [("conj", .fn (.builtin .conj)), ("s", .set [.int 1, .int 2])]
    let form : Form := .list [.sym "conj", .sym "s", .lit (.int 0)]
    let made : Value := .set [.int 0, .int 1, .int 2]
    (sorted.OfScope scope ∧ sorted.OfForm form ∧ eval 3 [0] scope form {} = (.ok made, {})) ∧
      sorted.OfValue made ∧ sorted.OfScope (scope.bind "t" made) ∧
      sorted.OfValue (.map (Search.projection [(.int 1, .nil)] [(.int 0, .nil), (.int 1, made)])) ∧
      ∀ v, (made.sides 2 (.set [.int 1])).1 = some v ∨ (made.sides 2 (.set [.int 1])).2 = some v →
        sorted.OfValue v := by
  intro scope form made
  have h12 : (Value.int 1).compare (.int 2) = .lt := by decide +kernel
  have h01 : (Value.int 0).compare (.int 1) = .lt := by decide +kernel
  have hs : sorted.OfScope scope := by
    simp [scope, OfScope, OfValue, OfFn, OfItems, sorted, Elements.Increasing, h12]
  have hf : sorted.OfForm form := by simp [form, OfForm, OfForms, OfValue]
  have heval : eval 3 [0] scope form {} = (.ok made, {}) := by with_unfolding_all rfl
  obtain ⟨hvalue, hbind, hprojection, hsides⟩ := sorted_of_run hs
  have hmade : sorted.OfValue made := (hvalue hf 3 [0] {}).1 made {} heval
  have hbound : (Binding.name "t").bind made scope = .ok (scope.bind "t" made) := by simp only [Binding.bind]
  refine ⟨⟨hs, hf, heval⟩, hmade, (hbind hmade _).1 _ hbound, hprojection ?_ ?_, hsides hmade ?_ 2⟩
  · simp [OfValue, OfEntries, sorted, Entries.keys, Elements.Increasing]
  · exact ⟨.cons_cons h01 (.singleton _), by simp [OfValue], by simp [OfValue], by simp [OfValue], hmade, trivial⟩
  · simp [OfValue, OfItems, sorted, Elements.Increasing]

end Invariant

end Attest
