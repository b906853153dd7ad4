import Attest.Proofs.Discipline
/-!
# Properties of values at every depth

An `Invariant` is a property of values that holds at every depth: of the elements and entries
of collections, of the data of errors, and of what functions keep or a host's functions answer.
It says something about sets, maps and probes; the operations that build collections have to keep it. The values,
scopes and forms of which it holds are a discipline (`Invariant.discipline`).
-/

namespace Attest

/-- A property of values that the building of sets and maps keeps. -/
structure Invariant where
  /-- Holds of the elements of every set. -/
  elements : List Value → Prop
  /-- Holds of the entries of every map. -/
  entries : List (Value × Value) → Prop
  /-- Whether there may be probes. -/
  probes : Prop
  noElements : elements []
  insert : ∀ {set}, elements set → ∀ x, elements (Elements.insert x set)
  noEntries : entries []
  put : ∀ {map}, entries map → ∀ key value, entries (Entries.put key value map)
  putNew : ∀ {map}, entries map → ∀ key value, entries (Entries.putNew key value map)
  /-- Entries may be left out, and others get a new value. -/
  select : ∀ {map}, entries map → ∀ f : Value × Value → Option Value,
    entries (map.filterMap fun e => (f e).map (e.1, ·))

namespace Invariant

mutual

/-- The invariant holds of a value and of all values in it. -/
def OfValue (I : Invariant) : Value → Prop
  | .list items => I.OfItems items
  | .set items => I.elements items ∧ I.OfItems items
  | .map entries => I.entries entries ∧ I.OfEntries entries
  | .fn f => I.OfFn f
  | .error t => I.OfThrown t
  | _ => True

/-- It holds of each of several values. -/
def OfItems (I : Invariant) : List Value → Prop
  | [] => True
  | v :: vs => I.OfValue v ∧ I.OfItems vs

/-- It holds of each key and each value. -/
def OfEntries (I : Invariant) : List (Value × Value) → Prop
  | [] => True
  | (k, v) :: rest => I.OfValue k ∧ I.OfValue v ∧ I.OfEntries rest

/-- It holds of the data of an error. -/
def OfThrown (I : Invariant) : Thrown → Prop
  | ⟨_, _, data⟩ => I.OfData data

/-- It holds of data, if there is any. -/
def OfData (I : Invariant) : Option Value → Prop
  | none => True
  | some v => I.OfValue v

/-- It holds of what a host's function answers. -/
def OfProbe (I : Invariant) : Probe → Prop
  | .trace => True
  | .host _ _ answers => ∀ n shown, I.OfAnswer (answers n shown)

/-- It holds of a value or of an error that is answered. -/
def OfAnswer (I : Invariant) : Except Thrown Value → Prop
  | .ok v => I.OfValue v
  | .error t => I.OfThrown t

/-- It holds of what a function keeps. -/
def OfFn (I : Invariant) : Fn → Prop
  | .builtin _ => True
  | .probe p => I.probes ∧ I.OfProbe p
  | .constantly _ v => I.OfValue v
  | .closure _ _ body scope => I.OfForms body ∧ I.OfScope scope

/-- It holds of what names are bound to. -/
def OfScope (I : Invariant) : List (String × Value) → Prop
  | [] => True
  | (_, v) :: rest => I.OfValue v ∧ I.OfScope rest

/-- It holds of the literals of a form. -/
def OfForm (I : Invariant) : Form → Prop
  | .lit v => I.OfValue v
  | .sym _ => True
  | .list items | .vector items => I.OfForms items
  | .map entries => I.OfFormEntries entries

/-- It holds of the literals of each of several forms. -/
def OfForms (I : Invariant) : List Form → Prop
  | [] => True
  | f :: fs => I.OfForm f ∧ I.OfForms fs

/-- It holds of the literals of entries. -/
def OfFormEntries (I : Invariant) : List (Form × Form) → Prop
  | [] => True
  | (k, v) :: rest => I.OfForm k ∧ I.OfForm v ∧ I.OfFormEntries rest

end

variable {I : Invariant}

/-! ## Member by member -/

theorem ofItems_iff {vs : List Value} : I.OfItems vs ↔ ∀ v ∈ vs, I.OfValue v := by
  induction vs with
  | nil => simp [OfItems]
  | cons v vs ih => simp [OfItems, ih]

theorem ofEntries_iff {es : List (Value × Value)} :
    I.OfEntries es ↔ ∀ e ∈ es, I.OfValue e.1 ∧ I.OfValue e.2 := by
  induction es with
  | nil => simp [OfEntries]
  | cons e es ih =>
    obtain ⟨k, v⟩ := e
    simp [OfEntries, ih, and_assoc]

theorem ofScope_iff {scope : Scope} : I.OfScope scope ↔ ∀ b ∈ scope, I.OfValue b.2 := by
  induction scope with
  | nil => simp [OfScope]
  | cons b bs ih =>
    obtain ⟨n, v⟩ := b
    simp [OfScope, ih]

theorem ofForms_iff {fs : List Form} : I.OfForms fs ↔ ∀ f ∈ fs, I.OfForm f := by
  induction fs with
  | nil => simp [OfForms]
  | cons f fs ih => simp [OfForms, ih]

theorem ofFormEntries_iff {es : List (Form × Form)} :
    I.OfFormEntries es ↔ ∀ e ∈ es, I.OfForm e.1 ∧ I.OfForm e.2 := by
  induction es with
  | nil => simp [OfFormEntries]
  | cons e es ih =>
    obtain ⟨k, v⟩ := e
    simp [OfFormEntries, ih, and_assoc]

theorem ofScope_lookup {scope : Scope} (h : I.OfScope scope) {name : String} {v : Value}
    (hv : scope.lookup name = some v) : I.OfValue v := by
  unfold Scope.lookup at hv
  obtain ⟨b, hb, rfl⟩ := Option.map_eq_some_iff.1 hv
  exact ofScope_iff.1 h b (List.mem_of_find?_eq_some hb)

/-! ## What the operations keep -/

theorem ofForm_threadStep {step : Form} (hf : I.OfForm step) {v : Value} (hv : I.OfValue v) (last : Bool) :
    I.OfForm (threadStep step v last) := by
  obtain ⟨head, rest, heq, hall⟩ := forall_mem_threadStep (P := I.OfForm) (v := v) last hv hf
    (by rintro items rfl; exact ofForms_iff.1 hf)
  rw [heq]
  exact ofForms_iff.2 hall

theorem ofValue_of_isAtom {v : Value} (h : v.IsAtom) : I.OfValue v := by
  cases v with
  | list items | set items | map entries | error t | fn f => exact h.elim
  | _ => simp [OfValue]

theorem ofThrown_iff {c : ErrorClass} {m : String} {data : Option Value} :
    I.OfValue (.error ⟨c, m, data⟩) ↔ ∀ v, data = some v → I.OfValue v := by
  cases data with
  | none => simp [OfValue, OfThrown, OfData]
  | some v => simp [OfValue, OfThrown, OfData]

/-- The values, scopes and forms of which an invariant holds. -/
def discipline (I : Invariant) : Discipline where
  values := I.OfValue
  scopes := I.OfScope
  forms := I.OfForm
  atom := ofValue_of_isAtom
  list := ofItems_iff
  elements h := ofItems_iff.1 h.2
  noElements := ⟨I.noElements, trivial⟩
  insert h hx := ⟨I.insert h.1 _, ofItems_iff.2 (Elements.forall_mem_insert (ofItems_iff.1 h.2) hx)⟩
  entries h := ofEntries_iff.1 h.2
  noEntries := ⟨I.noEntries, trivial⟩
  put h hk hv := ⟨I.put h.1 _ _, ofEntries_iff.2 (Entries.forall_mem_put (ofEntries_iff.1 h.2) hk hv)⟩
  putNew h hk hv := ⟨I.putNew h.1 _ _, ofEntries_iff.2 (Entries.forall_mem_putNew (ofEntries_iff.1 h.2) hk hv)⟩
  select h hf := ⟨I.select h.1 _, ofEntries_iff.2 (Entries.forall_mem_select (ofEntries_iff.1 h.2) hf)⟩
  error := ofThrown_iff
  constantly := Iff.rfl
  bind hs hv _ := ⟨hv, hs⟩
  lookup hs _ hv := ofScope_lookup hs hv
  literal := Iff.rfl
  head h := h.1
  args h := ofForms_iff.1 h.2
  vector h := ofForms_iff.1 h
  map h := ofFormEntries_iff.1 h
  thread hf hv last := ofForm_threadStep hf hv last
  function hs hf _ _ := ⟨hf.2.2, hs⟩

theorem discipline_covers (I : Invariant) : Discipline.Covers fun _ : Unit => I.discipline where
  values := id
  closure h := ⟨(), h.2, ofForms_iff.1 h.1⟩

/-! ## What follows for invariants -/

theorem ofItems_elements? {v : Value} (h : I.OfValue v) {items : List Value} (hi : v.elements? = some items) :
    I.OfItems items := ofItems_iff.2 (Discipline.all_elements? (D := I.discipline) h hi)

/-- A step that ends as `P` says, or with an error of which the invariant holds. -/
def Keeps {α : Type} (I : Invariant) (P : α → Prop) : Except Thrown α → Prop
  | .ok a => P a
  | .error t => I.OfThrown t

theorem keeps_of_discipline {α : Type} {P : α → Prop} {x : Except Thrown α} (h : I.discipline.Keeps P x) :
    I.Keeps P x := by
  cases x with
  | error t => exact h
  | ok a => exact h

/-- The parts of a value that a pattern binds are values in it. -/
theorem bind_keeps (b : Binding) {v : Value} (hv : I.OfValue v) {scope : Scope} (hs : I.OfScope scope) :
    I.Keeps I.OfScope (b.bind v scope) :=
  keeps_of_discipline (Discipline.bind_keeps (D := I.discipline) b hv hs)

end Invariant

end Attest
