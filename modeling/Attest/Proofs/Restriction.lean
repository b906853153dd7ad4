import Attest.Proofs.Discipline
/-!
# Which functions and names there are

A `Restriction` says which standard functions and probes there may be and whether functions may be
made by forms. It is about all values in sight, those that a host's functions answer among them: a
scope and a form are within it for some names, those that may be looked up, and a function that a
form made is for the names of its body. A restriction says nothing about data, so what it admits for
some names is a discipline (`Restriction.discipline`).
-/

namespace Attest

/-- A list form that makes a function: `fn` makes one only with a vector of parameters. -/
def MakesFunction (items : List Form) : Prop := ∃ params body, items = .sym "fn" :: .vector params :: body

/-- Which functions there may be. -/
structure Restriction where
  builtins : Builtin → Prop
  probes : Probe → Prop
  /-- Whether forms may make functions. -/
  closures : Prop

namespace Restriction

mutual

/-- A value in which there are no other functions than there may be. -/
def OfValue (R : Restriction) : Value → Prop
  | .list items | .set items => R.OfItems items
  | .map entries => R.OfEntries entries
  | .fn f => R.OfFn f
  | .error t => R.OfThrown t
  | _ => True

/-- Several such values. -/
def OfItems (R : Restriction) : List Value → Prop
  | [] => True
  | v :: vs => R.OfValue v ∧ R.OfItems vs

/-- Entries of such keys and values. -/
def OfEntries (R : Restriction) : List (Value × Value) → Prop
  | [] => True
  | (k, v) :: rest => R.OfValue k ∧ R.OfValue v ∧ R.OfEntries rest

/-- An error with such data. -/
def OfThrown (R : Restriction) : Thrown → Prop
  | ⟨_, _, data⟩ => R.OfData data

/-- Such data, if there is any. -/
def OfData (R : Restriction) : Option Value → Prop
  | none => True
  | some v => R.OfValue v

/-- A host's function that answers with such values and errors. -/
def OfProbe (R : Restriction) : Probe → Prop
  | .trace => True
  | .host _ _ answers => ∀ n shown, R.OfAnswer (answers n shown)

/-- Such a value or error, as an answer. -/
def OfAnswer (R : Restriction) : Except Thrown Value → Prop
  | .ok v => R.OfValue v
  | .error t => R.OfThrown t

/-- A function that there may be. -/
def OfFn (R : Restriction) : Fn → Prop
  | .builtin b => R.builtins b
  | .probe p => R.probes p ∧ R.OfProbe p
  | .constantly _ v => R.OfValue v
  | .closure _ _ body scope => R.closures ∧ ∃ names, R.OfForms names body ∧ R.OfScope names scope

/-- A scope that binds the names that may be looked up to such values. -/
def OfScope (R : Restriction) (names : String → Prop) : List (String × Value) → Prop
  | [] => True
  | (n, v) :: rest => (names n → R.OfValue v) ∧ R.OfScope names rest

/-- A form of such literals and of names that may be looked up. It makes functions only if there
may be some. -/
def OfForm (R : Restriction) (names : String → Prop) : Form → Prop
  | .lit v => R.OfValue v
  | .sym n => names n
  | .list items => (MakesFunction items → R.closures) ∧ R.OfForms names items
  | .vector items => R.OfForms names items
  | .map entries => R.OfFormEntries names entries

/-- Several such forms. -/
def OfForms (R : Restriction) (names : String → Prop) : List Form → Prop
  | [] => True
  | f :: fs => R.OfForm names f ∧ R.OfForms names fs

/-- Entries of such forms. -/
def OfFormEntries (R : Restriction) (names : String → Prop) : List (Form × Form) → Prop
  | [] => True
  | (k, v) :: rest => R.OfForm names k ∧ R.OfForm names v ∧ R.OfFormEntries names rest

end

variable {R : Restriction} {names : String → Prop}

theorem ofItems_iff {vs : List Value} : R.OfItems vs ↔ ∀ v ∈ vs, R.OfValue v := by
  induction vs with
  | nil => simp [OfItems]
  | cons v vs ih => simp [OfItems, ih]

theorem ofEntries_iff {es : List (Value × Value)} :
    R.OfEntries es ↔ ∀ e ∈ es, R.OfValue e.1 ∧ R.OfValue e.2 := by
  induction es with
  | nil => simp [OfEntries]
  | cons e es ih =>
    obtain ⟨k, v⟩ := e
    simp [OfEntries, ih, and_assoc]

theorem ofScope_iff {scope : Scope} : R.OfScope names scope ↔ ∀ b ∈ scope, names b.1 → R.OfValue b.2 := by
  induction scope with
  | nil => simp [OfScope]
  | cons b bs ih =>
    obtain ⟨n, v⟩ := b
    simp [OfScope, ih]

theorem ofForms_iff {fs : List Form} : R.OfForms names fs ↔ ∀ f ∈ fs, R.OfForm names f := by
  induction fs with
  | nil => simp [OfForms]
  | cons f fs ih => simp [OfForms, ih]

theorem ofFormEntries_iff {es : List (Form × Form)} :
    R.OfFormEntries names es ↔ ∀ e ∈ es, R.OfForm names e.1 ∧ R.OfForm names e.2 := by
  induction es with
  | nil => simp [OfFormEntries]
  | cons e es ih =>
    obtain ⟨k, v⟩ := e
    simp [OfFormEntries, ih, and_assoc]

theorem ofList_iff {items : List Form} :
    R.OfForm names (.list items) ↔ (MakesFunction items → R.closures) ∧ ∀ f ∈ items, R.OfForm names f := by
  rw [← ofForms_iff]
  simp only [OfForm]

theorem ofThrown_iff {c : ErrorClass} {m : String} {data : Option Value} :
    R.OfValue (.error ⟨c, m, data⟩) ↔ ∀ v, data = some v → R.OfValue v := by
  cases data with
  | none => simp [OfValue, OfThrown, OfData]
  | some v => simp [OfValue, OfThrown, OfData]

theorem ofValue_of_isAtom {v : Value} (h : v.IsAtom) : R.OfValue v := by
  cases v with
  | list items | set items | map entries | error t | fn f => exact h.elim
  | _ => simp [OfValue]

theorem ofScope_lookup {scope : Scope} (h : R.OfScope names scope) {name : String} (hn : names name) {v : Value}
    (hv : scope.lookup name = some v) : R.OfValue v := by
  unfold Scope.lookup at hv
  obtain ⟨b, hb, rfl⟩ := Option.map_eq_some_iff.1 hv
  have hname : b.1 = name := by simpa using List.find?_some hb
  exact ofScope_iff.1 h b (List.mem_of_find?_eq_some hb) (hname ▸ hn)

/-- A value that is threaded into a step is a literal, so it is no vector of parameters. -/
theorem makesFunction_of_threadStep {step : Form} {v : Value} {last : Bool} {items : List Form}
    (h : threadStep step v last = .list items) (hf : MakesFunction items) :
    ∃ own, step = .list own ∧ MakesFunction own := by
  obtain ⟨params, body, rfl⟩ := hf
  unfold threadStep at h
  split at h
  · rename_i head args
    refine ⟨_, rfl, ?_⟩
    cases last
    · simp at h
    · cases args with
      | nil => simp at h
      | cons first rest =>
        simp only [if_true, List.cons_append, Form.list.injEq, List.cons.injEq] at h
        exact ⟨params, rest, by rw [h.1, h.2.1]⟩
  · simp at h

theorem ofForm_threadStep {step : Form} (hf : R.OfForm names step) {v : Value} (hv : R.OfValue v) (last : Bool) :
    R.OfForm names (threadStep step v last) := by
  obtain ⟨head, rest, heq, hall⟩ := forall_mem_threadStep (P := R.OfForm names) (v := v) last hv hf
    (by rintro items rfl; exact (ofList_iff.1 hf).2)
  rw [heq]
  refine ofList_iff.2 ⟨fun hmakes => ?_, hall⟩
  obtain ⟨own, rfl, hown⟩ := makesFunction_of_threadStep heq hmakes
  exact (ofList_iff.1 hf).1 hown

/-- The values that a restriction admits, and the scopes and forms that it admits for some names. -/
def discipline (R : Restriction) (names : String → Prop) : Discipline where
  values := R.OfValue
  scopes := R.OfScope names
  forms := R.OfForm names
  atom := ofValue_of_isAtom
  list := ofItems_iff
  elements := ofItems_iff.1
  noElements := trivial
  insert h hx := ofItems_iff.2 (Elements.forall_mem_insert (ofItems_iff.1 h) hx)
  entries := ofEntries_iff.1
  noEntries := trivial
  put h hk hv := ofEntries_iff.2 (Entries.forall_mem_put (ofEntries_iff.1 h) hk hv)
  putNew h hk hv := ofEntries_iff.2 (Entries.forall_mem_putNew (ofEntries_iff.1 h) hk hv)
  select h hf := ofEntries_iff.2 (Entries.forall_mem_select (ofEntries_iff.1 h) hf)
  error := ofThrown_iff
  constantly := Iff.rfl
  bind hs hv _ := ⟨fun _ => hv, hs⟩
  lookup hs hn hv := ofScope_lookup hs hn hv
  literal := Iff.rfl
  head h := h.2.1
  args h := ofForms_iff.1 h.2.2
  vector h := ofForms_iff.1 h
  map h := ofFormEntries_iff.1 h
  thread hf hv last := ofForm_threadStep hf hv last
  function hs hf _ _ := ⟨hf.1 ⟨_, _, rfl⟩, _, hf.2.2.2, hs⟩

theorem answer_keeps {answer : Outcome} (h : R.OfAnswer answer) : (R.discipline names).Keeps R.OfValue answer := by
  cases answer with
  | ok v => exact h
  | error t => exact h

theorem discipline_covers (R : Restriction) : Discipline.Covers R.discipline where
  values := id
  closure h := by
    obtain ⟨-, names, hbody, hs⟩ := h
    exact ⟨names, hs, ofForms_iff.1 hbody⟩

end Restriction

end Attest
