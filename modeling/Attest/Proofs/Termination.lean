import Attest.Proofs.Depth
import Attest.Proofs.Restriction
/-!
# Evaluation without function forms ends

A computation settles if it ends in the same way from some depth on, with a result, by throwing, or
because `range` asks for a list that there is no room for (`Run.Logic.settling`). Calls settle where
no function was made by a form: those with one argument call nothing, and those with two go on with
the elements behind the first of the second argument, of which the height is smaller
(`Value.height_lt_of_mem_tail`). So evaluation settles as well, by induction on the nodes of the form
(`evaluates_settling`).
-/

namespace Attest

namespace Run

variable {ε δ α β : Type} {P : α → Prop} {E : ε → Prop}

/-- A result that is `P`, an error that is `E`, or, if it is `roomy`, a list too long to be made. -/
def Concluded (roomy : Prop) (P : α → Prop) (E : ε → Prop) : Except (Stop ε) α → Prop
  | .ok a => P a
  | .error (.thrown e) => E e
  | .error (.exhausted (.room n)) => roomy ∧ listCapacity < n
  | .error (.exhausted .nesting) => False

/-- From some depth on, a computation ends in the same way, and does not nest too deeply. -/
def Settles (roomy : Prop) (P : α → Prop) (E : ε → Prop) (x : Nat → Run ε α) : Prop :=
  ∀ s, ∃ limit r t, (∀ depth ≥ limit, x depth s = (r, t)) ∧ Concluded roomy P E r

variable {roomy : Prop}

/-- What is concluded does not come of nesting too deeply. -/
theorem Concluded.cases {r : Except (Stop ε) α} (h : Concluded roomy P E r) :
    (∃ a, r = .ok a) ∨ (∃ e, r = .error (.thrown e)) ∨
      roomy ∧ ∃ n, listCapacity < n ∧ r = .error (.exhausted (.room n)) := by
  match r, h with
  | .ok a, _ => exact .inl ⟨a, rfl⟩
  | .error (.thrown e), _ => exact .inr (.inl ⟨e, rfl⟩)
  | .error (.exhausted (.room n)), hn => exact .inr (.inr ⟨hn.1, n, hn.2, rfl⟩)

namespace Settles

/-- A computation that does not depend on the depth and does not nest too deeply. -/
theorem const {x : Run ε α} (h : ∀ s, Concluded roomy P E (x s).1) : Settles roomy P E fun _ => x :=
  fun s => ⟨0, (x s).1, (x s).2, fun _ _ => rfl, h s⟩

/-- What happens one level deeper happens from one level deeper on. -/
theorem shift {x : Nat → Run ε α} (h : Settles roomy P E fun depth => x (depth + 1)) : Settles roomy P E x := by
  intro s
  obtain ⟨limit, r, t, hr, hc⟩ := h s
  refine ⟨limit + 1, r, t, fun depth hd => ?_, hc⟩
  obtain ⟨d, rfl⟩ : ∃ d, depth = d + 1 := ⟨depth - 1, by omega⟩
  exact hr d (by omega)

theorem mono {P' : α → Prop} {E' : ε → Prop} {x : Nat → Run ε α} (h : Settles roomy P E x)
    (hP : ∀ a, P a → P' a) (hE : ∀ e, E e → E' e) : Settles roomy P' E' x := by
  intro s
  obtain ⟨limit, r, t, hr, hc⟩ := h s
  refine ⟨limit, r, t, hr, ?_⟩
  match r, hc with
  | .ok a, ha => exact hP a ha
  | .error (.thrown e), he => exact hE e he
  | .error (.exhausted (.room n)), hn => exact hn

theorem bind {Q : β → Prop} {x : Nat → Run ε α} {f : Nat → α → Run ε β} (hx : Settles roomy P E x)
    (hf : ∀ a, P a → Settles roomy Q E fun depth => f depth a) :
    Settles roomy Q E fun depth => x depth >>= f depth := by
  intro s
  obtain ⟨limit, r, t, hr, hc⟩ := hx s
  match r, hr, hc with
  | .error (.thrown e), hr, he => exact ⟨limit, _, t, fun d hd => bind_of_error (hr d hd) _, he⟩
  | .error (.exhausted (.room n)), hr, hn => exact ⟨limit, _, t, fun d hd => bind_of_error (hr d hd) _, hn⟩
  | .ok a, hr, ha =>
    obtain ⟨limit', r', t', hr', hc'⟩ := hf a ha t
    refine ⟨max limit limit', r', t', fun d hd => ?_, hc'⟩
    exact (bind_of_ok (hr d (by omega)) _).trans (hr' d (by omega))

theorem attempt {F : δ → Prop} {x : Nat → Run ε α} (h : Settles roomy P E x) :
    Settles roomy (fun r => (∀ a, r = .ok a → P a) ∧ ∀ e, r = .error e → E e) F
      fun depth => (Run.attempt (x depth) : Run δ (Except ε α)) := by
  intro s
  obtain ⟨limit, r, t, hr, hc⟩ := h s
  match r, hr, hc with
  | .ok a, hr, ha =>
    refine ⟨limit, .ok (.ok a), t, fun d hd => by simp only [attempt_apply, hr d hd], ?_, nofun⟩
    rintro _ ⟨⟩
    exact ha
  | .error (.thrown e), hr, he =>
    refine ⟨limit, .ok (.error e), t, fun d hd => by simp only [attempt_apply, hr d hd], nofun, ?_⟩
    rintro _ ⟨⟩
    exact he
  | .error (.exhausted (.room n)), hr, hn =>
    exact ⟨limit, .error (.exhausted (.room n)), t, fun d hd => attempt_of_exhausted (hr d hd), hn⟩

theorem widen {F : Empty → Prop} {x : Nat → Run Empty α} (h : Settles roomy P F x) :
    Settles roomy P E fun depth => (Run.widen (x depth) : Run ε α) := by
  intro s
  obtain ⟨limit, r, t, hr, hc⟩ := h s
  match r, hr, hc with
  | .ok a, hr, ha => exact ⟨limit, .ok a, t, fun d hd => by simp only [widen_apply, hr d hd], ha⟩
  | .error (.thrown e), _, _ => exact e.elim
  | .error (.exhausted (.room n)), hr, hn =>
    exact ⟨limit, .error (.exhausted (.room n)), t, fun d hd => by simp only [widen_apply, hr d hd, Stop.widen], hn⟩

end Settles

/-- How computations end that are not stopped by a limit of depth. Only if it is `roomy` may they be
stopped for want of room. -/
def Logic.settling (roomy : Prop) : Logic Nat where
  Holds := Settles roomy
  pure h := .const fun _ => h
  raise h := .const fun _ => h
  mono := .mono
  bind := .bind
  attempt := .attempt
  widen := .widen

end Run

/-! ## The height of a value -/

mutual

/-- How high the elements of elements are piled up. A text of one character is its own only
element, but has none behind that. -/
def Value.height : Value → Nat
  | .list items | .set items => heightOf items + 1
  | .map entries => heightOfEntries entries + 2
  | .str s => if s.length ≤ 1 then 0 else 1
  | _ => 0

/-- The height of the highest of several values. -/
def heightOf : List Value → Nat
  | [] => 0
  | v :: vs => max v.height (heightOf vs)

/-- The height of the highest key or value of entries. -/
def heightOfEntries : List (Value × Value) → Nat
  | [] => 0
  | (k, v) :: rest => max (max k.height v.height) (heightOfEntries rest)

end

theorem height_le_heightOf {v : Value} {vs : List Value} (h : v ∈ vs) : v.height ≤ heightOf vs := by
  induction vs with
  | nil => cases h
  | cons w ws ih =>
    simp only [heightOf]
    rcases List.mem_cons.1 h with rfl | h
    · exact Nat.le_max_left _ _
    · exact Nat.le_trans (ih h) (Nat.le_max_right _ _)

theorem height_le_heightOfEntries {e : Value × Value} {es : List (Value × Value)} (h : e ∈ es) :
    max e.1.height e.2.height ≤ heightOfEntries es := by
  induction es with
  | nil => cases h
  | cons e' es ih =>
    obtain ⟨k, v⟩ := e'
    simp only [heightOfEntries]
    rcases List.mem_cons.1 h with rfl | h
    · exact Nat.le_max_left _ _
    · exact Nat.le_trans (ih h) (Nat.le_max_right _ _)

/-- The elements behind the first are not as high as the value. -/
theorem Value.height_lt_of_mem_tail {v x : Value} {items : List Value} (h : v.elements? = some items)
    (hx : x ∈ items.tail) : x.height < v.height := by
  have hmem := List.mem_of_mem_tail hx
  cases v <;> simp only [Value.elements?, Option.some.injEq, reduceCtorEq] at h <;> subst h
  case nil => cases hx
  case list items =>
    have := height_le_heightOf hmem
    simp only [height]
    omega
  case set items =>
    have := height_le_heightOf hmem
    simp only [height]
    omega
  case map entries =>
    obtain ⟨⟨k, w⟩, he, rfl⟩ := List.mem_map.1 hmem
    have : max k.height w.height ≤ heightOfEntries entries := height_le_heightOfEntries he
    simp only [height, heightOf]
    omega
  case str s =>
    obtain ⟨c, -, rfl⟩ := List.mem_map.1 hmem
    -- There is an element behind the first only in a text of two characters.
    have hlong : ¬s.length ≤ 1 := by
      intro hle
      rw [← String.length_toList] at hle
      cases hs : s.toList with
      | nil => simp [hs] at hx
      | cons a as =>
        rw [hs, List.length_cons] at hle
        have : as = [] := List.eq_nil_of_length_eq_zero (by omega)
        simp [hs, this] at hx
    simp [height, hlong]

/-! ## Calls -/

/-- Some standard functions, and any others but those that forms make. -/
def Restriction.readyMade (builtins : Builtin → Prop) : Restriction where
  builtins := builtins
  probes _ := True
  closures := False

section Settling

open Discipline Restriction

variable {builtins : Builtin → Prop} {names : String → Prop} {f a b x : Value} {args : List Value} {form : Form}
  {scope : Scope}

theorem probe_settles {p : Probe} (hp : (readyMade builtins).OfProbe p)
    (h : ((readyMade builtins).discipline names).All args) :
    Run.Settles (builtins .range) (readyMade builtins).OfValue ((readyMade builtins).discipline names).Throws
      fun _ => p.call args := by
  refine probe_holds (L := .settling (builtins .range)) h (fun _ => .const fun _ => trivial) ?_
  rintro site name answers rfl
  exact ⟨.const fun _ => trivial, fun n shown => answer_keeps (hp n shown)⟩

/-- A call settles if the calls that it makes settle. -/
theorem calls_of_callsBack (hf : (readyMade builtins).OfValue f)
    (ha : ((readyMade builtins).discipline names).All args)
    (hback : ((readyMade builtins).discipline names).CallsBack (.settling (builtins .range)) apply args) :
    ((readyMade builtins).discipline names).Calls (.settling (builtins .range)) apply f args := by
  intro site
  have hstep : Run.Settles (builtins .range) (readyMade builtins).OfValue
      ((readyMade builtins).discipline names).Throws fun depth =>
        f.callStep (eval depth) (apply depth) site args := by
    refine callStep_holds hf ha hback ?_ ?_ ?_ site
    · exact fun hrange n hn => Run.Settles.const fun _ => ⟨hrange, hn⟩
    · rintro made params body scope rfl
      exact hf.1.elim
    · rintro p rfl
      exact probe_settles hf.2 ha
  exact hstep.shift

/-- With one argument, no function calls another. -/
theorem calls_one (hf : (readyMade builtins).OfValue f) (hx : (readyMade builtins).OfValue x) :
    ((readyMade builtins).discipline names).Calls (.settling (builtins .range)) apply f [x] :=
  calls_of_callsBack hf (all_single hx) ⟨nofun, nofun, nofun⟩

/-- With two, the first one may be called: with the elements of the second one, or with what
was made so far and an element that is not as high. -/
theorem calls_two (hf : (readyMade builtins).OfValue f) (ha : (readyMade builtins).OfValue a)
    (hb : (readyMade builtins).OfValue b) :
    ((readyMade builtins).discipline names).Calls (.settling (builtins .range)) apply f [a, b] := by
  induction hn : b.height using Nat.strongRecOn generalizing f a b with
  | ind n ih =>
    refine calls_of_callsBack hf (all_pair ha hb) ⟨?_, ?_, nofun⟩
    · rintro g coll ⟨⟩ x hx
      exact calls_one ha hx
    · rintro g coll items ⟨⟩ he acc hacc x hx
      have hitems := all_elements? (D := (readyMade builtins).discipline names) hb he
      exact ih x.height (hn ▸ Value.height_lt_of_mem_tail he hx) ha hacc
        (hitems x (List.mem_of_mem_tail hx)) rfl

/-- Calls settle where no function was made by a form. -/
theorem calls_settle (hf : (readyMade builtins).OfValue f)
    (ha : ((readyMade builtins).discipline names).All args) :
    ((readyMade builtins).discipline names).Calls (.settling (builtins .range)) apply f args := by
  refine calls_of_callsBack hf ha ⟨?_, ?_, ?_⟩
  · rintro g coll rfl x hx
    exact calls_one (ha g (by simp)) hx
  · rintro g coll items rfl he acc hacc x hx
    have hitems := all_elements? (D := (readyMade builtins).discipline names) (ha coll (by simp)) he
    exact calls_two (ha g (by simp)) hacc (hitems x (List.mem_of_mem_tail hx))
  · rintro g start coll rfl acc hacc x hx
    exact calls_two (ha g (by simp)) hacc hx

/-- A form that makes no function settles, since each of its steps goes on with forms of fewer
nodes. -/
theorem evaluates_settling (hf : (readyMade builtins).OfForm names form) :
    ((readyMade builtins).discipline names).Evaluates (.settling (builtins .range)) eval form := by
  induction hn : form.nodes using Nat.strongRecOn generalizing form with
  | ind n ih =>
    intro site scope hs
    refine Run.Settles.shift (step_holds hf (fun g hg hlt => ih g.nodes (hn ▸ hlt) hg rfl) ?_ site hs)
    exact fun f args hf ha => calls_settle hf ha

/-- Calling a function that no form made ends, whatever functions it is called with, as long as
no form made them either. -/
theorem apply_terminates (hf : (readyMade builtins).OfValue f) (ha : ∀ a ∈ args, (readyMade builtins).OfValue a)
    (site : Site) (s : Effects) :
    ∃ limit r t, (∀ depth ≥ limit, apply depth site f args s = (r, t)) ∧
      ((∃ v, r = .ok v) ∨ (∃ e, r = .error (.thrown e)) ∨
        builtins .range ∧ ∃ n, listCapacity < n ∧ r = .error (.exhausted (.room n))) := by
  have hcalls : ((readyMade builtins).discipline fun _ => True).Calls (.settling (builtins .range)) apply f args :=
    calls_settle hf ha
  obtain ⟨limit, r, t, hr, hc⟩ := hcalls site s
  exact ⟨limit, r, t, hr, hc.cases⟩

/-- Evaluating a form that makes no function ends, in every scope that binds its names to values
without functions that a form made: if evaluation may nest deeply enough, it always gives the same
value or always throws the same error, unless `range`, if it is among the functions there are, is
asked for more elements than a list can be made with. Then it stops there. -/
theorem eval_terminates (hf : (readyMade builtins).OfForm names form)
    (hs : (readyMade builtins).OfScope names scope) (site : Site) (s : Effects) :
    ∃ limit r t, (∀ depth ≥ limit, eval depth site scope form s = (r, t)) ∧
      ((∃ v, r = .ok v) ∨ (∃ e, r = .error (.thrown e)) ∨
        builtins .range ∧ ∃ n, listCapacity < n ∧ r = .error (.exhausted (.room n))) := by
  obtain ⟨limit, r, t, hr, hc⟩ := evaluates_settling hf site hs s
  exact ⟨limit, r, t, hr, hc.cases⟩

/-- `(reduce reduce [map reduce "ab"])`, where `reduce` and `map` are called by one another. -/
theorem eval_terminates_reduce :
    let form : Form := .list [.sym "reduce", .sym "reduce", .vector [.sym "map", .sym "reduce", .lit (.str "ab")]]
    let scope : Scope := [("reduce", .fn (.builtin .reduce)), ("map", .fn (.builtin .map))]
    (readyMade (· ≠ .range)).OfForm (fun _ => True) form ∧ (readyMade (· ≠ .range)).OfScope (fun _ => True) scope ∧
      ∃ limit r t, (∀ depth ≥ limit, eval depth [0] scope form {} = (r, t)) ∧
        ((∃ v, r = .ok v) ∨ ∃ e, r = .error (.thrown e)) := by
  intro form scope
  have hf : (readyMade (· ≠ .range)).OfForm (fun _ => True) form := by
    simp [form, OfForm, OfForms, OfValue, MakesFunction, readyMade]
  have hs : (readyMade (· ≠ .range)).OfScope (fun _ => True) scope := by
    simp [scope, OfScope, OfValue, OfFn, readyMade]
  obtain ⟨limit, r, t, hr, hends⟩ := eval_terminates hf hs [0] {}
  exact ⟨hf, hs, limit, r, t, hr, hends.imp_right fun h => h.resolve_right fun hrange => hrange.1 rfl⟩

/-- More elements than a list can have do not fit into one. -/
theorem makeRange_of_lt {first stop : Int64} (h : listCapacity < rangeLength first stop) :
    makeRange first stop = Run.stop (.room (rangeLength first stop)) := if_neg (by omega)

/-- `(range 9223372036854775807)` makes no function, and comes to no value and to no error: there is
no room for its list. -/
theorem range_without_room :
    let form : Form := .list [.sym "range", .lit (.int 9223372036854775807)]
    let scope : Scope := [("range", .fn (.builtin .range))]
    (readyMade fun _ => True).OfForm (fun _ => True) form ∧ (readyMade fun _ => True).OfScope (fun _ => True) scope ∧
      form.evalAt [0] scope {} = (.error (.exhausted (.room 9223372036854775807)), {}) ∧
      ∀ o t, ¬form.Yields [0] scope {} o t := by
  intro form scope
  have hf : (readyMade fun _ => True).OfForm (fun _ => True) form := by
    simp [form, OfForm, OfForms, OfValue, MakesFunction, readyMade]
  have hs : (readyMade fun _ => True).OfScope (fun _ => True) scope := by
    simp [scope, OfScope, OfValue, OfFn, readyMade]
  have hstop : makeRange 0 9223372036854775807 = Run.stop (.room 9223372036854775807) :=
    makeRange_of_lt (by decide)
  have hlookup : scope.lookup "range" = some (.fn (.builtin .range)) := by simp [scope, Scope.lookup]
  have hcall (depth : Nat) : eval (depth + 2) [0] scope form = makeRange 0 9223372036854775807 :=
    eval_call_of_lookup (by decide) hlookup depth [0] [.lit (.int 9223372036854775807)]
  have heval : form.evalAt [0] scope {} = (.error (.exhausted (.room 9223372036854775807)), {}) :=
    congrFun ((hcall (nestingLimit - 2)).trans hstop) {}
  refine ⟨hf, hs, heval, fun o t h => ?_⟩
  have hreaches : form.Reaches [0] scope {} (.error (.exhausted (.room 9223372036854775807))) {} :=
    ⟨Run.ended_room _, nestingLimit, heval⟩
  obtain ⟨ho, -⟩ := (eval_deepening [0] scope form).reaches_unique h hreaches
  cases o <;> cases ho

end Settling

end Attest
