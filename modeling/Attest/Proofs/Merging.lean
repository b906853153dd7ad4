import Attest.Item
import Attest.Proofs.Computation
import Mathlib.Data.List.Perm.Subperm
/-!
# Elevating in stages

What elevation makes of several buffers together depends only on what it makes of each of them
(`elevate_append_elevate`). So searches that are nested, and elevated level by level, tell what one
flat buffer of all their events would tell (`Buffer.elevate_told`), and elevation only ever leaves events
out and reorders them (`subperm_elevate`).
-/

namespace Attest

/-! ## What elevation keeps -/

@[simp]
theorem eventsOf_append (status : Status) (x y : List Event) :
    eventsOf status (x ++ y) = eventsOf status x ++ eventsOf status y := List.filter_append x y

@[simp]
theorem eventsOf_self (status : Status) (x : List Event) :
    eventsOf status (eventsOf status x) = eventsOf status x := by
  simp [eventsOf]

theorem eventsOf_of_ne {status other : Status} (h : status ≠ other) (x : List Event) :
    eventsOf status (eventsOf other x) = [] := by
  unfold eventsOf
  rw [List.filter_filter, List.filter_eq_nil_iff]
  intro e _ he
  simp only [Bool.and_eq_true, beq_iff_eq] at he
  exact h (he.1.symm.trans he.2)

theorem elevate_of_pass {x : List Event} (h : x.any Event.isPass = true) : elevate x = eventsOf .pass x :=
  if_pos h

theorem elevate_of_noPass {x : List Event} (h : ¬x.any Event.isPass = true) :
    elevate x = eventsOf .error x ++ eventsOf .fail x := if_neg h

theorem eventsOf_pass_eq_nil {x : List Event} (h : ¬x.any Event.isPass = true) : eventsOf .pass x = [] := by
  unfold eventsOf
  rw [List.filter_eq_nil_iff]
  exact fun e he hpass => h (List.any_eq_true.2 ⟨e, he, hpass⟩)

/-- No pass is left out. -/
theorem eventsOf_pass_elevate (x : List Event) : eventsOf .pass (elevate x) = eventsOf .pass x := by
  by_cases h : x.any Event.isPass = true
  · rw [elevate_of_pass h, eventsOf_self]
  · have herror := eventsOf_of_ne (nofun : Status.pass ≠ .error) x
    have hfail := eventsOf_of_ne (nofun : Status.pass ≠ .fail) x
    rw [elevate_of_noPass h, eventsOf_append, herror, hfail, eventsOf_pass_eq_nil h, List.append_nil]

/-- Where nothing passed, nothing is left out. -/
theorem eventsOf_elevate {x : List Event} (h : ¬x.any Event.isPass = true) (status : Status) :
    eventsOf status (elevate x) = eventsOf status x := by
  cases status with
  | pass => exact eventsOf_pass_elevate x
  | error =>
    have hfail := eventsOf_of_ne (nofun : Status.error ≠ .fail) x
    rw [elevate_of_noPass h, eventsOf_append, eventsOf_self, hfail, List.append_nil]
  | fail =>
    have herror := eventsOf_of_ne (nofun : Status.fail ≠ .error) x
    rw [elevate_of_noPass h, eventsOf_append, eventsOf_self, herror, List.nil_append]

theorem any_isPass_iff {x : List Event} : x.any Event.isPass = true ↔ eventsOf .pass x ≠ [] := by
  rw [eventsOf, Ne, List.filter_eq_nil_iff, List.any_eq_true]
  simp [Event.isPass]

theorem any_isPass_elevate (x : List Event) : (elevate x).any Event.isPass = x.any Event.isPass := by
  rw [Bool.eq_iff_iff, any_isPass_iff, any_isPass_iff, eventsOf_pass_elevate]

/-! ## Buffers one after the other -/

/-- Elevating buffers on their own, and then together, is elevating them together. -/
theorem elevate_append_elevate (x y : List Event) : elevate (elevate x ++ elevate y) = elevate (x ++ y) := by
  have hany : (elevate x ++ elevate y).any Event.isPass = (x ++ y).any Event.isPass := by
    rw [List.any_append, List.any_append, any_isPass_elevate, any_isPass_elevate]
  by_cases h : (x ++ y).any Event.isPass = true
  · rw [elevate_of_pass (hany.trans h), elevate_of_pass h, eventsOf_append, eventsOf_append,
      eventsOf_pass_elevate, eventsOf_pass_elevate]
  · have hx : ¬x.any Event.isPass = true := fun hx => h (by rw [List.any_append, hx, Bool.true_or])
    have hy : ¬y.any Event.isPass = true := fun hy => h (by rw [List.any_append, hy, Bool.or_true])
    rw [elevate_of_noPass (hany ▸ h), elevate_of_noPass h]
    simp only [eventsOf_append, eventsOf_elevate hx, eventsOf_elevate hy]

theorem elevate_elevate (x : List Event) : elevate (elevate x) = elevate x := by
  simpa [elevate, eventsOf] using elevate_append_elevate x []

/-- Buffers that are elevated alike can stand for each other among others. -/
theorem elevate_append_congr {x x' y y' : List Event} (hx : elevate x = elevate x') (hy : elevate y = elevate y') :
    elevate (x ++ y) = elevate (x' ++ y') := by
  rw [← elevate_append_elevate x y, hx, hy, elevate_append_elevate]

/-- Where nothing passed, elevation only reorders. -/
theorem perm_elevate {x : List Event} (h : ¬x.any Event.isPass = true) : (elevate x).Perm x := by
  have hfail : eventsOf .fail x = x.filter fun e => !(e.status == .error) := by
    refine List.filter_congr fun e he => ?_
    have hpass : e.status ≠ .pass := fun hp => h (List.any_eq_true.2 ⟨e, he, beq_iff_eq.2 hp⟩)
    cases hs : e.status with
    | pass => exact absurd hs hpass
    | error => rfl
    | fail => rfl
  rw [elevate_of_noPass h, hfail]
  exact List.filter_append_perm _ x

/-- Elevated events are some of those collected, none more often than it was. -/
theorem subperm_elevate (x : List Event) : (elevate x).Subperm x := by
  by_cases h : x.any Event.isPass = true
  · rw [elevate_of_pass h]
    exact List.filter_sublist.subperm
  · exact (perm_elevate h).subperm

/-! ## Searches in searches -/

/-- What is collected while something is checked: an event, or the buffer of a search with all that is
collected in it. -/
inductive Buffer where
  | event (e : Event)
  | search (inside : List Buffer)

namespace Buffer

mutual

/-- What is told of a buffer, when every search elevates what it was told. -/
def told : Buffer → List Event
  | event e => [e]
  | search inside => elevate (toldAll inside)

/-- What is told of buffers, one after the other. -/
def toldAll : List Buffer → List Event
  | [] => []
  | b :: bs => b.told ++ toldAll bs

end

mutual

/-- All events of a buffer, as they came. -/
def events : Buffer → List Event
  | event e => [e]
  | search inside => allEvents inside

/-- All events of buffers, one after the other. -/
def allEvents : List Buffer → List Event
  | [] => []
  | b :: bs => b.events ++ allEvents bs

end

mutual

theorem elevate_told : (b : Buffer) → elevate b.told = elevate b.events
  | event e => rfl
  | search inside => by
    rw [told, elevate_elevate]
    exact elevate_toldAll inside

theorem elevate_toldAll : (bs : List Buffer) → elevate (toldAll bs) = elevate (allEvents bs)
  | [] => rfl
  | b :: bs => elevate_append_congr b.elevate_told (elevate_toldAll bs)

end

end Buffer

namespace Search

variable {ε : Type}

/-- Computations whose events are elevated alike. -/
def ElevatedAlike (x y : Run ε (List Event)) : Prop := Run.Rel (fun es es' => elevate es = elevate es') x y

theorem elevatedAlike_map (x : Run ε (List Event)) : ElevatedAlike (elevate <$> x) x := by
  rw [map_eq_pure_bind]
  have hsame : Run.Rel (fun es es' => elevate es = elevate es') (x >>= fun es => pure (elevate es)) (x >>= pure) :=
    Run.Rel.bind_same rfl fun es => .pure (elevate_elevate es)
  rwa [bind_pure] at hsame

/-- Only what elevation makes of the events of each element counts for the events of all of them. -/
theorem eventsOf_elevatedAlike {each each' : Check → Checking (List Event)}
    (h : ∀ d, ElevatedAlike (each d) (each' d)) (c : Check) (items : List Value) :
    ElevatedAlike (eventsOf each c items) (eventsOf each' c items) := by
  induction items with
  | nil => exact .pure rfl
  | cons v vs ih =>
    simp only [eventsOf]
    refine (h _).bind fun first first' hfirst => ih.bind fun rest rest' hrest => ?_
    exact .pure (elevate_append_congr hfirst hrest)

/-- A search reports the same whether or not the events of its elements were elevated before. -/
theorem run_congr {each each' : Check → Checking (List Event)} (h : ∀ d, ElevatedAlike (each d) (each' d))
    (c : Check) (engine : Engine) : run c each engine = run c each' engine := by
  unfold run
  refine bind_congr fun outcome => ?_
  cases outcome with
  | error t => rfl
  | ok collection =>
    refine bind_congr fun searched => ?_
    cases searched with
    | entries under => rfl
    | elements items =>
      have hmap := (eventsOf_elevatedAlike h c items).map_eq fun es es' => id
      simpa only [map_eq_pure_bind] using hmap

end Search

/-- Elevation can be done in stages: buffers that are elevated on their own and then together are
elevated as one, so elevating twice is elevating once, nested searches that elevate level by level tell
what one flat buffer would, and running a search does not depend on whether the events of its elements
were elevated before. No event is made up or told more often than it was collected. -/
theorem elevate_in_stages :
    (∀ x y, elevate (elevate x ++ elevate y) = elevate (x ++ y)) ∧
    (∀ x, elevate (elevate x) = elevate x ∧ (elevate x).Subperm x) ∧
    (∀ inside, (Buffer.search inside).told = elevate (Buffer.search inside).events) ∧
    ∀ c each engine, Search.run c (fun d => elevate <$> each d) engine = Search.run c each engine := by
  refine ⟨elevate_append_elevate, fun x => ⟨elevate_elevate x, subperm_elevate x⟩, fun inside => ?_, ?_⟩
  · exact Buffer.elevate_toldAll inside
  · exact fun c each engine => Search.run_congr (fun d => Search.elevatedAlike_map (each d)) c engine

end Attest
