import Attest.Proofs.Comprehension
import Attest.Proofs.Preorder
import Attest.Proofs.Verdict
/-!
# Searching a map

A search of a map for the entries of another one compares the expected map with what the searched
one has under the expected keys (`Search.projection`). The two are equal exactly when each expected
key is there with an equal value (`Search.compareEntries_projection`), and nothing else of the
searched map goes into the event (`Engine.check_search_map`).
-/

namespace Attest

namespace Entries

/-- Every entry is found in another map, under an equal key and with an equal value. -/
def Within (expected entries : List (Value × Value)) : Prop :=
  ∀ e ∈ expected, ∃ v, find? entries e.1 = some v ∧ (e.2 == v) = true

@[simp]
theorem within_nil (entries : List (Value × Value)) : Within [] entries := by
  intro e he
  cases he

theorem within_cons {key value : Value} {expected entries : List (Value × Value)} :
    Within ((key, value) :: expected) entries ↔
      (∃ v, find? entries key = some v ∧ (value == v) = true) ∧ Within expected entries :=
  List.forall_mem_cons

end Entries

namespace Search

variable {expected entries : List (Value × Value)}

theorem projection_cons_of_none {key : Value} (value : Value) (h : Entries.find? entries key = none) :
    projection ((key, value) :: expected) entries = projection expected entries := by
  simp [projection, h]

theorem projection_cons_of_some {key v : Value} (value : Value) (h : Entries.find? entries key = some v) :
    projection ((key, value) :: expected) entries = (key, v) :: projection expected entries := by
  simp [projection, h]

theorem projection_congr {entries' : List (Value × Value)}
    (h : ∀ e ∈ expected, Entries.find? entries' e.1 = Entries.find? entries e.1) :
    projection expected entries' = projection expected entries := by
  refine List.filterMap_congr fun e he => ?_
  simp only [h e he]

/-- What is found under the expected keys equals the expected map just when all of it is found. -/
theorem compareEntries_projection :
    compareEntries expected (projection expected entries) = .eq ↔ Entries.Within expected entries := by
  induction expected with
  | nil => simp [projection, compareEntries]
  | cons e expected ih =>
    obtain ⟨key, value⟩ := e
    rw [Entries.within_cons]
    cases hfound : Entries.find? entries key with
    | none =>
      rw [projection_cons_of_none value hfound]
      constructor
      · -- A missing key leaves fewer entries than are expected, and no later key can make up for it.
        intro h
        have hlength := (compareEntries_eq_iff.1 h).length_eq
        have hle : (projection expected entries).length ≤ expected.length := List.length_filterMap_le _ _
        simp only [List.length_cons] at hlength
        omega
      · rintro ⟨⟨v, hv, -⟩, -⟩
        cases hv
    | some v =>
      rw [projection_cons_of_some value hfound, compareEntries, Value.compare_self, Ordering.eq_then,
        Ordering.then_eq_eq, ih, ← Value.beq_iff]
      simp

theorem run_of_map {each : Check → Checking (List Event)} {engine : Engine} {c : Check} {s t : Effects}
    (hout : (c.outcome : Checking Outcome) s = (.ok (.ok (.map entries)), t)) :
    run c each engine s = (do return [← runEntries c engine entries]) t := by
  unfold run
  rw [Run.bind_of_ok hout]
  rfl

theorem runEntries_of_map {engine : Engine} {c : Check} {s t : Effects}
    (h : c.expected.evalAt c.site.expected c.scope s = (.ok (.map expected), t)) :
    (runEntries c engine entries : Checking Event) s =
      (.ok ((entriesCheck c expected entries).equalEvent engine.renderer (.map expected)
        (.map (projection expected entries))), t) := by
  unfold runEntries
  exact Run.bind_of_ok (Run.attempt_of_ok h) _

end Search

namespace Engine

/-- The collection of a search has a map as its value, and then the expected form has one. -/
def SearchesMap (a : Assertion) (collection : Form) (scope : Scope) (s : Effects)
    (expected entries : List (Value × Value)) (u : Effects) : Prop :=
  ∃ t, collection.evalAt (Site.subject [s.turns]) scope { s with turns := s.turns + 1 } = (.ok (.map entries), t) ∧
    a.expected.evalAt (Site.expected [s.turns]) scope t = (.ok (.map expected), u)

/-- The event of the comparison of an expected map with what is found under its keys. It knows
neither the place nor the scope of the search. -/
def entriesEvent (engine : Engine) (a : Assertion) (expected entries : List (Value × Value)) : Event :=
  (Search.entriesCheck (a.check [] .empty) expected entries).equalEvent engine.renderer (.map expected)
    (.map (Search.projection expected entries))

variable {engine : Engine} {a : Assertion} {collection : Form} {scope : Scope} {s u : Effects}
  {expected entries : List (Value × Value)}

theorem check_of_searchesMap (h : SearchesMap a collection scope s expected entries u) :
    engine.check { a with actual := .search collection } scope s =
      (.ok [engine.entriesEvent a expected entries], u) := by
  obtain ⟨t, hcollection, hexpected⟩ := h
  show engine.checkAt { a with actual := .search collection } [s.turns] scope { s with turns := s.turns + 1 } = _
  rw [checkAt_of_contains rfl]
  refine (Search.run_of_map ?_).trans (Run.bind_of_ok (Search.runEntries_of_map hexpected) _)
  exact Run.attempt_of_ok hcollection

theorem entriesEvent_status (engine : Engine) (a : Assertion) (expected entries : List (Value × Value)) :
    ((engine.entriesEvent a expected entries).status = .pass ↔ Entries.Within expected entries) ∧
      ((engine.entriesEvent a expected entries).status = .fail ↔ ¬Entries.Within expected entries) := by
  have hstatus := (Search.entriesCheck (a.check [] .empty) expected entries).equalEvent_status engine.renderer
    (.map expected) (.map (Search.projection expected entries))
  have hequal : (Value.map expected == .map (Search.projection expected entries)) = true ↔
      Entries.Within expected entries := by
    rw [Value.beq_iff, Value.compare, Search.compareEntries_projection]
  by_cases hwithin : Entries.Within expected entries
  · rw [if_pos (hequal.2 hwithin)] at hstatus
    simp [entriesEvent, hstatus, hwithin]
  · rw [if_neg (fun h => hwithin (hequal.1 h))] at hstatus
    simp [entriesEvent, hstatus, hwithin]

/-- A search of a map for a map has one event, whether or not differences are told: it passes
exactly when every expected key is in the searched map with an equal value, and fails otherwise. Maps
in which the expected keys have the same values, or are missing alike, give the same event, wherever
they come from. -/
theorem check_search_map (engine : Engine) (h : SearchesMap a collection scope s expected entries u) :
    ∃ e, engine.check { a with actual := .search collection } scope s = (.ok [e], u) ∧
      (e.status = .pass ↔ Entries.Within expected entries) ∧
      (e.status = .fail ↔ ¬Entries.Within expected entries) ∧
      ∀ collection' scope' s' entries' u', SearchesMap a collection' scope' s' expected entries' u' →
        (∀ p ∈ expected, Entries.find? entries' p.1 = Entries.find? entries p.1) →
        engine.check { a with actual := .search collection' } scope' s' = (.ok [e], u') := by
  obtain ⟨hpass, hfail⟩ := engine.entriesEvent_status a expected entries
  refine ⟨engine.entriesEvent a expected entries, check_of_searchesMap h, hpass, hfail, ?_⟩
  intro collection' scope' s' entries' u' h' hagree
  rw [check_of_searchesMap h', entriesEvent, entriesEvent, Search.entriesCheck, Search.projection_congr hagree]
  rfl

/-- An entry that was not asked for changes nothing. -/
theorem check_search_map_larger :
    let a : Assertion := { expected := .map [(.lit (.int 1), .lit (.int 2))], actual := .lit .nil }
    let larger : List (Value × Value) := [(.int 1, .int 2), (.int 3, .int 5)]
    let collection := Form.lit (.map larger)
    SearchesMap a a.expected .empty {} [(.int 1, .int 2)] [(.int 1, .int 2)] { turns := 1 } ∧
      SearchesMap a collection .empty {} [(.int 1, .int 2)] larger { turns := 1 } ∧
      ∃ e, e.status = .pass ∧
        Engine.check {} { a with actual := .search a.expected } .empty {} = (.ok [e], { turns := 1 }) ∧
        Engine.check {} { a with actual := .search collection } .empty {} = (.ok [e], { turns := 1 }) := by
  intro a larger collection
  have h : SearchesMap a a.expected .empty {} [(.int 1, .int 2)] [(.int 1, .int 2)] { turns := 1 } :=
    ⟨{ turns := 1 }, rfl, rfl⟩
  have h' : SearchesMap a collection .empty {} [(.int 1, .int 2)] larger { turns := 1 } :=
    ⟨{ turns := 1 }, rfl, rfl⟩
  have hself : ∀ v : Value, (v == v) = true := Value.same_equivalence.refl
  obtain ⟨e, hrun, hpass, -, hagree⟩ := check_search_map {} h
  refine ⟨h, h', e, hpass.2 ?_, hrun, hagree collection .empty {} larger _ h' ?_⟩
  · simp [Entries.Within, Entries.find?, hself]
  · simp [larger, Entries.find?, hself]

end Engine

end Attest
