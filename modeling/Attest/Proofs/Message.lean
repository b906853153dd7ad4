import Attest.Proofs.Search
/-!
# The message of an assertion leads the message of every event

Checks pass a message on to their parts and put lines behind it, and only a schema replaces it.
So without schemas the events of an assertion with a message are those of the assertion without
one, each with the message in front of its own (`Engine.check_headed`).
-/

namespace Attest

/-- A message in front of what there is to say besides. -/
def headed (message : String) : Option String → String
  | none => message
  | some context => message ++ "\n" ++ context

/-- An event with a message in front of its own. -/
def Event.headed (message : String) (e : Event) : Event :=
  { e with message := some (Attest.headed message e.message) }

/-- Lines go behind a message that is in front. -/
theorem withContext_headed (message : String) (own : Option String) (line : String) :
    withContext (some (headed message own)) line = some (headed message (withContext own line)) := by
  cases own with
  | none => rfl
  | some context => simp only [headed, withContext, String.append_assoc]

/-- Two runs without schemas, one of them with a message in front. -/
def Variation.heading (engine : Engine) (hs : engine.schemas = none) (message : String) : Variation where
  __ := same engine
  messages own own' := own = some (headed message own')
  context := by
    rintro _ own rfl line
    exact withContext_headed message own line
  reason h := absurd hs h

namespace Variation

variable {engine : Engine} {hs : engine.schemas = none} {message : String}

/-- The events of both runs differ in the message in front and in nothing else. -/
theorem events_headed {es es' : List Event}
    (h : List.Forall₂ (heading engine hs message).EventAlike es es') : es = es'.map (Event.headed message) := by
  induction h with
  | nil => rfl
  | @cons e e' es es' he _ ih =>
    have hhead : e = e'.headed message := by
      obtain ⟨hstatus, htexts, hmessage⟩ := he
      obtain ⟨hexpected, hactual, hdifference⟩ := htexts trivial
      cases e
      cases e'
      simp_all [Event.headed, heading]
    rw [List.map_cons, ← hhead, ih]

theorem heading_checkAlike (a : Assertion) (site : Site) (scope : Scope) :
    (heading engine hs message).CheckAlike ({ a with message := some message }.check site scope)
      ({ a with message := none }.check site scope) where
  expected := rfl
  form := trivial
  outcome _ := rfl
  scope := rfl
  raise := rfl
  label _ := rfl
  message := rfl
  site := rfl

end Variation

namespace Engine

variable {engine : Engine}

/-- Without schemas, an assertion with a message ends with the same defect or with the same
events as without it, but for the message in front of that of every event. -/
theorem check_headed (hs : engine.schemas = none) (a : Assertion) (message : String) (scope : Scope) :
    engine.check { a with message := some message } scope =
      List.map (Event.headed message) <$> engine.check { a with message := none } scope := by
  let V := Variation.heading engine hs message
  have hw : a.plan.Within V.forms := Plan.ofForms_within V.parts trivial trivial
  have hcheck : Run.Rel (List.Forall₂ V.EventAlike) (engine.check { a with message := some message } scope)
      (engine.check { a with message := none } scope) := by
    refine Run.Rel.bind_same rfl fun site => ?_
    exact Variation.checkAt_alike (V := V) rfl hw (Variation.heading_checkAlike a site scope)
  rw [← id_map (engine.check { a with message := some message } scope)]
  exact hcheck.map_eq fun es es' h => Variation.events_headed h

/-- Without schemas, the message of every event is that of the assertion, or begins with it and
goes on with lines about where the check comes from. -/
theorem message_of_check (hs : engine.schemas = none) {a : Assertion} {message : String}
    (hm : a.message = some message) {scope : Scope} {s t : Effects} {events : List Event}
    (h : engine.check a scope s = (.ok events, t)) :
    ∀ e ∈ events, e.message = some message ∨ ∃ context, e.message = some (message ++ "\n" ++ context) := by
  have ha : a = { a with message := some message } := by
    cases a
    cases hm
    rfl
  rw [ha, check_headed hs] at h
  obtain ⟨plain, u, -, hplain⟩ := Run.ok_of_bind h
  cases hplain
  intro e he
  obtain ⟨e', -, rfl⟩ := List.mem_map.1 he
  show some (headed message e'.message) = _ ∨ ∃ context, some (headed message e'.message) = _
  cases e'.message with
  | none => exact .inl rfl
  | some context => exact .inr ⟨context, rfl⟩

/-- `(expect (more-> 1 identity) 1)`, with a message. -/
def oneThroughIdentity : Assertion where
  expected := .list [.sym "more->", .lit (.int 1), .sym "identity"]
  actual := .lit (.int 1)
  message := some "one"

/-- The step of a pipeline is told behind the message. -/
theorem message_of_oneThroughIdentity :
    ∃ events t, Engine.check {} oneThroughIdentity [("identity", .fn (.builtin .identity))] {} = (.ok events, t) ∧
      events.map Event.message = [some "one\nmore-> identity"] ∧
      ∀ e ∈ events, e.message = some "one" ∨ ∃ context, e.message = some ("one" ++ "\n" ++ context) := by
  have hplan : oneThroughIdentity.plan = .pipeline .first [(.lit (.int 1), .sym "identity", .primitive)] := by
    show Plan.around (Plan.ofExpected oneThroughIdentity.expected) (.lit (.int 1)) = _
    rw [Plan.around_eq, Plan.ofExpected_eq]
    show Plan.pipeline .first [(.lit (.int 1), .sym "identity", Plan.ofExpected (.lit (.int 1)))] = _
    rw [Plan.ofExpected_eq]
    rfl
  have hmessages : (Engine.check {} oneThroughIdentity [("identity", .fn (.builtin .identity))] {}).1.toOption.map
      (List.map Event.message) = some [some "one\nmore-> identity"] := by
    show (Engine.checkAt {} oneThroughIdentity [0] [("identity", .fn (.builtin .identity))]
      { turns := 1 }).1.toOption.map
      (List.map Event.message) = _
    unfold Engine.checkAt Assertion.expandAt
    rw [hplan]
    decide +kernel
  obtain ⟨events, t, hrun, hevents⟩ := Run.exists_of_toOption hmessages
  exact ⟨events, t, hrun, hevents, message_of_check rfl rfl hrun⟩

end Engine

end Attest
