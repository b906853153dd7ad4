import Attest.Proofs.Invariant
import Attest.Proofs.Logic
/-!
# Evaluation keeps invariants

What a form evaluates to is made of its literals and of what its scope holds, so an invariant
of these holds of the value, or of what is thrown (`Invariant.evalAt_kept`). Only probes have
effects: without them, evaluation has none and does not depend on any.
-/

namespace Attest

/-- What a computation ends with, and that it is quiet. -/
def Run.Logic.ends (quiet : Prop) : Run.Logic Unit where
  Holds P E x := Run.Ends quiet P E (x ())
  pure h := .pure h
  raise h := .raise h
  mono h hP hE := h.mono hP hE
  bind h hf := h.bind hf
  attempt h := h.attempt
  widen h := h.widen

namespace Invariant

variable {I : Invariant} {α : Type} {P : α → Prop}

/-- A computation of the evaluator that keeps an invariant, and is quiet without probes. -/
def Kept (I : Invariant) (P : α → Prop) (x : Eval α) : Prop := Run.Ends (¬I.probes) P I.OfThrown x

/-- Evaluating keeps the invariant. -/
def EvaluatorKeeps (I : Invariant) (ev : Evaluator) : Prop :=
  ∀ site {scope form}, I.OfScope scope → I.OfForm form → I.Kept I.OfValue (ev site scope form)

/-- Calling keeps the invariant. -/
def CallerKeeps (I : Invariant) (call : Builtin.Caller) : Prop :=
  ∀ site f args, I.OfValue f → I.OfItems args → I.Kept I.OfValue (call site f args)

theorem answer_keeps {answer : Outcome} (h : I.OfAnswer answer) : I.discipline.Keeps I.OfValue answer := by
  cases answer with
  | ok v => exact h
  | error t => exact h

/-- A probe answers with its last argument or as its host likes; that it is one has effects. -/
theorem probe_kept {p : Probe} (hp : I.probes ∧ I.OfProbe p) {args : List Value} (h : I.discipline.All args) :
    I.Kept I.OfValue (p.call args) := by
  have hcounted : Run.Ends False I.OfValue I.OfThrown (p.call args) := by
    refine Discipline.probe_holds (D := I.discipline) (L := .ends False) h (fun _ => .modifyGet _) ?_
    rintro site name answers rfl
    exact ⟨.modifyGet _, fun n shown => answer_keeps (hp.2 n shown)⟩
  exact hcounted.weaken fun hquiet => hquiet hp.1

/-- To any depth, evaluating and calling keep the invariant. -/
theorem keeps_of_depth (depth : Nat) : I.EvaluatorKeeps (eval depth) ∧ I.CallerKeeps (apply depth) := by
  obtain ⟨hev, hcall⟩ := Discipline.holds_of_depth I.discipline_covers (L := .ends (¬I.probes))
    (fun _ limit => .stop limit) (fun _ p args hp ha => probe_kept hp ha) depth ()
  exact ⟨fun site scope form hs hf => hev form hf site hs,
    fun site f args hf ha => hcall f args hf (ofItems_iff.1 ha) site⟩

/-- The value of a form is made of its literals and of what is in the scope. -/
theorem evalAt_kept (site : Site) {scope : Scope} (hs : I.OfScope scope) {form : Form} (hf : I.OfForm form) :
    I.Kept I.OfValue (form.evalAt site scope) := (keeps_of_depth nestingLimit).1 site hs hf

end Invariant

end Attest
