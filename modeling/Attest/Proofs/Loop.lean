import Mathlib.Data.List.Forall2
import Attest.Expansion
import Attest.Proofs.Computation
/-!
# Loops

The program goes through elements, iterations and items in the same way: it computes what each of
them comes to, one after the other, and appends that (`Run.collect`). So what holds of a loop is
proved of `Run.collect`, and each loop is an instance of it.
-/

namespace Attest

namespace Run

variable {ε α β γ δ : Type}

/-- What each of several things comes to, in order. -/
def collect (each : α → Run ε (List β)) : List α → Run ε (List β)
  | [] => pure []
  | a :: as => do
    let first ← each a
    let rest ← collect each as
    pure (first ++ rest)

variable {each each' : α → Run ε (List β)} {as : List α}

theorem collect_congr (h : ∀ a ∈ as, each a = each' a) : collect each as = collect each' as := by
  induction as with
  | nil => rfl
  | cons a as ih =>
    unfold collect
    rw [h a List.mem_cons_self, ih fun a' ha' => h a' (List.mem_cons_of_mem a ha')]

theorem collect_append (each : α → Run ε (List β)) (as bs : List α) :
    collect each (as ++ bs) = (do
      let first ← collect each as
      let rest ← collect each bs
      pure (first ++ rest)) := by
  induction as with
  | nil => simp [collect]
  | cons a as ih => simp only [List.cons_append, collect, ih, bind_assoc, pure_bind, List.append_assoc]

theorem collect_map (each : β → Run ε (List γ)) (f : α → β) (as : List α) :
    collect each (as.map f) = collect (fun a => each (f a)) as := by
  induction as with
  | nil => rfl
  | cons a as ih => simp only [List.map_cons, collect, ih]

theorem map_collect (f : β → γ) (each : α → Run ε (List β)) (as : List α) :
    List.map f <$> collect each as = collect (fun a => List.map f <$> each a) as := by
  induction as with
  | nil => rfl
  | cons a as ih =>
    simp only [collect, map_bind, map_pure, List.map_append, ← ih, bind_map_left]

/-- Things that are related part by part come to results that are. -/
theorem collect_rel {R : β → δ → Prop} {S : α → γ → Prop} {each : α → Run ε (List β)}
    {each' : γ → Run ε (List δ)} {as : List α} {cs : List γ} (hac : List.Forall₂ S as cs)
    (h : ∀ a c, S a c → Rel (List.Forall₂ R) (each a) (each' c)) :
    Rel (List.Forall₂ R) (collect each as) (collect each' cs) := by
  induction hac with
  | nil => exact .pure .nil
  | cons hhead _ ih =>
    unfold collect
    refine (h _ _ hhead).bind fun first first' hf => ih.bind fun rest rest' hr => ?_
    exact .pure (List.rel_append hf hr)

/-- Over the same things, only the parts have to end alike. -/
theorem collect_rel_same {R : β → δ → Prop} {each : α → Run ε (List β)} {each' : α → Run ε (List δ)}
    (h : ∀ a, Rel (List.Forall₂ R) (each a) (each' a)) (as : List α) :
    Rel (List.Forall₂ R) (collect each as) (collect each' as) := by
  apply collect_rel (List.forall₂_same.2 fun a _ => rfl)
  rintro a _ rfl
  exact h a

theorem collect_concludes {P : β → Prop} (h : ∀ a ∈ as, (each a).Concludes fun bs => ∀ b ∈ bs, P b) :
    (collect each as).Concludes fun bs => ∀ b ∈ bs, P b := by
  induction as with
  | nil => exact .pure fun b hb => absurd hb List.not_mem_nil
  | cons a as ih =>
    refine (h a List.mem_cons_self).bind fun first hfirst => ?_
    refine (ih fun a' ha' => h a' (List.mem_cons_of_mem a ha')).bind fun rest hrest => .pure fun b hb => ?_
    rcases List.mem_append.1 hb with hb | hb
    · exact hfirst b hb
    · exact hrest b hb

theorem collect_total (h : ∀ a ∈ as, (each a).Total) : (collect each as).Total := by
  have hall : (collect each as).Concludes fun bs => ∀ b ∈ bs, True :=
    collect_concludes fun a ha => (h a ha).mono fun _ _ _ _ => trivial
  exact hall.mono fun _ _ => trivial

end Run

/-! ## The loops of the program -/

/-- The check of an element of a searched collection. -/
def Search.element (c : Check) (v : Value) : Check :=
  { c with subject := .outcome (.ok v), site := c.site.part 0 }

theorem Search.eventsOf_eq_collect (each : Check → Checking (List Event)) (c : Check) (items : List Value) :
    eventsOf each c items = Run.collect (fun v => each (element c v)) items := by
  induction items with
  | nil => rfl
  | cons v vs ih =>
    unfold eventsOf
    rw [ih]
    rfl

theorem Traversal.forEach_eq_collect (go : Value → Eval (List Iteration)) (vs : List Value) :
    forEach go vs = Run.collect go vs := by
  induction vs with
  | nil => rfl
  | cons v vs ih =>
    unfold forEach
    rw [ih]
    rfl

theorem Plan.expandIterations_eq_collect (expand : Iteration → Checking (List Item)) (is : List Iteration) :
    expandIterations expand is = Run.collect expand is := by
  induction is with
  | nil => rfl
  | cons i rest ih =>
    unfold expandIterations
    rw [ih]
    rfl

theorem Item.runAll_eq_collect (engine : Engine) (items : List Item) :
    runAll engine items = Run.collect (run engine) items := by
  induction items with
  | nil => rfl
  | cons item items ih =>
    unfold runAll
    rw [ih]
    rfl

end Attest
