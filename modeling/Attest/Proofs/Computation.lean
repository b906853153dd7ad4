import Attest.Run
/-!
# Computations, from outside

How a computation runs from given effects (`bind_apply`, `attempt_apply`), when two of them
end alike from the same effects (`Run.Rel`), what one of them can end with, and whether it does
so without effect (`Run.Ends`), and that one does not give up (`Run.Concludes`). These notions
pass through sequencing, so they are proved of a program by going through its steps.
-/

namespace Attest.Run

variable {ε δ α β α' β' : Type}

/-! ## Running from given effects -/

theorem bind_apply (x : Run ε α) (f : α → Run ε β) (s : Effects) :
    (x >>= f) s = match x s with
      | (.ok a, t) => f a t
      | (.error e, t) => (.error e, t) := by
  show (match x s with | (r, t) => ExceptT.bindCont f r t) = _
  rcases x s with ⟨_ | _, t⟩ <;> rfl

@[simp]
theorem pure_apply (a : α) (s : Effects) : (pure a : Run ε α) s = (.ok a, s) := rfl

@[simp]
theorem raise_apply (e : ε) (s : Effects) : (raise e : Run ε α) s = (.error (.thrown e), s) := rfl

@[simp]
theorem stop_apply (limit : Limit) (s : Effects) : (stop limit : Run ε α) s = (.error (.exhausted limit), s) := rfl

theorem attempt_apply (x : Run ε α) (s : Effects) :
    (attempt x : Run δ (Except ε α)) s = match x s with
      | (.ok a, t) => (.ok (.ok a), t)
      | (.error (.thrown e), t) => (.ok (.error e), t)
      | (.error (.exhausted limit), t) => (.error (.exhausted limit), t) := rfl

theorem attempt_of_ok {x : Run ε α} {s t : Effects} {a : α} (h : x s = (.ok a, t)) :
    (attempt x : Run δ _) s = (.ok (.ok a), t) := by
  rw [attempt_apply, h]

theorem attempt_of_thrown {x : Run ε α} {s t : Effects} {e : ε} (h : x s = (.error (.thrown e), t)) :
    (attempt x : Run δ _) s = (.ok (.error e), t) := by
  rw [attempt_apply, h]

theorem attempt_of_exhausted {x : Run ε α} {s t : Effects} {limit : Limit}
    (h : x s = (.error (.exhausted limit), t)) : (attempt x : Run δ _) s = (.error (.exhausted limit), t) := by
  rw [attempt_apply, h]

theorem widen_apply (x : Run Empty α) (s : Effects) :
    (widen x : Run ε α) s = match x s with
      | (.ok a, t) => (.ok a, t)
      | (.error e, t) => (.error e.widen, t) := rfl

theorem bind_of_ok {x : Run ε α} {s t : Effects} {a : α} (h : x s = (.ok a, t)) (f : α → Run ε β) :
    (x >>= f) s = f a t := by
  rw [bind_apply, h]

theorem bind_of_error {x : Run ε α} {s t : Effects} {e : Stop ε} (h : x s = (.error e, t))
    (f : α → Run ε β) : (x >>= f) s = (.error e, t) := by
  rw [bind_apply, h]

/-- A sequence that gives a result went through a result of its first part. -/
theorem ok_of_bind {x : Run ε α} {f : α → Run ε β} {s t : Effects} {b : β}
    (h : (x >>= f) s = (.ok b, t)) : ∃ a u, x s = (.ok a, u) ∧ f a u = (.ok b, t) := by
  rw [bind_apply] at h
  rcases hx : x s with ⟨_ | a, u⟩
  · rw [hx] at h
    cases h
  · rw [hx] at h
    exact ⟨a, u, rfl, h⟩

/-- A run of which the result is known in some respect gave a result. -/
theorem exists_of_toOption {p : Except (Stop ε) α × Effects} {f : α → β} {b : β}
    (h : p.1.toOption.map f = some b) : ∃ a t, p = (.ok a, t) ∧ f a = b := by
  obtain ⟨r, t⟩ := p
  cases r with
  | error e => cases h
  | ok a => exact ⟨a, t, rfl, Option.some.inj h⟩

/-! ## Two computations that end alike -/

/-- Two results that are related, or the same failure, and the same effects. -/
inductive Alike (R : α → β → Prop) :
    Except (Stop ε) α × Effects → Except (Stop ε) β × Effects → Prop where
  | ok {a : α} {b : β} (s : Effects) (h : R a b) : Alike R (.ok a, s) (.ok b, s)
  | error (e : Stop ε) (s : Effects) : Alike R (.error e, s) (.error e, s)

theorem Alike.cases {R : α → β → Prop} {p : Except (Stop ε) α × Effects}
    {q : Except (Stop ε) β × Effects} (h : Alike R p q) :
    (∃ a b s, p = (.ok a, s) ∧ q = (.ok b, s) ∧ R a b) ∨
      ∃ e s, p = (.error e, s) ∧ q = (.error e, s) := by
  cases h with
  | ok s h => exact .inl ⟨_, _, s, rfl, rfl, h⟩
  | error e s => exact .inr ⟨e, s, rfl, rfl⟩

theorem Alike.mono {R S : α → β → Prop} {p : Except (Stop ε) α × Effects}
    {q : Except (Stop ε) β × Effects} (h : Alike R p q) (hRS : ∀ a b, R a b → S a b) : Alike S p q := by
  cases h with
  | ok s h => exact .ok s (hRS _ _ h)
  | error e s => exact .error e s

/-- Whether two computations end alike, from any effects. -/
def Rel (R : α → β → Prop) (x : Run ε α) (y : Run ε β) : Prop := ∀ s, Alike R (x s) (y s)

namespace Rel

theorem pure {R : α → β → Prop} {a : α} {b : β} (h : R a b) :
    Rel R (pure a : Run ε α) (Pure.pure b) := fun s => .ok s h

theorem raise (R : α → β → Prop) (e : ε) : Rel R (Run.raise e) (Run.raise e) :=
  fun s => .error _ s

theorem refl {R : α → α → Prop} (h : ∀ a, R a a) (x : Run ε α) : Rel R x x := by
  intro s
  rcases x s with ⟨e | a, t⟩
  · exact .error e t
  · exact .ok t (h a)

theorem of_eq {x y : Run ε α} (h : x = y) : Rel Eq x y := h ▸ refl (fun _ => rfl) x

theorem mono {R S : α → β → Prop} {x : Run ε α} {y : Run ε β} (h : Rel R x y)
    (hRS : ∀ a b, R a b → S a b) : Rel S x y := fun s => (h s).mono hRS

theorem bind {R : α → β → Prop} {S : α' → β' → Prop} {x : Run ε α} {y : Run ε β}
    {f : α → Run ε α'} {g : β → Run ε β'} (h : Rel R x y) (hfg : ∀ a b, R a b → Rel S (f a) (g b)) :
    Rel S (x >>= f) (y >>= g) := by
  intro s
  rw [bind_apply, bind_apply]
  rcases (h s).cases with ⟨a, b, t, hx, hy, hab⟩ | ⟨e, t, hx, hy⟩
  · rw [hx, hy]
    exact hfg a b hab t
  · rw [hx, hy]
    exact .error e t

/-- After the same first part, only what follows has to end alike. -/
theorem bind_same {S : α' → β' → Prop} {x y : Run ε α} {f : α → Run ε α'} {g : α → Run ε β'}
    (h : x = y) (hfg : ∀ a, Rel S (f a) (g a)) : Rel S (x >>= f) (y >>= g) := by
  apply bind (of_eq h)
  rintro a _ rfl
  exact hfg a

theorem attempt {R : α → β → Prop} {x : Run ε α} {y : Run ε β} (h : Rel R x y) :
    Rel (fun a b => match a, b with
      | .ok a, .ok b => R a b
      | .error e, .error e' => e = e'
      | _, _ => False) (Run.attempt x : Run δ _) (Run.attempt y) := by
  intro s
  rw [attempt_apply, attempt_apply]
  rcases (h s).cases with ⟨a, b, t, hx, hy, hab⟩ | ⟨e | _, t, hx, hy⟩
  · rw [hx, hy]
    exact .ok t hab
  · rw [hx, hy]
    exact .ok t rfl
  · rw [hx, hy]
    exact .error _ t

/-- Computations that end alike with equal results are the same. -/
theorem eq {x y : Run ε α} (h : Rel Eq x y) : x = y := by
  funext s
  rcases (h s).cases with ⟨a, b, t, hx, hy, rfl⟩ | ⟨e, t, hx, hy⟩
  · rw [hx, hy]
  · rw [hx, hy]

/-- Results that a function does not tell apart make the same computation. -/
theorem map_eq {R : α → β → Prop} {x : Run ε α} {y : Run ε β} (h : Rel R x y) {γ : Type}
    {f : α → γ} {g : β → γ} (hfg : ∀ a b, R a b → f a = g b) : f <$> x = g <$> y := by
  funext s
  show (x >>= fun a => Pure.pure (f a)) s = (y >>= fun b => Pure.pure (g b)) s
  rw [bind_apply, bind_apply]
  rcases (h s).cases with ⟨a, b, t, hx, hy, hab⟩ | ⟨e, t, hx, hy⟩
  · rw [hx, hy]
    exact congrArg (fun c => (Except.ok c, t)) (hfg a b hab)
  · rw [hx, hy]

end Rel

/-! ## What a computation can end with -/

/-- A computation that ends as `P` and `E` say if it ends with a result or throws, and that
has no effect, nor depends on earlier ones, if it is `quiet`. -/
structure Ends (quiet : Prop) (P : α → Prop) (E : ε → Prop) (x : Run ε α) : Prop where
  ok : ∀ s a t, x s = (.ok a, t) → P a
  thrown : ∀ s e t, x s = (.error (.thrown e), t) → E e
  steady : quiet → ∃ r, ∀ s, x s = (r, s)

namespace Ends

variable {quiet : Prop} {P P' : α → Prop} {Q : β → Prop} {E : ε → Prop}

/-- Any computation ends somehow. -/
theorem any (x : Run ε α) : Ends False (fun _ => True) (fun _ => True) x :=
  ⟨fun _ _ _ _ => trivial, fun _ _ _ _ => trivial, False.elim⟩

/-- A result of a computation is one that it gives from some effects. -/
theorem given (x : Run ε α) : Ends False (fun a => ∃ s t, x s = (.ok a, t)) (fun _ => True) x :=
  ⟨fun s _ t h => ⟨s, t, h⟩, fun _ _ _ _ => trivial, False.elim⟩

theorem pure {a : α} (h : P a) : Ends quiet P E (Pure.pure a) where
  ok s b t hb := by cases hb; exact h
  thrown s e t he := by cases he
  steady _ := ⟨_, fun s => rfl⟩

theorem raise {e : ε} (h : E e) : Ends quiet P E (Run.raise e) where
  ok s b t hb := by cases hb
  thrown s e t he := by cases he; exact h
  steady _ := ⟨_, fun s => rfl⟩

theorem stop (limit : Limit) : Ends quiet P E (Run.stop limit) where
  ok s b t hb := by cases hb
  thrown s e t he := by cases he
  steady _ := ⟨_, fun s => rfl⟩

/-- Changing the effects throws nothing. -/
theorem modifyGet (f : Effects → α × Effects) : Ends False (fun _ => True) E (MonadStateOf.modifyGet f : Run ε α) where
  ok _ _ _ _ := trivial
  thrown s e t he := by cases he
  steady := False.elim

theorem mono {E' : ε → Prop} {x : Run ε α} (h : Ends quiet P E x) (hP : ∀ a, P a → P' a)
    (hE : ∀ e, E e → E' e) : Ends quiet P' E' x where
  ok s a t ha := hP a (h.ok s a t ha)
  thrown s e t he := hE e (h.thrown s e t he)
  steady := h.steady

theorem weaken {quiet' : Prop} {x : Run ε α} (h : Ends quiet P E x) (hq : quiet' → quiet) :
    Ends quiet' P E x := ⟨h.ok, h.thrown, fun h' => h.steady (hq h')⟩

theorem bind {x : Run ε α} {f : α → Run ε β} (hx : Ends quiet P E x)
    (hf : ∀ a, P a → Ends quiet Q E (f a)) : Ends quiet Q E (x >>= f) where
  ok s b t hb := by
    obtain ⟨a, u, ha, hb⟩ := ok_of_bind hb
    exact (hf a (hx.ok s a u ha)).ok u b t hb
  thrown s e t he := by
    rcases hxs : x s with ⟨e' | a, u⟩
    · rw [bind_of_error hxs] at he
      cases he
      exact hx.thrown s e _ hxs
    · rw [bind_of_ok hxs] at he
      exact (hf a (hx.ok s a u hxs)).thrown u e t he
  steady hq := by
    obtain ⟨r, hr⟩ := hx.steady hq
    cases r with
    | error e => exact ⟨.error e, fun s => bind_of_error (hr s) f⟩
    | ok a =>
      obtain ⟨r, hr'⟩ := (hf a (hx.ok {} a {} (hr {}))).steady hq
      exact ⟨r, fun s => by rw [bind_of_ok (hr s), hr']⟩

/-- What was thrown is a result, so the error cases move into the results. -/
theorem attempt {F : δ → Prop} {x : Run ε α} (hx : Ends quiet P E x) :
    Ends quiet (fun r => (∀ a, r = .ok a → P a) ∧ ∀ e, r = .error e → E e) F
      (Run.attempt x : Run δ (Except ε α)) where
  ok s r t hr := by
    rw [attempt_apply] at hr
    rcases hxs : x s with ⟨(e | _) | a, u⟩ <;> rw [hxs] at hr <;> cases hr
    · exact ⟨by rintro _ ⟨⟩, by rintro _ ⟨⟩; exact hx.thrown s e _ hxs⟩
    · exact ⟨by rintro _ ⟨⟩; exact hx.ok s a _ hxs, by rintro _ ⟨⟩⟩
  thrown s e t he := by
    rw [attempt_apply] at he
    rcases hxs : x s with ⟨(e | _) | a, u⟩ <;> rw [hxs] at he <;> cases he
  steady hq := by
    obtain ⟨r, hr⟩ := hx.steady hq
    rcases r with (e | limit) | a
    · exact ⟨.ok (.error e), fun s => by rw [attempt_apply, hr]⟩
    · exact ⟨.error (.exhausted limit), fun s => by rw [attempt_apply, hr]⟩
    · exact ⟨.ok (.ok a), fun s => by rw [attempt_apply, hr]⟩

theorem widen {F : Empty → Prop} {x : Run Empty α} (hx : Ends quiet P F x) :
    Ends quiet P E (Run.widen x) where
  ok s a t ha := by
    rw [widen_apply] at ha
    rcases hxs : x s with ⟨e | b, u⟩ <;> rw [hxs] at ha <;> cases ha
    exact hx.ok s a _ hxs
  thrown s e t he := by
    rw [widen_apply] at he
    rcases hxs : x s with ⟨stop | b, u⟩ <;> rw [hxs] at he
    · exact absurd (Except.error.inj (Prod.mk.inj he).1) stop.widen_ne_thrown
    · cases he
  steady hq := by
    obtain ⟨r, hr⟩ := hx.steady hq
    rcases r with e | a
    · exact ⟨.error e.widen, fun s => by rw [widen_apply, hr]⟩
    · exact ⟨.ok a, fun s => by rw [widen_apply, hr]⟩

end Ends

/-! ## Computations that do not give up -/

/-- A computation that ends with a result that is `P`, or throws, from any effects. -/
def Concludes (P : α → Prop) (x : Run ε α) : Prop :=
  ∀ s, (∃ a t, x s = (.ok a, t) ∧ P a) ∨ ∃ e t, x s = (.error (.thrown e), t)

/-- A computation that ends with a result or throws, from any effects. -/
abbrev Total (x : Run ε α) : Prop := Concludes (fun _ => True) x

namespace Concludes

variable {P P' : α → Prop} {Q : β → Prop}

theorem pure {a : α} (h : P a) : Concludes P (Pure.pure a : Run ε α) := fun s => .inl ⟨a, s, rfl, h⟩

theorem raise (e : ε) : Concludes P (Run.raise e) := fun s => .inr ⟨e, s, rfl⟩

theorem ofExcept (x : Except ε α) : Total (Run.ofExcept x) := by
  cases x with
  | ok a => exact pure trivial
  | error e => exact raise e

theorem mono {x : Run ε α} (h : Concludes P x) (hP : ∀ a, P a → P' a) : Concludes P' x := by
  intro s
  rcases h s with ⟨a, t, ha, hp⟩ | hthrown
  · exact .inl ⟨a, t, ha, hP a hp⟩
  · exact .inr hthrown

theorem bind {x : Run ε α} {f : α → Run ε β} (hx : Concludes P x) (hf : ∀ a, P a → Concludes Q (f a)) :
    Concludes Q (x >>= f) := by
  intro s
  rcases hx s with ⟨a, t, ha, hp⟩ | ⟨e, t, he⟩
  · rw [bind_of_ok ha]
    exact hf a hp t
  · exact .inr ⟨e, t, bind_of_error he f⟩

theorem attempt {x : Run ε α} (hx : Concludes P x) : Total (Run.attempt x : Run δ (Except ε α)) := by
  intro s
  rw [attempt_apply]
  rcases hx s with ⟨a, t, ha, -⟩ | ⟨e, t, he⟩
  · rw [ha]
    exact .inl ⟨_, t, rfl, trivial⟩
  · rw [he]
    exact .inl ⟨_, t, rfl, trivial⟩

theorem widen {x : Run Empty α} (hx : Concludes P x) : Concludes P (Run.widen x : Run ε α) := by
  intro s
  rw [widen_apply]
  rcases hx s with ⟨a, t, ha, hp⟩ | ⟨e, -⟩
  · rw [ha]
    exact .inl ⟨a, t, rfl, hp⟩
  · exact e.elim

end Concludes

end Attest.Run
