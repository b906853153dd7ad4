import Attest.Proofs.Logic
/-!
# What evaluation comes to

How deeply evaluation may nest only decides whether it comes to an end: to a greater depth it ends as it
did (`eval_deepening`). So a form reaches one result at most, with one effect (`Form.Reaches`), and what a
sequence comes to is put together from what its parts come to (`Run.reaches_bind_iff`). That two forms
reach the same is then a statement about them alone, and says of evaluation to the limit that it is the
same unless it nests too deeply (`Form.evalAt_eq_of_reaches`).
-/

namespace Attest

namespace Run

variable {ε α β : Type} {s t : Effects} {r : Except (Stop ε) α}

/-! ## Computations that may nest to any depth -/

/-- A result that does not come of nesting too deeply. -/
abbrev Ended (r : Except (Stop ε) α) : Prop := r ≠ .error (.exhausted .nesting)

/-- A computation that ends with a result, with some effect, if it may nest deeply enough. -/
def Reaches (x : Nat → Run ε α) (s : Effects) (r : Except (Stop ε) α) (t : Effects) : Prop :=
  Ended r ∧ ∃ depth, x depth s = (r, t)

/-- A computation that ends as it did when it may nest more deeply. -/
def Deepening (x : Nat → Run ε α) : Prop :=
  ∀ depth depth' s (r : Except (Stop ε) α) t, depth ≤ depth' → Ended r → x depth s = (r, t) → x depth' s = (r, t)

theorem ended_ok (a : α) : Ended (.ok a : Except (Stop ε) α) := nofun

theorem ended_room (n : Nat) : Ended (.error (.exhausted (.room n)) : Except (Stop ε) α) := nofun

/-- Stopping is the same for results of any kind. -/
theorem ended_error {e : Stop ε} (h : Ended (.error e : Except (Stop ε) α)) : Ended (.error e : Except (Stop ε) β) :=
  fun he => h (congrArg Except.error (Except.error.inj he))

namespace Deepening

variable {x : Nat → Run ε α}

theorem const (x : Run ε α) : Deepening fun _ => x := fun _ _ _ _ _ _ _ h => h

theorem shift (h : Deepening x) (k : Nat) : Deepening fun depth => x (depth + k) :=
  fun _ _ _ _ _ hle hr hx => h _ _ _ _ _ (Nat.add_le_add_right hle k) hr hx

theorem bind {f : Nat → α → Run ε β} (hx : Deepening x) (hf : ∀ a, Deepening fun depth => f depth a) :
    Deepening fun depth => x depth >>= f depth := by
  intro depth depth' s r t hle hr h
  dsimp only at h ⊢
  rcases hxs : x depth s with ⟨e | a, u⟩
  · rw [bind_of_error hxs] at h
    obtain ⟨rfl, rfl⟩ := Prod.mk.inj h
    exact bind_of_error (hx _ _ _ _ _ hle (ended_error hr) hxs) _
  · rw [bind_of_ok hxs] at h
    rw [bind_of_ok (hx _ _ _ _ _ hle (ended_ok a) hxs)]
    exact hf a _ _ _ _ _ hle hr h

/-- There is one result at most, with one effect. -/
theorem reaches_unique (h : Deepening x) {t' : Effects} {r' : Except (Stop ε) α} (hx : Reaches x s r t)
    (hx' : Reaches x s r' t') : r = r' ∧ t = t' := by
  obtain ⟨hr, depth, hd⟩ := hx
  obtain ⟨hr', depth', hd'⟩ := hx'
  have heq := (h _ _ _ _ _ (Nat.le_max_left depth depth') hr hd).symm.trans
    (h _ _ _ _ _ (Nat.le_max_right depth depth') hr' hd')
  exact Prod.mk.inj heq

end Deepening

/-- The result of a computation that may nest more deeply throughout. -/
theorem reaches_shift_iff {x : Nat → Run ε α} (h : Deepening x) (k : Nat) :
    Reaches (fun depth => x (depth + k)) s r t ↔ Reaches x s r t := by
  constructor
  · rintro ⟨hr, depth, hx⟩
    exact ⟨hr, depth + k, hx⟩
  · rintro ⟨hr, depth, hx⟩
    exact ⟨hr, depth, h _ _ _ _ _ (Nat.le_add_right depth k) hr hx⟩

/-- Computations that run alike once they may nest deeply enough come to the same. -/
theorem reaches_iff_of_eq {x y : Nat → Run ε α} {u : Effects} (hx : Deepening x) (hy : Deepening y) (limit : Nat)
    (h : ∀ depth ≥ limit, x depth s = y depth u) : Reaches x s r t ↔ Reaches y u r t := by
  constructor
  · rintro ⟨hr, depth, hd⟩
    refine ⟨hr, max limit depth, ?_⟩
    rw [← h _ (Nat.le_max_left limit depth)]
    exact hx _ _ _ _ _ (Nat.le_max_right limit depth) hr hd
  · rintro ⟨hr, depth, hd⟩
    refine ⟨hr, max limit depth, ?_⟩
    rw [h _ (Nat.le_max_left limit depth)]
    exact hy _ _ _ _ _ (Nat.le_max_right limit depth) hr hd

/-- What a sequence comes to: its first part stops, or what follows goes on from the result. -/
theorem reaches_bind_iff {x : Nat → Run ε α} {f : Nat → α → Run ε β} (hx : Deepening x)
    (hf : ∀ a, Deepening fun depth => f depth a) {r : Except (Stop ε) β} :
    Reaches (fun depth => x depth >>= f depth) s r t ↔
      (∃ e, r = .error e ∧ Reaches x s (.error e) t) ∨
        ∃ a u, Reaches x s (.ok a) u ∧ Reaches (fun depth => f depth a) u r t := by
  constructor
  · rintro ⟨hr, depth, h⟩
    dsimp only at h
    rw [bind_apply] at h
    rcases hxs : x depth s with ⟨e | a, u⟩
    · rw [hxs] at h
      obtain ⟨rfl, rfl⟩ := Prod.mk.inj h
      exact .inl ⟨e, rfl, ended_error hr, depth, hxs⟩
    · rw [hxs] at h
      exact .inr ⟨a, u, ⟨ended_ok a, depth, hxs⟩, hr, depth, h⟩
  · rintro (⟨e, rfl, hr, depth, h⟩ | ⟨a, u, ⟨ha, depth, h⟩, hr, depth', h'⟩)
    · exact ⟨ended_error hr, depth, bind_of_error h _⟩
    · refine ⟨hr, max depth depth', ?_⟩
      have hfirst := hx _ _ _ _ _ (Nat.le_max_left depth depth') ha h
      exact (bind_of_ok hfirst _).trans (hf a _ _ _ _ _ (Nat.le_max_right depth depth') hr h')

/-- Sequences come to the same if their first parts do. -/
theorem reaches_bind_congr {x y : Nat → Run ε α} {f : Nat → α → Run ε β} (hx : Deepening x)
    (hy : Deepening y) (hf : ∀ a, Deepening fun depth => f depth a)
    (h : ∀ {s r t}, Reaches x s r t ↔ Reaches y s r t) {r : Except (Stop ε) β} :
    Reaches (fun depth => x depth >>= f depth) s r t ↔ Reaches (fun depth => y depth >>= f depth) s r t := by
  rw [reaches_bind_iff hx hf, reaches_bind_iff hy hf]
  simp only [h]

/-! ## One computation that goes on where another gives up -/

/-- A second computation ends as a first one does, as `P` and `E` say, unless the first nests too
deeply. -/
structure Refined (P : α → Prop) (E : ε → Prop) (x y : Run ε α) : Prop where
  ok : ∀ s a t, x s = (.ok a, t) → P a ∧ y s = (.ok a, t)
  thrown : ∀ s e t, x s = (.error (.thrown e), t) → E e ∧ y s = (.error (.thrown e), t)
  full : ∀ s n t, x s = (.error (.exhausted (.room n)), t) → y s = (.error (.exhausted (.room n)), t)

namespace Refined

variable {δ : Type} {P P' : α → Prop} {Q : β → Prop} {E E' : ε → Prop} {x y : Run ε α}

/-- Whatever goes on where nothing was done. -/
theorem exhausted (y : Run ε α) : Refined P E Run.exhausted y where
  ok s b t hb := by cases hb
  thrown s e t he := by cases he
  full s n t hn := by cases hn

/-- A computation that ends as it does. -/
theorem of_ends (h : Ends False P E x) : Refined P E x x :=
  ⟨fun s a t ha => ⟨h.ok s a t ha, ha⟩, fun s e t he => ⟨h.thrown s e t he, he⟩, fun _ _ _ hn => hn⟩

theorem mono (h : Refined P E x y) (hP : ∀ a, P a → P' a) (hE : ∀ e, E e → E' e) : Refined P' E' x y where
  ok s a t ha := (h.ok s a t ha).imp_left (hP a)
  thrown s e t he := (h.thrown s e t he).imp_left (hE e)
  full := h.full

theorem bind {f g : α → Run ε β} (h : Refined P E x y) (hfg : ∀ a, P a → Refined Q E (f a) (g a)) :
    Refined Q E (x >>= f) (y >>= g) where
  ok s b t hb := by
    obtain ⟨a, u, ha, hb⟩ := ok_of_bind hb
    obtain ⟨hPa, hya⟩ := h.ok s a u ha
    rw [bind_of_ok hya]
    exact (hfg a hPa).ok u b t hb
  thrown s e t he := by
    rcases hxs : x s with ⟨e' | a, u⟩
    · rw [bind_of_error hxs] at he
      cases he
      obtain ⟨hEe, hye⟩ := h.thrown s e _ hxs
      exact ⟨hEe, bind_of_error hye g⟩
    · obtain ⟨hPa, hya⟩ := h.ok s a u hxs
      rw [bind_of_ok hxs] at he
      rw [bind_of_ok hya]
      exact (hfg a hPa).thrown u e t he
  full s n t hn := by
    rcases hxs : x s with ⟨e' | a, u⟩
    · rw [bind_of_error hxs] at hn
      cases hn
      exact bind_of_error (h.full s n _ hxs) g
    · obtain ⟨hPa, hya⟩ := h.ok s a u hxs
      rw [bind_of_ok hxs] at hn
      rw [bind_of_ok hya]
      exact (hfg a hPa).full u n t hn

theorem attempt {F : δ → Prop} (h : Refined P E x y) :
    Refined (fun r => (∀ a, r = .ok a → P a) ∧ ∀ e, r = .error e → E e) F
      (Run.attempt x : Run δ (Except ε α)) (Run.attempt y) where
  ok s r t hr := by
    rcases hxs : x s with ⟨(e | _) | a, u⟩
    · obtain ⟨hEe, hye⟩ := h.thrown s e u hxs
      rw [attempt_of_thrown hxs] at hr
      cases hr
      exact ⟨⟨nofun, by rintro _ ⟨⟩; exact hEe⟩, attempt_of_thrown hye⟩
    · rw [attempt_of_exhausted hxs] at hr
      cases hr
    · obtain ⟨hPa, hya⟩ := h.ok s a u hxs
      rw [attempt_of_ok hxs] at hr
      cases hr
      exact ⟨⟨by rintro _ ⟨⟩; exact hPa, nofun⟩, attempt_of_ok hya⟩
  thrown s e t he := by
    rw [attempt_apply] at he
    rcases hxs : x s with ⟨(e | _) | a, u⟩ <;> rw [hxs] at he <;> cases he
  full s n t hn := by
    rw [attempt_apply] at hn
    rcases hxs : x s with ⟨(e | _) | a, u⟩ <;> rw [hxs] at hn <;> cases hn
    exact attempt_of_exhausted (h.full s n _ hxs)

theorem widen {F : Empty → Prop} {x y : Run Empty α} (h : Refined P F x y) :
    Refined P E (Run.widen x) (Run.widen y) where
  ok s a t ha := by
    rw [widen_apply] at ha ⊢
    rcases hxs : x s with ⟨e | b, u⟩ <;> rw [hxs] at ha <;> cases ha
    obtain ⟨hPa, hya⟩ := h.ok s a _ hxs
    rw [hya]
    exact ⟨hPa, rfl⟩
  thrown s e t he := by
    rw [widen_apply] at he
    rcases hxs : x s with ⟨stop | b, u⟩ <;> rw [hxs] at he
    · exact absurd (Except.error.inj (Prod.mk.inj he).1) stop.widen_ne_thrown
    · cases he
  full s n t hn := by
    rw [widen_apply] at hn ⊢
    rcases hxs : x s with ⟨(e | limit) | b, u⟩ <;> rw [hxs] at hn
    · exact e.elim
    · cases hn
      rw [h.full s n _ hxs]
      rfl
    · cases hn

end Refined

/-- A second computation goes on where a first one nests too deeply. -/
def Logic.refining : Logic Bool where
  Holds P E x := Refined P E (x false) (x true)
  pure h := .of_ends (.pure h)
  raise h := .of_ends (.raise h)
  mono h hP hE := h.mono hP hE
  bind h hf := h.bind hf
  attempt h := h.attempt
  widen h := h.widen

theorem deepening_of_refined {x : Nat → Run ε α} {P : α → Prop} {E : ε → Prop}
    (h : ∀ depth more, Refined P E (x depth) (x (more + depth))) : Deepening x := by
  intro depth depth' s r t hle hr hx
  obtain ⟨more, rfl⟩ := Nat.exists_eq_add_of_le' hle
  match r, hr, hx with
  | .ok a, _, hx => exact ((h depth more).ok s a t hx).2
  | .error (.thrown e), _, hx => exact ((h depth more).thrown s e t hx).2
  | .error (.exhausted (.room n)), _, hx => exact (h depth more).full s n t hx
  | .error (.exhausted .nesting), hr, _ => exact absurd rfl hr

end Run

/-! ## Evaluation -/

/-- Whatever there may be. -/
def Discipline.everything : Discipline where
  values _ := True
  scopes _ := True
  forms _ := True
  atom _ := trivial
  list := ⟨fun _ _ _ => trivial, fun _ => trivial⟩
  elements _ _ _ := trivial
  noElements := trivial
  insert _ _ := trivial
  entries _ _ _ := ⟨trivial, trivial⟩
  noEntries := trivial
  put _ _ _ := trivial
  putNew _ _ _ := trivial
  select _ _ := trivial
  error := ⟨fun _ _ _ => trivial, fun _ => trivial⟩
  constantly := Iff.rfl
  bind _ _ _ := trivial
  lookup _ _ _ := trivial
  literal := Iff.rfl
  head _ := trivial
  args _ _ _ := trivial
  vector _ _ _ := trivial
  map _ _ _ := ⟨trivial, trivial⟩
  thread _ _ _ := trivial
  function _ _ _ _ := trivial

theorem Discipline.everything_covers : Covers fun _ : Unit => everything where
  values := id
  closure _ := ⟨(), trivial, fun _ _ => trivial⟩

/-- To a greater depth, evaluating and calling end as they did. -/
theorem refined_of_depth (depth more : Nat) :
    (∀ site scope form, Run.Refined (fun _ => True) (fun _ => True)
      (eval depth site scope form) (eval (more + depth) site scope form)) ∧
    ∀ site f args, Run.Refined (fun _ => True) (fun _ => True)
      (apply depth site f args) (apply (more + depth) site f args) := by
  obtain ⟨hev, hcall⟩ := Discipline.holds_of_deeper Discipline.everything_covers (L := .refining)
    (fun _ _ n _ => .of_ends (.stop (.room n))) (fun deeper => if deeper then more else 0)
    (fun _ => ⟨fun f _ site scope _ => .exhausted _, fun f args _ _ site => .exhausted _⟩)
    (fun _ p args _ _ => .of_ends ((Run.Ends.any (p.call args)).mono (fun _ h => h) fun _ h => h)) depth ()
  constructor
  · intro site scope form
    have h : Run.Refined (fun _ => True) (fun _ => True) (eval (0 + depth) site scope form)
        (eval (more + depth) site scope form) := hev form trivial site trivial
    rwa [Nat.zero_add] at h
  · intro site f args
    have h : Run.Refined (fun _ => True) (fun _ => True) (apply (0 + depth) site f args)
        (apply (more + depth) site f args) := hcall f args trivial (fun _ _ => trivial) site
    rwa [Nat.zero_add] at h

theorem eval_deepening (site : Site) (scope : Scope) (form : Form) :
    Run.Deepening fun depth => eval depth site scope form :=
  Run.deepening_of_refined fun depth more => (refined_of_depth depth more).1 site scope form

theorem evalItems_deepening (site : Site) (scope : Scope) (i : Nat) (forms : List Form) :
    Run.Deepening fun depth => evalItems (eval depth) site scope i forms := by
  induction forms generalizing i with
  | nil => exact .const _
  | cons f fs ih =>
    simp only [evalItems]
    exact (eval_deepening _ scope f).bind fun v => (ih (i + 1)).bind fun vs => .const _

theorem evalSteps_deepening (scope : Scope) (t : Threading) (acc : Value) (steps : List (Form × Site)) :
    Run.Deepening fun depth => evalSteps (eval depth) scope t acc steps := by
  induction steps generalizing acc with
  | nil => exact .const _
  | cons p rest ih =>
    obtain ⟨step, site⟩ := p
    simp only [evalSteps]
    split
    · exact .const _
    · exact (eval_deepening site scope _).bind ih

/-! ## What a form comes to -/

/-- A form that evaluates to a result, with some effect, if evaluation may nest deeply enough. -/
def Form.Reaches (form : Form) (site : Site) (scope : Scope) (s : Effects) (r : Except (Stop Thrown) Value)
    (t : Effects) : Prop := Run.Reaches (fun depth => eval depth site scope form) s r t

/-- A form that evaluates to an outcome, with some effect, if evaluation may nest deeply enough. -/
def Form.Yields (form : Form) (site : Site) (scope : Scope) (s : Effects) (o : Outcome) (t : Effects) : Prop :=
  form.Reaches site scope s (o.mapError .thrown) t

/-- Forms that reach the same results evaluate alike, unless one of them nests too deeply. -/
theorem Form.evalAt_eq_of_reaches {form other : Form} {site : Site} {scope : Scope} {s : Effects}
    (h : ∀ r t, form.Reaches site scope s r t → other.Reaches site scope s r t)
    (hform : Run.Ended (form.evalAt site scope s).1) (hother : Run.Ended (other.evalAt site scope s).1) :
    form.evalAt site scope s = other.evalAt site scope s := by
  have hreaches := h _ _ ⟨hform, nestingLimit, rfl⟩
  obtain ⟨hr, ht⟩ := (eval_deepening site scope other).reaches_unique hreaches ⟨hother, nestingLimit, rfl⟩
  exact Prod.ext hr ht

end Attest
