import Attest.Proofs.Preorder
import Mathlib.Tactic.TFAE
/-!
# Classes of errors and their names

Classes of errors are the same when they have the same name, but what a class is goes by the names above
it, and two classes of one name can stand below different ones. In a hierarchy, that is, among classes with all
classes above them, it comes to the same whether the name of a class decides what stands above it, whether a class
may take the place of one that is the same, whether `isA` is transitive, and whether equal errors are instances of
the same classes (`ErrorClass.isA_laws`).
-/

namespace Attest

/-- Classes of errors, with all classes above them. -/
structure Hierarchy where
  Declares : ErrorClass → Prop
  parent : ∀ {name parent}, Declares (.sub name parent) → Declares parent

namespace ErrorClass

/-! ## What holds of all classes -/

theorem same_iff {a b : ErrorClass} : a.same b = true ↔ a.name = b.name := beq_iff_eq

theorem isA_self (a : ErrorClass) : a.isA a = true := by
  cases a <;> simp [isA, name]

theorem isA_parent (n : String) (p : ErrorClass) : (sub n p).isA p = true := by
  simp [isA, isA_self]

theorem isA_root (a : ErrorClass) : a.isA root = true := by
  induction a with
  | root => rfl
  | sub n p ih => simp [isA, ih]

/-- Only the name of the other class counts. -/
theorem isA_congr_right (a : ErrorClass) {b b' : ErrorClass} (h : b.same b' = true) : a.isA b = a.isA b' := by
  rw [Bool.eq_iff_iff, isA_iff_mem_lineage, isA_iff_mem_lineage, same_iff.1 h]

/-- The names of a class and of the classes above it. A class right below one of its own name adds none. -/
def ancestry : ErrorClass → List String
  | root => ["Error"]
  | sub name parent => if name = parent.name then parent.ancestry else name :: parent.ancestry

theorem ancestry_of_eq_name {n : String} {p : ErrorClass} (h : n = p.name) : (sub n p).ancestry = p.ancestry := if_pos h

theorem ancestry_of_ne_name {n : String} {p : ErrorClass} (h : n ≠ p.name) :
    (sub n p).ancestry = n :: p.ancestry := if_neg h

theorem name_mem_ancestry (a : ErrorClass) : a.name ∈ a.ancestry := by
  induction a with
  | root => exact List.mem_cons_self
  | sub n p ih =>
    by_cases h : n = p.name
    · rwa [ancestry_of_eq_name h, name, h]
    · rw [ancestry_of_ne_name h]
      exact List.mem_cons_self

theorem isA_iff_mem_ancestry {a b : ErrorClass} : a.isA b = true ↔ b.name ∈ a.ancestry := by
  induction a with
  | root => simp [isA, ancestry]
  | sub n p ih =>
    rw [isA, Bool.or_eq_true, beq_iff_eq, ih]
    by_cases h : n = p.name
    · rw [ancestry_of_eq_name h, or_iff_right_of_imp]
      intro hb
      rw [hb, h]
      exact p.name_mem_ancestry
    · rw [ancestry_of_ne_name h, List.mem_cons]

end ErrorClass

namespace Hierarchy

variable (H : Hierarchy)

/-- Whether a class of values is none of errors, or one of these. -/
def Includes : Class → Prop
  | .error c => H.Declares c
  | _ => True

/-- The name of a class decides what stands above it. -/
def Determined : Prop :=
  ∀ a b, H.Declares a → H.Declares b → a.same b = true → a.ancestry = b.ancestry

/-- A class is what a class that is the same is. -/
def Congruent : Prop :=
  ∀ a a' b, H.Declares a → H.Declares a' → H.Declares b → a.same a' = true → a.isA b = a'.isA b

/-- A class is what the classes are that it is. -/
def Transitive : Prop :=
  ∀ a b c, H.Declares a → H.Declares b → H.Declares c → a.isA b = true → b.isA c = true → a.isA c = true

/-- Equal errors are instances of the same classes. -/
def SharesInstances : Prop :=
  ∀ t t' : Thrown, H.Declares t.errorClass → H.Declares t'.errorClass → (Value.error t == .error t') = true →
    ∀ c, H.Includes c → c.isInstance (.error t) = c.isInstance (.error t')

/-- Classes each of which is the other are the same. -/
def Antisymmetric : Prop :=
  ∀ a b, H.Declares a → H.Declares b → a.isA b = true → b.isA a = true → a.same b = true

variable {H}

/-- A class that is another one is all that some class with the name of the other is. -/
theorem exists_above {a b : ErrorClass} (ha : H.Declares a) (h : a.isA b = true) :
    ∃ b', H.Declares b' ∧ b'.same b = true ∧ ∀ c, b'.isA c = true → a.isA c = true := by
  induction a with
  | root =>
    refine ⟨.root, ha, ?_, fun _ hc => hc⟩
    rw [ErrorClass.isA, beq_iff_eq] at h
    exact ErrorClass.same_iff.2 h.symm
  | sub n p ih =>
    rw [ErrorClass.isA, Bool.or_eq_true, beq_iff_eq] at h
    rcases h with h | h
    · exact ⟨.sub n p, ha, ErrorClass.same_iff.2 h.symm, fun _ hc => hc⟩
    · obtain ⟨b', hb', hsame, hup⟩ := ih (H.parent ha) h
      refine ⟨b', hb', hsame, fun c hc => ?_⟩
      rw [ErrorClass.isA, hup c hc, Bool.or_true]

/-! ## The laws imply one another -/

theorem Determined.congruent (h : H.Determined) : H.Congruent := by
  intro a a' b ha ha' _ hsame
  rw [Bool.eq_iff_iff, ErrorClass.isA_iff_mem_ancestry, ErrorClass.isA_iff_mem_ancestry, h a a' ha ha' hsame]

theorem Congruent.transitive (h : H.Congruent) : H.Transitive := by
  intro a b c ha hb hc hab hbc
  obtain ⟨b', hb', hsame, hup⟩ := exists_above ha hab
  apply hup
  rwa [h b' b c hb' hb hc hsame]

/-- Otherwise one could go up from the lower class for ever. -/
theorem Transitive.antisymmetric (h : H.Transitive) : H.Antisymmetric := by
  intro a b ha hb hab hba
  induction a generalizing b with
  | root =>
    rw [ErrorClass.isA, beq_iff_eq] at hab
    exact ErrorClass.same_iff.2 hab.symm
  | sub n p ih =>
    have hp := H.parent ha
    have hup : (ErrorClass.sub n p).isA p = true := ErrorClass.isA_parent n p
    have hcases := hab
    rw [ErrorClass.isA, Bool.or_eq_true, beq_iff_eq] at hcases
    rcases hcases with hname | hpb
    · exact ErrorClass.same_iff.2 hname.symm
    -- The class above is both of them, and both are it, so it bears the names of both.
    · have hpa : p.isA (.sub n p) = true := h p b _ hp hb ha hpb hba
      have hbp : b.isA p = true := h b _ p hb ha hp hba hup
      have hself := ErrorClass.same_iff.1 (ih (.sub n p) hp ha hpa hup)
      have hother := ErrorClass.same_iff.1 (ih b hp hb hpb hbp)
      exact ErrorClass.same_iff.2 (hself.symm.trans hother)

theorem Transitive.congruent (h : H.Transitive) : H.Congruent := by
  intro a a' b ha ha' hb hsame
  have hleft : a.isA a' = true := by rw [← a.isA_congr_right hsame, a.isA_self]
  have hright : a'.isA a = true := by rw [a'.isA_congr_right hsame, a'.isA_self]
  rw [Bool.eq_iff_iff]
  exact ⟨h a' a b ha' ha hb hright, h a a' b ha ha' hb hleft⟩

/-- Where a class adds its name to those above it, another class of its name stands below these as well. -/
theorem Congruent.isA_of_same_name (h : H.Congruent) {n : String} {p p' : ErrorClass} (ha : H.Declares (.sub n p))
    (ha' : H.Declares (.sub n p')) (hn : n ≠ p.name) : p'.isA p = true := by
  have hup := ErrorClass.isA_parent n p
  rw [h _ (.sub n p') p ha ha' (H.parent ha) (ErrorClass.same_iff.2 rfl), ErrorClass.isA, Bool.or_eq_true,
    beq_iff_eq] at hup
  exact hup.resolve_left hn.symm

/-- Classes of one name, each below a class of another name, stand below classes of one name. -/
theorem Transitive.same_parent (h : H.Transitive) {n : String} {p p' : ErrorClass} (ha : H.Declares (.sub n p))
    (ha' : H.Declares (.sub n p')) (hn : n ≠ p.name) (hn' : n ≠ p'.name) : p.same p' = true := by
  have hp : p'.isA p = true := h.congruent.isA_of_same_name ha ha' hn
  have hp' : p.isA p' = true := h.congruent.isA_of_same_name ha' ha hn'
  exact h.antisymmetric p p' (H.parent ha) (H.parent ha') hp' hp

/-- Nothing but the root stands above a class that bears its name. -/
theorem Congruent.parent_of_root (h : H.Congruent) {n : String} {p : ErrorClass} (ha : H.Declares (.sub n p))
    (hroot : H.Declares .root) (hn : n = "Error") : n = p.name := by
  have hup := ErrorClass.isA_parent n p
  rw [h _ .root p ha hroot (H.parent ha) (ErrorClass.same_iff.2 hn), ErrorClass.isA, beq_iff_eq] at hup
  rw [hn, hup]

theorem Transitive.determined (h : H.Transitive) : H.Determined := by
  intro a b ha hb hsame
  induction a generalizing b with
  | root =>
    induction b with
    | root => rfl
    | sub n p ih =>
      have hn := h.congruent.parent_of_root hb ha (ErrorClass.same_iff.1 hsame).symm
      rw [ErrorClass.ancestry_of_eq_name hn]
      refine ih (H.parent hb) (ErrorClass.same_iff.2 ?_)
      exact (ErrorClass.same_iff.1 hsame).trans hn
  | sub n p ihp =>
    by_cases hn : n = p.name
    · -- The class adds no name to those above it.
      rw [ErrorClass.ancestry_of_eq_name hn]
      refine ihp b (H.parent ha) hb (ErrorClass.same_iff.2 ?_)
      exact hn.symm.trans (ErrorClass.same_iff.1 hsame)
    induction b with
    | root => exact absurd (h.congruent.parent_of_root ha hb (ErrorClass.same_iff.1 hsame)) hn
    | sub m q ihq =>
      obtain rfl : n = m := ErrorClass.same_iff.1 hsame
      by_cases hm : n = q.name
      · rw [ErrorClass.ancestry_of_eq_name hm]
        exact ihq (H.parent hb) (ErrorClass.same_iff.2 hm)
      · rw [ErrorClass.ancestry_of_ne_name hn, ErrorClass.ancestry_of_ne_name hm]
        exact congrArg (n :: ·) (ihp q (H.parent ha) (H.parent hb) (h.same_parent ha hb hn hm))

/-! ## Instances -/

/-- Equal errors are of classes that are the same. -/
theorem same_of_beq {t t' : Thrown} (h : (Value.error t == .error t') = true) :
    t.errorClass.same t'.errorClass = true := by
  obtain ⟨c, m, d⟩ := t
  obtain ⟨c', m', d'⟩ := t'
  rw [Value.beq_iff, Value.compare, Thrown.compare, Ordering.then_eq_eq] at h
  exact ErrorClass.same_iff.2 (Std.LawfulEqOrd.eq_of_compare h.1)

/-- Errors that differ in their classes alone are equal when these are the same. -/
theorem beq_of_same {c c' : ErrorClass} (h : c.same c' = true) (message : String) :
    (Value.error ⟨c, message, none⟩ == .error ⟨c', message, none⟩) = true := by
  rw [Value.beq_iff, Value.compare, Thrown.compare, ErrorClass.same_iff.1 h, Std.ReflOrd.compare_self,
    Std.ReflOrd.compare_self, compareData]
  rfl

theorem Congruent.sharesInstances (h : H.Congruent) : H.SharesInstances := by
  intro t t' ht ht' heq c hc
  cases c with
  | error c => exact h _ _ c ht ht' hc (same_of_beq heq)
  | _ => rfl

theorem SharesInstances.congruent (h : H.SharesInstances) : H.Congruent := by
  intro a a' b ha ha' hb hsame
  exact h ⟨a, "", none⟩ ⟨a', "", none⟩ ha ha' (beq_of_same hsame "") (.error b) hb

end Hierarchy

namespace ErrorClass

/-- Every class is itself and the root, and is what another class is called. The other laws of a hierarchy hold
all together or not at all, and do when the name of a class decides what stands above it; then classes each
of which is the other are the same. -/
theorem isA_laws (H : Hierarchy) :
    (∀ a : ErrorClass, a.isA a = true) ∧ (∀ a : ErrorClass, a.isA root = true) ∧
    (∀ a b b' : ErrorClass, b.same b' = true → a.isA b = a.isA b') ∧
    [H.Determined, H.Congruent, H.Transitive, H.SharesInstances].TFAE ∧ (H.Determined → H.Antisymmetric) := by
  refine ⟨isA_self, isA_root, fun a _ _ => a.isA_congr_right, ?_, fun h => h.congruent.transitive.antisymmetric⟩
  tfae_have 1 → 2 := Hierarchy.Determined.congruent
  tfae_have 2 → 3 := Hierarchy.Congruent.transitive
  tfae_have 3 → 1 := Hierarchy.Transitive.determined
  tfae_have 2 → 4 := Hierarchy.Congruent.sharesInstances
  tfae_have 4 → 2 := Hierarchy.SharesInstances.congruent
  tfae_finish

/-- Some classes of the standard library and one below them. -/
def someClasses : Hierarchy where
  Declares c := c ∈ [sub "ParseError" argument, argument, arithmetic, root]
  parent h := by
    simp only [List.mem_cons, List.not_mem_nil, or_false, argument, arithmetic, sub.injEq, reduceCtorEq] at h ⊢
    rcases h with ⟨-, rfl⟩ | ⟨-, rfl⟩ | ⟨-, rfl⟩ <;> simp

theorem isA_laws_someClasses : someClasses.Determined ∧ someClasses.Congruent ∧ someClasses.Transitive ∧
    someClasses.SharesInstances ∧ someClasses.Antisymmetric := by
  obtain ⟨-, -, -, hlaws, hanti⟩ := isA_laws someClasses
  have hdetermined : someClasses.Determined := by
    have hall : ∀ a ∈ [sub "ParseError" argument, argument, arithmetic, root],
        ∀ b ∈ [sub "ParseError" argument, argument, arithmetic, root],
          a.same b = true → a.ancestry = b.ancestry := by decide
    exact fun a b ha hb => hall a ha b hb
  exact ⟨hdetermined, (hlaws.out 0 1).1 hdetermined, (hlaws.out 0 2).1 hdetermined, (hlaws.out 0 3).1 hdetermined,
    hanti hdetermined⟩

/-- Two classes of one name, one of them below `P`, are the same, and each is the other, but only one of them is a
`P`; so of two equal errors of these classes only one is an instance of `P`. Of two names that stand above each
other each is the other, though they are not the same. -/
theorem same_but_not_isA :
    let p := sub "P" root
    let a := sub "X" p
    let a' := sub "X" root
    let c := sub "A" (sub "B" root)
    let d := sub "B" (sub "A" root)
    (a.same a' = true ∧ a'.isA a = true ∧ a.isA p = true ∧ a'.isA p = false) ∧
      ((Value.error ⟨a, "m", none⟩ == .error ⟨a', "m", none⟩) = true ∧
        (Class.error p).isInstance (.error ⟨a, "m", none⟩) = true ∧
        (Class.error p).isInstance (.error ⟨a', "m", none⟩) = false) ∧
      c.isA d = true ∧ d.isA c = true ∧ c.same d = false := by
  refine ⟨by decide, ⟨Hierarchy.beq_of_same (by decide) "m", by decide, by decide⟩, by decide⟩

end ErrorClass

end Attest
