import Attest.Binding
import Attest.Proofs.Within
/-!
# Reading patterns

What a form must be for a pattern to be read from it (`Binding.parse_eq_ok`), and what the part in front must
be for the rest of a pattern to be read, by position (`Binding.parseSeq_eq_ok`) and by key
(`Binding.parseMap_eq_ok`).
-/

namespace Attest

theorem symbols?_eq_some {forms : List Form} {names : List String} (h : symbols? forms = some names) :
    forms = names.map .sym := by
  unfold symbols? at h
  induction forms generalizing names with
  | nil =>
    cases h
    rfl
  | cons f fs ih =>
    rw [List.mapM_cons] at h
    obtain ⟨n, hn, h⟩ := Option.bind_eq_some_iff.1 h
    obtain ⟨ns, hns, h⟩ := Option.bind_eq_some_iff.1 h
    cases h
    cases f with
    | sym m =>
      cases hn
      rw [List.map_cons, ← ih hns]
    | _ => cases hn

namespace Binding

/-- A pattern is read from a name, a vector or a map. -/
theorem parse_eq_ok {form : Form} {b : Binding} (h : parse form = .ok b) :
    (∃ n, form = .sym n ∧ n ≠ "&" ∧ b = .name n) ∨
    (∃ items d, form = .vector items ∧ parseSeq items items {} = .ok d ∧ b = .seq d.items.reverse d.rest d.whole) ∨
    ∃ entries d, form = .map entries ∧ parseMap entries entries {} = .ok d ∧ b = .map d.entries.reverse d.whole := by
  cases form with
  | sym n =>
    rw [parse] at h
    split at h
    · cases h
    · next hn =>
      cases h
      exact .inl ⟨n, rfl, fun heq => hn (beq_iff_eq.2 heq), rfl⟩
  | vector items =>
    rw [parse] at h
    obtain ⟨d, hd, h⟩ := exists_of_bind_ok h
    cases h
    exact .inr (.inl ⟨items, d, rfl, hd, rfl⟩)
  | map entries =>
    rw [parse] at h
    obtain ⟨d, hd, h⟩ := exists_of_bind_ok h
    cases h
    exact .inr (.inr ⟨entries, d, rfl, hd, rfl⟩)
  | lit v => simp [parse] at h
  | list items => simp [parse] at h

/-- An item that is not a mark is a pattern for the next position, unless the rest was marked before. -/
theorem parseSeq_of_ne {whole : List Form} {item : Form} (hmark : item ≠ .sym "&")
    (hwhole : item ≠ .lit (.keyword "as")) (more : List Form) (d : SeqDraft) :
    parseSeq whole (item :: more) d =
      if d.rest.isSome then .error ⟨.vector whole, .itemAfterRest⟩
      else parse item >>= fun b => parseSeq whole more { d with items := b :: d.items } := by
  cases item with
  | sym n =>
    have hn : ¬(n == "&") = true := fun h => hmark (by rw [beq_iff_eq.1 h])
    cases more <;> simp only [parseSeq, parse, if_neg hn] <;> rfl
  | lit v =>
    rw [parseSeq]
    · nofun
    · exact hwhole
  | list items => simp only [parseSeq]
  | vector items => simp only [parseSeq]
  | map entries => simp only [parseSeq]

theorem parseSeq_item {whole : List Form} {item : Form} {b : Binding} (hb : parse item = .ok b) (more : List Form)
    {d : SeqDraft} (hd : d.rest = none) :
    parseSeq whole (item :: more) d = parseSeq whole more { d with items := b :: d.items } := by
  have hmark : item ≠ .sym "&" := by
    rintro rfl
    simp [parse] at hb
  have hwhole : item ≠ .lit (.keyword "as") := by
    rintro rfl
    simp [parse] at hb
  rw [parseSeq_of_ne hmark hwhole, hd, hb]
  rfl

/-- The next item of a pattern by position: the mark of the rest and a pattern for it, the mark of the whole and
a name for it, or, in front of the rest, a pattern for a position. -/
theorem parseSeq_eq_ok {whole : List Form} {item : Form} {more : List Form} {d d' : SeqDraft}
    (h : parseSeq whole (item :: more) d = .ok d') :
    (∃ target more' b, item = .sym "&" ∧ more = target :: more' ∧ parse target = .ok b ∧
      parseSeq whole more' { d with rest := some b } = .ok d') ∨
    (∃ n more', item = .lit (.keyword "as") ∧ more = .sym n :: more' ∧
      parseSeq whole more' { d with whole := some n } = .ok d') ∨
    d.rest = none ∧ ∃ b, parse item = .ok b ∧ parseSeq whole more { d with items := b :: d.items } = .ok d' := by
  by_cases hmark : item = .sym "&"
  · subst hmark
    cases more with
    | nil => simp [parseSeq] at h
    | cons target more' =>
      simp only [parseSeq, beq_self_eq_true, if_true] at h
      obtain ⟨b, hb, h⟩ := exists_of_bind_ok h
      exact .inl ⟨target, more', b, rfl, rfl, hb, h⟩
  by_cases hwhole : item = .lit (.keyword "as")
  · subst hwhole
    by_cases hname : ∃ n more', more = .sym n :: more'
    · obtain ⟨n, more', rfl⟩ := hname
      rw [parseSeq] at h
      exact .inr (.inl ⟨n, more', rfl, rfl, h⟩)
    · rw [parseSeq] at h
      · cases h
      · exact fun n more' heq => hname ⟨n, more', heq⟩
  rw [parseSeq_of_ne hmark hwhole] at h
  cases hrest : d.rest with
  | some b =>
    rw [hrest] at h
    cases h
  | none =>
    rw [hrest] at h
    obtain ⟨b, hb, h⟩ := exists_of_bind_ok h
    exact .inr (.inr ⟨rfl, b, hb, hrest ▸ h⟩)

/-- The next entry of a pattern by key: a mark with names, the mark of the whole with a name for it, or a pattern
with a literal key. -/
theorem parseMap_eq_ok {whole : List (Form × Form)} {target value : Form} {more : List (Form × Form)}
    {d d' : MapDraft} (h : parseMap whole ((target, value) :: more) d = .ok d') :
    (∃ (mark : String) (names : List String) (key : String → Value),
      target = .lit (.keyword mark) ∧ value = .vector (names.map .sym) ∧
      parseMap whole more { d with entries := (names.map fun n => (.name n, key n)).reverse ++ d.entries } = .ok d') ∨
    (∃ n, target = .lit (.keyword "as") ∧ value = .sym n ∧
      parseMap whole more { d with whole := some n } = .ok d') ∨
    ∃ key b, value = .lit key ∧ parse target = .ok b ∧
      parseMap whole more { d with entries := (b, key) :: d.entries } = .ok d' := by
  unfold parseMap at h
  split at h
  · split at h
    · next names ns hns =>
      exact .inl ⟨_, ns, _, rfl, by rw [symbols?_eq_some hns], h⟩
    · cases h
  · split at h
    · next names ns hns =>
      exact .inl ⟨_, ns, _, rfl, by rw [symbols?_eq_some hns], h⟩
    · cases h
  · exact .inr (.inl ⟨_, rfl, rfl, h⟩)
  · obtain ⟨b, hb, h⟩ := exists_of_bind_ok h
    exact .inr (.inr ⟨_, b, rfl, hb, h⟩)
  · cases h

end Binding

end Attest
