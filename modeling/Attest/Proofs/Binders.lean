import Attest.Proofs.Destructuring
import Attest.Proofs.Patterns
import Attest.Value.Nodes
import Mathlib.Data.List.Perm.Subperm
/-!
# The names written in a pattern

The names that a pattern binds are written in it (`Form.binders`), but not all that are written there are bound,
nor in the order of writing: a second `&` or `:as` of a vector, and a second `:as` of a map, replaces what the first
one marked, and the name for the whole is bound last wherever it stands (`Binding.binder_lost`). Where each mark
stands once at most, all names are bound, and where `:as` also stands last, in the order of writing
(`Binding.names_of_parse`).
-/

namespace Attest

/-! ## What is written -/

/-- The names among several forms. -/
def namesAmong (forms : List Form) : List String :=
  forms.filterMap fun
    | .sym n => some n
    | _ => none

mutual

/-- The names written in a pattern from left to right: all but the marks `&`. -/
def Form.binders : Form → List String
  | .sym n => [n]
  | .vector items => bindersOf items
  | .map entries => bindersOfEntries entries
  | .lit _ | .list _ => []

/-- The names written in a pattern by position. Behind `:as`, any name is one. -/
def bindersOf : List Form → List String
  | [] => []
  | .sym n :: more => if n = "&" then bindersOf more else n :: bindersOf more
  | .lit (.keyword "as") :: .sym n :: more => n :: bindersOf more
  | item :: more => item.binders ++ bindersOf more

/-- The names written in a pattern by key. A vector behind a mark has nothing but names. -/
def bindersOfEntries : List (Form × Form) → List String
  | [] => []
  | (.lit _, .vector names) :: more => namesAmong names ++ bindersOfEntries more
  | (target, value) :: more => target.binders ++ value.binders ++ bindersOfEntries more

end

mutual

/-- A pattern in which each mark stands once at most in its vector or map, and `:as` only at the end if that is
what is asked for. -/
def Form.Orderly (last : Prop) : Form → Prop
  | .vector items => orderlyItems last false false items
  | .map entries => orderlyEntries last false entries
  | _ => True

/-- The items of such a vector behind others, with or without marks of the rest and of the whole. -/
def orderlyItems (last : Prop) (rest whole : Bool) : List Form → Prop
  | [] => True
  | .sym n :: more =>
    if n = "&" then rest = false ∧ orderlyItems last true whole more else orderlyItems last rest whole more
  | .lit (.keyword "as") :: .sym _ :: more =>
    whole = false ∧ (last → more = []) ∧ orderlyItems last rest true more
  | item :: more => item.Orderly last ∧ orderlyItems last rest whole more

/-- The entries of such a map behind others, with or without a mark of the whole. -/
def orderlyEntries (last : Prop) (whole : Bool) : List (Form × Form) → Prop
  | [] => True
  | (.lit (.keyword "as"), .sym _) :: more =>
    whole = false ∧ (last → more = []) ∧ orderlyEntries last true more
  | (target, _) :: more => target.Orderly last ∧ orderlyEntries last whole more

end

namespace Binding

/-! ## What the parts of a pattern contribute -/

section Parts

variable {form : Form} {b : Binding} {last : Prop} {rest whole : Bool}

theorem bindersOf_mark (more : List Form) : bindersOf (.sym "&" :: more) = bindersOf more := by
  cases more <;> simp [bindersOf]

theorem bindersOf_whole (n : String) (more : List Form) :
    bindersOf (.lit (.keyword "as") :: .sym n :: more) = n :: bindersOf more := by
  rw [bindersOf]

theorem bindersOf_item (hb : parse form = .ok b) (more : List Form) :
    bindersOf (form :: more) = form.binders ++ bindersOf more := by
  rcases parse_eq_ok hb with ⟨n, rfl, hn, rfl⟩ | ⟨items, -, rfl, -⟩ | ⟨entries, -, rfl, -⟩
  · cases more <;> simp [bindersOf, Form.binders, hn]
  · simp [bindersOf]
  · simp [bindersOf]

theorem orderlyItems_mark (more : List Form) :
    orderlyItems last rest whole (.sym "&" :: more) ↔ rest = false ∧ orderlyItems last true whole more := by
  cases more <;> simp [orderlyItems]

theorem orderlyItems_whole (n : String) (more : List Form) :
    orderlyItems last rest whole (.lit (.keyword "as") :: .sym n :: more) ↔
      whole = false ∧ (last → more = []) ∧ orderlyItems last rest true more := by
  rw [orderlyItems]

theorem orderlyItems_item (hb : parse form = .ok b) (more : List Form) :
    orderlyItems last rest whole (form :: more) ↔ form.Orderly last ∧ orderlyItems last rest whole more := by
  rcases parse_eq_ok hb with ⟨n, rfl, hn, rfl⟩ | ⟨items, -, rfl, -⟩ | ⟨entries, -, rfl, -⟩
  · cases more <;> simp [orderlyItems, Form.Orderly, hn]
  · simp [orderlyItems]
  · simp [orderlyItems]

end Parts

section Entries

variable {names : List String} {mark : String} {last : Prop} {whole : Bool}

theorem namesAmong_syms (names : List String) : namesAmong (names.map .sym) = names := by
  simp [namesAmong, List.filterMap_map]

theorem orderlyEntries_mark (names : List Form) (more : List (Form × Form)) :
    orderlyEntries last whole ((.lit (.keyword mark), .vector names) :: more) ↔ orderlyEntries last whole more := by
  simp [orderlyEntries, Form.Orderly]

theorem orderlyEntries_whole (n : String) (more : List (Form × Form)) :
    orderlyEntries last whole ((.lit (.keyword "as"), .sym n) :: more) ↔
      whole = false ∧ (last → more = []) ∧ orderlyEntries last true more := by
  rw [orderlyEntries]

theorem bindersOfEntries_key (target : Form) (key : Value) (more : List (Form × Form)) :
    bindersOfEntries ((target, .lit key) :: more) = target.binders ++ bindersOfEntries more := by
  cases target <;> simp [bindersOfEntries, Form.binders]

theorem orderlyEntries_key (target : Form) (key : Value) (more : List (Form × Form)) :
    orderlyEntries last whole ((target, .lit key) :: more) ↔
      target.Orderly last ∧ orderlyEntries last whole more := by
  rw [orderlyEntries]
  nofun

theorem bindersOfEntries_whole (n : String) (more : List (Form × Form)) :
    bindersOfEntries ((.lit (.keyword mark), .sym n) :: more) = n :: bindersOfEntries more := by
  simp [bindersOfEntries, Form.binders]

end Entries

/-! ## What is bound of it -/

theorem namesOfItems_append (as bs : List Binding) :
    namesOfItems (as ++ bs) = namesOfItems as ++ namesOfItems bs := by
  induction as with
  | nil => rfl
  | cons a as ih => simp only [List.cons_append, namesOfItems, ih, List.append_assoc]

theorem namesOfEntries_append (as bs : List (Binding × Value)) :
    namesOfEntries (as ++ bs) = namesOfEntries as ++ namesOfEntries bs := by
  induction as with
  | nil => rfl
  | cons a as ih => simp only [List.cons_append, namesOfEntries, ih, List.append_assoc]

theorem namesOfEntries_syms (names : List String) (key : String → Value) :
    namesOfEntries (names.map fun n => (.name n, key n)) = names := by
  induction names with
  | nil => rfl
  | cons n names ih => simp only [List.map_cons, namesOfEntries, Binding.names, ih, List.singleton_append]

/-- The names that the parts of a positional pattern read so far bind. -/
def namesOfSeq (d : SeqDraft) : List String :=
  namesOfItems d.items.reverse ++ namesOfRest d.rest ++ d.whole.toList

/-- The names that the entries of a pattern by key read so far bind. -/
def namesOfMap (d : MapDraft) : List String :=
  namesOfEntries d.entries.reverse ++ d.whole.toList

/-- No name is listed that is not written; under one condition, none that is written is missing, and under
another the order is that of writing. -/
structure Listed (names written : List String) (once ordered : Prop) : Prop where
  count_le : ∀ x, names.count x ≤ written.count x
  count_eq : once → ∀ x, names.count x = written.count x
  eq : ordered → names = written

namespace Listed

variable {names names' written written' : List String} {once once' ordered ordered' : Prop}

theorem refl (names : List String) (once ordered : Prop) : Listed names names once ordered :=
  ⟨fun _ => Nat.le_refl _, fun _ _ => rfl, fun _ => rfl⟩

theorem imp (h : Listed names written once ordered) (honce : once' → once) (hordered : ordered' → ordered) :
    Listed names written once' ordered' :=
  ⟨h.count_le, fun ho => h.count_eq (honce ho), fun ho => h.eq (hordered ho)⟩

theorem trans (h : Listed names names' once ordered) (h' : Listed names' written once' ordered') :
    Listed names written (once ∧ once') (ordered ∧ ordered') :=
  ⟨fun x => Nat.le_trans (h.count_le x) (h'.count_le x), fun ho x => (h.count_eq ho.1 x).trans (h'.count_eq ho.2 x),
    fun ho => (h.eq ho.1).trans (h'.eq ho.2)⟩

/-- Names that are listed take the place of old ones and come before others. -/
theorem replace (h : Listed names written once ordered) (front old back more : List String) :
    Listed (front ++ names ++ back ++ more) (front ++ old ++ back ++ (written ++ more))
      (old = [] ∧ once) (old = [] ∧ back = [] ∧ ordered) := by
  refine ⟨fun x => ?_, fun ⟨hold, honce⟩ x => ?_, fun ⟨hold, hback, hordered⟩ => ?_⟩
  · have := h.count_le x
    simp only [List.count_append]
    omega
  · have := h.count_eq honce x
    simp only [hold, List.count_append, List.count_nil]
    omega
  · rw [hold, hback, h.eq hordered]
    simp only [List.append_nil, List.append_assoc]

theorem subperm (h : Listed names written once ordered) : names.Subperm written :=
  List.subperm_ext_iff.2 fun x _ => h.count_le x

theorem perm (h : Listed names written once ordered) (honce : once) : names.Perm written :=
  List.perm_iff_count.2 (h.count_eq honce)

end Listed

section Drafts

variable {b : Binding} {written : List String} {once ordered : Prop}

/-- A mark of the rest takes the place of one before, and its names come before the name for the whole. -/
theorem listed_rest (h : Listed b.names written once ordered) (d : SeqDraft) (more : List String) :
    Listed (namesOfSeq { d with rest := some b } ++ more) (namesOfSeq d ++ (written ++ more))
      (d.rest = none ∧ once) (d.rest = none ∧ d.whole = none ∧ ordered) :=
  (h.replace (namesOfItems d.items.reverse) (namesOfRest d.rest) d.whole.toList more).imp
    (fun ⟨hrest, ho⟩ => ⟨by rw [hrest, namesOfRest], ho⟩)
    (fun ⟨hrest, hwhole, ho⟩ => ⟨by rw [hrest, namesOfRest], by rw [hwhole, Option.toList_none], ho⟩)

/-- A mark of the whole takes the place of one before. -/
theorem listed_whole (n : String) (d : SeqDraft) (more : List String) :
    Listed (namesOfSeq { d with whole := some n } ++ more) (namesOfSeq d ++ n :: more)
      (d.whole = none) (d.whole = none) := by
  have h := (Listed.refl [n] True True).replace (namesOfItems d.items.reverse ++ namesOfRest d.rest)
    d.whole.toList [] more
  simp only [List.append_nil, List.singleton_append] at h
  exact h.imp (fun hwhole => ⟨by rw [hwhole, Option.toList_none], trivial⟩)
    (fun hwhole => ⟨by rw [hwhole, Option.toList_none], trivial, trivial⟩)

/-- The names of a pattern for a position come before the name for the whole. -/
theorem listed_item (h : Listed b.names written once ordered) {d : SeqDraft} (hrest : d.rest = none)
    (more : List String) :
    Listed (namesOfSeq { d with items := b :: d.items } ++ more) (namesOfSeq d ++ (written ++ more))
      once (d.whole = none ∧ ordered) := by
  have h := h.replace (namesOfItems d.items.reverse) [] d.whole.toList more
  simp only [namesOfSeq, namesOfRest, namesOfItems, namesOfItems_append, hrest, List.reverse_cons,
    List.append_nil] at h ⊢
  exact h.imp (fun ho => ⟨trivial, ho⟩) (fun ⟨hwhole, ho⟩ => ⟨trivial, by rw [hwhole, Option.toList_none], ho⟩)

/-- The names of entries come before the name for the whole. -/
theorem listed_entries {entries : List (Binding × Value)} (h : Listed (namesOfEntries entries) written once ordered)
    (d : MapDraft) (more : List String) :
    Listed (namesOfMap { d with entries := entries.reverse ++ d.entries } ++ more) (namesOfMap d ++ (written ++ more))
      once (d.whole = none ∧ ordered) := by
  have h := h.replace (namesOfEntries d.entries.reverse) [] d.whole.toList more
  simp only [namesOfMap, namesOfEntries_append, List.reverse_append, List.reverse_reverse, List.append_nil] at h ⊢
  exact h.imp (fun ho => ⟨trivial, ho⟩) (fun ⟨hwhole, ho⟩ => ⟨trivial, by rw [hwhole, Option.toList_none], ho⟩)

/-- A mark of the whole takes the place of one before. -/
theorem listed_wholeOfMap (n : String) (d : MapDraft) (more : List String) :
    Listed (namesOfMap { d with whole := some n } ++ more) (namesOfMap d ++ n :: more)
      (d.whole = none) (d.whole = none) := by
  have h := (Listed.refl [n] True True).replace (namesOfEntries d.entries.reverse) d.whole.toList [] more
  simp only [List.append_nil, List.singleton_append] at h
  exact h.imp (fun hwhole => ⟨by rw [hwhole, Option.toList_none], trivial⟩)
    (fun hwhole => ⟨by rw [hwhole, Option.toList_none], trivial, trivial⟩)

end Drafts

/-- What the rest of a positional pattern adds to what is read of it. A second mark of the rest or of the whole
takes the place of the first. -/
theorem listed_of_parseSeq {whole items : List Form} {d d' : SeqDraft}
    (hforms : ∀ form ∈ items, ∀ b, parse form = .ok b →
      Listed b.names form.binders (form.Orderly False) (form.Orderly True))
    (h : parseSeq whole items d = .ok d') :
    Listed (namesOfSeq d') (namesOfSeq d ++ bindersOf items)
      (orderlyItems False d.rest.isSome d.whole.isSome items)
      (orderlyItems True d.rest.isSome d.whole.isSome items ∧ (d.whole = none ∨ items = [])) := by
  -- On the length, since a mark is read together with what it marks.
  induction hn : items.length using Nat.strongRecOn generalizing items d with
  | _ n ih
  subst hn
  cases items with
  | nil =>
    cases h
    rw [bindersOf, List.append_nil]
    exact .refl _ _ _
  | cons item more =>
    rcases parseSeq_eq_ok h with
      ⟨target, more', b, rfl, rfl, hb, h'⟩ | ⟨n, more', rfl, rfl, h'⟩ | ⟨hd, b, hb, h'⟩
    · have hmore := ih _ (by simp only [List.length_cons]; omega) (fun f hf => hforms f (by simp [hf])) h' rfl
      have htarget := hforms target (by simp) b hb
      rw [bindersOf_mark, bindersOf_item hb, orderlyItems_mark, orderlyItems_item hb, orderlyItems_mark,
        orderlyItems_item hb]
      refine (hmore.trans (listed_rest htarget d _)).imp ?_ ?_
      · rintro ⟨hrest, htarget, hmore⟩
        exact ⟨hmore, by simpa using hrest, htarget⟩
      · rintro ⟨⟨hrest, htarget, hmore⟩, hwhole | hnil⟩
        · exact ⟨⟨hmore, .inl hwhole⟩, by simpa using hrest, hwhole, htarget⟩
        · cases hnil
    · have hmore := ih _ (by simp only [List.length_cons]; omega) (fun f hf => hforms f (by simp [hf])) h' rfl
      rw [bindersOf_whole, orderlyItems_whole, orderlyItems_whole]
      refine (hmore.trans (listed_whole n d _)).imp ?_ ?_
      · rintro ⟨hwhole, -, hmore⟩
        exact ⟨hmore, by simpa using hwhole⟩
      · rintro ⟨⟨-, hlast, hmore⟩, hwhole | hnil⟩
        · exact ⟨⟨hmore, .inr (hlast trivial)⟩, hwhole⟩
        · cases hnil
    · have hmore := ih _ (by simp only [List.length_cons]; omega) (fun f hf => hforms f (by simp [hf])) h' rfl
      have hitem := hforms item (by simp) b hb
      rw [bindersOf_item hb, orderlyItems_item hb, orderlyItems_item hb]
      refine (hmore.trans (listed_item hitem hd _)).imp ?_ ?_
      · rintro ⟨hitem, hmore⟩
        exact ⟨hmore, hitem⟩
      · rintro ⟨⟨hitem, hmore⟩, hwhole | hnil⟩
        · exact ⟨⟨hmore, .inl hwhole⟩, hwhole, hitem⟩
        · cases hnil

/-- What the rest of a pattern by key adds to what is read of it. A second mark of the whole takes the place of
the first. -/
theorem listed_of_parseMap {whole : List (Form × Form)} : {entries : List (Form × Form)} → {d d' : MapDraft} →
    (∀ entry ∈ entries, ∀ b, parse entry.1 = .ok b →
      Listed b.names entry.1.binders (entry.1.Orderly False) (entry.1.Orderly True)) →
    parseMap whole entries d = .ok d' →
    Listed (namesOfMap d') (namesOfMap d ++ bindersOfEntries entries)
      (orderlyEntries False d.whole.isSome entries)
      (orderlyEntries True d.whole.isSome entries ∧ (d.whole = none ∨ entries = []))
  | [], d, d', _, h => by
    cases h
    rw [bindersOfEntries, List.append_nil]
    exact .refl _ _ _
  | (target, value) :: more, d, d', hforms, h => by
    have hstep {d : MapDraft} (h : parseMap whole more d = .ok d') :=
      listed_of_parseMap (fun entry hentry => hforms entry (List.mem_cons_of_mem _ hentry)) h
    rcases parseMap_eq_ok h with ⟨mark, names, key, rfl, rfl, h'⟩ | ⟨n, rfl, rfl, h'⟩ | ⟨key, b, rfl, hb, h'⟩
    · have hnames : Listed (namesOfEntries (names.map fun n => (.name n, key n))) (namesAmong (names.map .sym))
          True True := by
        rw [namesOfEntries_syms, namesAmong_syms]
        exact .refl _ _ _
      rw [bindersOfEntries, orderlyEntries_mark, orderlyEntries_mark]
      refine ((hstep h').trans (listed_entries hnames d _)).imp ?_ ?_
      · exact fun hmore => ⟨hmore, trivial⟩
      · rintro ⟨hmore, hwhole | hnil⟩
        · exact ⟨⟨hmore, .inl hwhole⟩, hwhole, trivial⟩
        · cases hnil
    · rw [bindersOfEntries_whole, orderlyEntries_whole, orderlyEntries_whole]
      refine ((hstep h').trans (listed_wholeOfMap n d _)).imp ?_ ?_
      · rintro ⟨hwhole, -, hmore⟩
        exact ⟨hmore, by simpa using hwhole⟩
      · rintro ⟨⟨-, hlast, hmore⟩, hwhole | hnil⟩
        · exact ⟨⟨hmore, .inr (hlast trivial)⟩, hwhole⟩
        · cases hnil
    · have htarget : Listed (namesOfEntries [(b, key)]) target.binders (target.Orderly False)
          (target.Orderly True) := by
        rw [namesOfEntries, namesOfEntries, List.append_nil]
        exact hforms _ List.mem_cons_self b hb
      rw [bindersOfEntries_key, orderlyEntries_key, orderlyEntries_key]
      refine ((hstep h').trans (listed_entries htarget d _)).imp ?_ ?_
      · rintro ⟨htarget, hmore⟩
        exact ⟨hmore, htarget⟩
      · rintro ⟨⟨htarget, hmore⟩, hwhole | hnil⟩
        · exact ⟨⟨hmore, .inl hwhole⟩, hwhole, htarget⟩
        · cases hnil

/-- The names of a pattern against the names written in it. -/
theorem listed_of_parse {form : Form} {b : Binding} (h : parse form = .ok b) :
    Listed b.names form.binders (form.Orderly False) (form.Orderly True) := by
  induction hn : form.nodes using Nat.strongRecOn generalizing form b with
  | _ n ih
  subst hn
  rcases parse_eq_ok h with ⟨n, rfl, -, rfl⟩ | ⟨items, d, rfl, hd, rfl⟩ | ⟨entries, d, rfl, hd, rfl⟩
  · exact .refl _ _ _
  · have hitems : ∀ item ∈ items, item.nodes < (Form.vector items).nodes := fun item hitem => by
      have := nodes_le_nodesOf hitem
      simp only [Form.nodes]
      omega
    refine (listed_of_parseSeq ?_ hd).imp id fun ho => ⟨ho, .inl rfl⟩
    exact fun item hitem b hb => ih _ (hitems item hitem) hb rfl
  · have hentries : ∀ entry ∈ entries, entry.1.nodes < (Form.map entries).nodes := fun entry hentry => by
      have := nodes_add_le_nodesOfEntries hentry
      simp only [Form.nodes]
      omega
    refine (listed_of_parseMap ?_ hd).imp id fun ho => ⟨ho, .inl rfl⟩
    exact fun entry hentry b hb => ih _ (hentries entry hentry) hb rfl

/-- A name that a pattern binds is bound to a part of the value, whatever the scope. -/
theorem exists_lookup_of_bind {b : Binding} {name : String} (h : name ∈ b.names) (value : Value) :
    ∃ v, ∀ scope result, b.bind value scope = .ok result → result.lookup name = some v := by
  cases hb : b.bind value [] with
  | error t =>
    refine ⟨.nil, fun scope result h => ?_⟩
    rw [(b.bind_extending value).error_of hb scope] at h
    cases h
  | ok result =>
    obtain ⟨front, -, hkeys, hother⟩ := exists_front_of_bind hb
    obtain ⟨v, hv⟩ := Scope.exists_lookup_append (hkeys ▸ List.mem_reverse.2 h : name ∈ front.map (·.1))
    refine ⟨v, fun scope result h => ?_⟩
    rw [hother scope] at h
    cases h
    exact hv scope

/-- The names of a pattern that is read from a form are written in it. Where each mark stands once at most, they
are all that are written, so a value that fits binds each of them, and where `:as` stands last besides, they are
in the order of writing. -/
theorem names_of_parse {form : Form} {b : Binding} (h : parse form = .ok b) :
    b.names.Subperm form.binders ∧
    (form.Orderly False → b.names.Perm form.binders ∧
      ∀ value, ∀ name ∈ form.binders, ∃ v, ∀ scope result,
        b.bind value scope = .ok result → result.lookup name = some v) ∧
    (form.Orderly True → b.names = form.binders) := by
  have hlisted := listed_of_parse h
  refine ⟨hlisted.subperm, fun honce => ⟨hlisted.perm honce, fun value name hname => ?_⟩, hlisted.eq⟩
  exact exists_lookup_of_bind ((hlisted.perm honce).mem_iff.2 hname) value

/-- The pattern `[{:keys [a] b :k} & r :as all]`. -/
theorem names_of_parse_nested :
    ∃ b, parse (.vector [.map [(.lit (.keyword "keys"), .vector [.sym "a"]), (.sym "b", .lit (.keyword "k"))],
        .sym "&", .sym "r", .lit (.keyword "as"), .sym "all"]) = .ok b ∧
      b.names = ["a", "b", "r", "all"] ∧
      ∀ name ∈ ["a", "b", "r", "all"], ∃ v, ∀ scope result,
        b.bind (.list [.map [], .int 1]) scope = .ok result → result.lookup name = some v := by
  have h : parse (.vector [.map [(.lit (.keyword "keys"), .vector [.sym "a"]), (.sym "b", .lit (.keyword "k"))],
    .sym "&", .sym "r", .lit (.keyword "as"), .sym "all"]) = .ok _ := rfl
  obtain ⟨-, hbound, hnames⟩ := names_of_parse h
  refine ⟨_, h, hnames ?_, (hbound ?_).2 _⟩ <;>
    simp [Form.Orderly, orderlyItems, orderlyEntries]

/-- Two patterns that bind other names than are written in them, or in another order: `[& r & s]` leaves what `r`
is bound to as it was, and `[:as all a]` has its first name last. -/
theorem binder_lost :
    (∃ b, parse (.vector [.sym "&", .sym "r", .sym "&", .sym "s"]) = .ok b ∧ b.names = ["s"] ∧
      (Form.vector [.sym "&", .sym "r", .sym "&", .sym "s"]).binders = ["r", "s"] ∧
      ∀ value scope result, b.bind value scope = .ok result → result.lookup "r" = scope.lookup "r") ∧
    ∃ b, parse (.vector [.lit (.keyword "as"), .sym "all", .sym "a"]) = .ok b ∧ b.names = ["a", "all"] ∧
      (Form.vector [.lit (.keyword "as"), .sym "all", .sym "a"]).binders = ["all", "a"] := by
  refine ⟨⟨_, rfl, rfl, by simp [Form.binders, bindersOf], fun value scope result h => ?_⟩,
    ⟨_, rfl, rfl, by simp [Form.binders, bindersOf]⟩⟩
  obtain ⟨front, rfl, hkeys, -⟩ := exists_front_of_bind h
  exact Scope.lookup_append_of_notMem (by rw [hkeys]; decide) scope

end Binding

end Attest
