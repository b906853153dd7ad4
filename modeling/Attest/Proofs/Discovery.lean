import Attest.Settings.Discovery
import Attest.Settings.Document
import Mathlib.Algebra.Module.Submodule.Lattice
import Mathlib.Data.List.Permutation
/-!
# The nearest settings

The directories from a start up to the top are looked into one after the other, and the first one in which an entry
with the name of files with settings is found decides: its entry is read, and if it cannot be read as settings there
are none. Nothing else in the tree counts, neither what is beside or below the directories looked into nor what is above
the one that decides (`Settings.discover?_eq`). An entry that cannot be looked up is passed over like one that is not
there (`Settings.discover?_past_hidden`).
-/

namespace Attest

/-! ## Starts -/

/-- A name that something in a directory can have. -/
def IsName (name : String) : Prop := name ∉ ["", ".", ".."] ∧ '/' ∉ name.toList

instance (name : String) : Decidable (IsName name) := inferInstanceAs (Decidable (_ ∧ _))

namespace FileTree

/-- A tree as there can be one: everything in it has a name and is in a directory. -/
structure WellFormed (tree : FileTree) : Prop where
  named : ∀ e ∈ tree.entries, ∀ name ∈ e.1, IsName name
  around : ∀ e ∈ tree.entries, ∀ dir, dir <:+ e.1.tail → tree.entry? dir = some .directory

variable {tree : FileTree} {path : Path}

/-- What is in a tree is at the top, or at or around something listed. -/
theorem eq_nil_or_suffix_of_entry? (h : tree.entry? path ≠ none) : path = [] ∨ ∃ e ∈ tree.entries, path <:+ e.1 := by
  unfold entry? at h
  split at h
  · next e he =>
    obtain ⟨before, behind, hentries, -⟩ := List.lookup_eq_some_iff.1 he
    exact .inr ⟨(path, e), by simp [hentries], List.suffix_rfl⟩
  · refine Classical.or_iff_not_imp_left.2 ?_
    simpa using h

theorem WellFormed.isName (htree : tree.WellFormed) (h : tree.entry? path ≠ none) : ∀ name ∈ path, IsName name := by
  intro name hname
  rcases eq_nil_or_suffix_of_entry? h with rfl | ⟨e, he, hpath⟩
  · cases hname
  · exact htree.named e he name (hpath.subset hname)

theorem suffix_tail_of_cons {name : String} {names : List String} (h : name :: path <:+ names) :
    path <:+ names.tail := by
  cases names with
  | nil => cases List.suffix_nil.1 h
  | cons head rest =>
    rcases List.suffix_cons_iff.1 h with heq | h
    · rw [List.tail_cons, (List.cons.inj heq).2]
    · exact (List.suffix_cons name path).trans h

/-- Around a directory there are directories only. -/
theorem WellFormed.directory_of_suffix {dir : Path} (htree : tree.WellFormed)
    (h : tree.entry? path = some .directory) (hdir : dir <:+ path) : tree.entry? dir = some .directory := by
  cases path with
  | nil => rwa [List.suffix_nil.1 hdir]
  | cons name parent =>
    rcases List.suffix_cons_iff.1 hdir with rfl | hdir
    · exact h
    · rcases eq_nil_or_suffix_of_entry? (h ▸ Option.some_ne_none _) with hnil | ⟨e, he, hpath⟩
      · cases hnil
      · exact htree.around e he dir (hdir.trans (suffix_tail_of_cons hpath))

/-- What is not hidden is found. -/
theorem lookUp?_of_not_hidden (h : tree.hidden path = false) : tree.lookUp? path = tree.entry? path := by
  rw [lookUp?, h, if_neg Bool.false_ne_true]

theorem follow?_cons {name : String} (hname : IsName name) (h : tree.lookUp? path = some .directory)
    (rest : List String) : tree.follow? path (name :: rest) = tree.follow? (name :: path) rest := by
  have hplain := hname.1
  simp only [List.mem_cons, List.not_mem_nil, or_false, not_or] at hplain
  simp [follow?, h, hplain]

/-- Names lead from a directory to the directory they name, if directories are found all the way. -/
theorem follow?_of_directories {names : List String} (hnames : ∀ name ∈ names, IsName name)
    (hdirs : ∀ dir, dir <:+ names.reverse ++ path → tree.lookUp? dir = some .directory) :
    tree.follow? path names = some (names.reverse ++ path) := by
  induction names generalizing path with
  | nil => rw [follow?, hdirs path List.suffix_rfl, Option.map_some, List.reverse_nil, List.nil_append]
  | cons name rest ih =>
    have hpath : (name :: rest).reverse ++ path = rest.reverse ++ name :: path := by simp
    rw [hpath] at hdirs ⊢
    have hhere : path <:+ rest.reverse ++ name :: path := (List.suffix_cons name path).trans (List.suffix_append _ _)
    rw [follow?_cons (hnames name List.mem_cons_self) (hdirs path hhere)]
    exact ih (fun n hn => hnames n (List.mem_cons_of_mem name hn)) hdirs

/-- Names with slashes between them are read back. -/
theorem names_intercalate {ns : List String} (hne : ns ≠ []) (hns : ∀ name ∈ ns, IsName name) :
    names (String.ofList (['/'].intercalate (ns.map String.toList))) = ns := by
  rw [names, String.toList_ofList, List.splitOn_intercalate]
  · simp [List.map_map, Function.comp_def]
  · intro l hl
    obtain ⟨name, hname, rfl⟩ := List.mem_map.1 hl
    exact (hns name hname).2
  · simpa using hne

/-- Every directory can be started from that can be looked up, with those around it. -/
theorem WellFormed.exists_resolve? (htree : tree.WellFormed) (h : tree.entry? path = some .directory)
    (hseen : ∀ dir, dir <:+ path → tree.hidden dir = false) : ∃ text, tree.resolve? text = some path := by
  have hfound : ∀ dir, dir <:+ path → tree.lookUp? dir = some .directory := by
    intro dir hdir
    rw [lookUp?_of_not_hidden (hseen dir hdir)]
    exact htree.directory_of_suffix h hdir
  have hdirs : ∀ dir, dir <:+ path.reverse.reverse ++ [] → tree.lookUp? dir = some .directory := by
    intro dir hdir
    rw [List.reverse_reverse, List.append_nil] at hdir
    exact hfound dir hdir
  have hnames : ∀ name ∈ path.reverse, IsName name :=
    fun name hname => htree.isName (by simp [h]) name (List.mem_reverse.1 hname)
  have hfollow := follow?_of_directories hnames hdirs
  rw [List.reverse_reverse, List.append_nil] at hfollow
  by_cases hne : path = []
  · subst hne
    refine ⟨"", ?_⟩
    have hempty : FileTree.names "" = [""] := by decide +kernel
    simp [resolve?, hempty, follow?, hfound [] List.suffix_rfl]
  · refine ⟨String.ofList (['/'].intercalate (path.reverse.map String.toList)), ?_⟩
    rw [resolve?, names_intercalate (by simpa using hne) hnames, hfollow]

end FileTree

namespace Settings

/-- The entry that is found in a directory under the name of files with settings. -/
def entryIn? (tree : FileTree) (dir : Path) : Option Entry := tree.lookUp? (fileName :: dir)

/-- The directory nearest to a start, among it and those around it, in which an entry is found under the name of files
with settings, and this entry. -/
structure Nearest (tree : FileTree) (start dir : Path) (entry : Entry) : Prop where
  around : dir <:+ start
  found : entryIn? tree dir = some entry
  nearest : ∀ other, other <:+ start → entryIn? tree other ≠ none → other <:+ dir

variable {read : String → Option Settings} {tree other : FileTree} {start dir found : Path} {name : String}
  {entry : Entry}

/-! ## One directory -/

/-- Only a file that can be read, as a text and then as settings, has settings. -/
theorem ofEntry?_eq_some_iff {settings : Settings} :
    ofEntry? read entry = some settings ↔ ∃ content, entry = .file content ∧ read content = some settings := by
  cases entry <;> simp [ ofEntry?]

theorem at?_of_some (h : entryIn? tree start = some entry) : at? read tree start = ofEntry? read entry := by
  unfold entryIn? at h
  cases start with
  | nil => rw [at?, h, Option.bind_some]
  | cons name parent => simp only [at?, h]

theorem at?_nil_of_none (h : entryIn? tree [] = none) : at? read tree [] = none := by
  unfold entryIn? at h
  rw [at?, h, Option.bind_none]

theorem at?_cons_of_none (h : entryIn? tree (name :: start) = none) :
    at? read tree (name :: start) = at? read tree start := by
  unfold entryIn? at h
  simp only [at?, h]

theorem nearest_of_some (h : entryIn? tree start = some entry) : Nearest tree start start entry :=
  ⟨List.suffix_rfl, h, fun _ hother _ => hother⟩

/-- A directory that is not bare is not the bare one that it is at or around, so it is at or around the one above. -/
theorem suffix_of_suffix_cons (hbare : entryIn? tree (name :: start) = none) (hdir : entryIn? tree dir ≠ none)
    (h : dir <:+ name :: start) : dir <:+ start := by
  rcases List.suffix_cons_iff.1 h with rfl | h
  · exact absurd hbare hdir
  · exact h

/-- A directory that is bare can be left out of the search. -/
theorem nearest_cons_iff (hbare : entryIn? tree (name :: start) = none) :
    Nearest tree (name :: start) dir entry ↔ Nearest tree start dir entry := by
  constructor
  · intro h
    have haround : dir <:+ start := suffix_of_suffix_cons hbare (by simp [h.found]) h.around
    exact ⟨haround, h.found, fun other hother => h.nearest other (hother.trans (List.suffix_cons name start))⟩
  · intro h
    refine ⟨h.around.trans (List.suffix_cons name start), h.found, fun other hother hne => ?_⟩
    exact h.nearest other (suffix_of_suffix_cons hbare hne hother) hne

/-! ## The directories up to the top -/

/-- There is one nearest entry at most. -/
theorem Nearest.unique {entry' : Entry} (h : Nearest tree start dir entry) (h' : Nearest tree start found entry') :
    found = dir ∧ entry' = entry := by
  have hdir : found <:+ dir := h.nearest found h'.around (by simp [h'.found])
  have hfound : dir <:+ found := h'.nearest dir h.around (by simp [h.found])
  obtain rfl := hdir.eq_of_length_le hfound.length_le
  exact ⟨rfl, Option.some.inj (h'.found.symm.trans h.found)⟩

theorem at?_eq_findSome? (read : String → Option Settings) (tree : FileTree) (start : Path) :
    at? read tree start = (start.tails.findSome? (entryIn? tree)).bind ( ofEntry? read) := by
  induction start with
  | nil =>
    rw [List.tails, List.findSome?_cons]
    cases h : entryIn? tree [] with
    | none => exact at?_nil_of_none h
    | some entry => exact at?_of_some h
  | cons name parent ih =>
    rw [List.tails_cons, List.findSome?_cons]
    cases h : entryIn? tree (name :: parent) with
    | none => rw [at?_cons_of_none h, ih]
    | some entry => exact at?_of_some h

theorem findSome?_eq_none_iff :
    start.tails.findSome? (entryIn? tree) = none ↔ ∀ dir, dir <:+ start → entryIn? tree dir = none := by
  simp only [List.findSome?_eq_none_iff, List.mem_tails]

theorem exists_nearest_of_findSome? (h : start.tails.findSome? (entryIn? tree) = some entry) :
    ∃ dir, Nearest tree start dir entry := by
  induction start with
  | nil =>
    refine ⟨[], nearest_of_some ?_⟩
    rw [← h, List.tails, List.findSome?_cons]
    cases entryIn? tree [] <;> rfl
  | cons name parent ih =>
    rw [List.tails_cons, List.findSome?_cons] at h
    cases hhere : entryIn? tree (name :: parent) with
    | none =>
      rw [hhere] at h
      obtain ⟨dir, hdir⟩ := ih h
      exact ⟨dir, (nearest_cons_iff hhere).2 hdir⟩
    | some e =>
      rw [hhere] at h
      exact ⟨name :: parent, nearest_of_some (hhere.trans h)⟩

/-- The first entry on the way up is the one of the nearest directory that has one. -/
theorem findSome?_eq_some_iff :
    start.tails.findSome? (entryIn? tree) = some entry ↔ ∃ dir, Nearest tree start dir entry := by
  refine ⟨exists_nearest_of_findSome?, ?_⟩
  rintro ⟨dir, h⟩
  cases hfound : start.tails.findSome? (entryIn? tree) with
  | none =>
    have hbare := findSome?_eq_none_iff.1 hfound dir h.around
    rw [h.found] at hbare
    cases hbare
  | some e =>
    obtain ⟨dir', h'⟩ := exists_nearest_of_findSome? hfound
    rw [(h.unique h').2]

/-- Another tree has the same nearest entry if it has the same entries of the name up to there. -/
theorem Nearest.congr (h : Nearest tree start dir entry)
    (hsame : ∀ d, d <:+ start → dir <:+ d → entryIn? other d = entryIn? tree d) : Nearest other start dir entry := by
  refine ⟨h.around, (hsame dir h.around List.suffix_rfl).trans h.found, fun d hd hne => ?_⟩
  rcases List.suffix_or_suffix_of_suffix hd h.around with hle | hle
  · exact hle
  · rw [hsame d hd hle] at hne
    exact h.nearest d hd hne

/-- A directory that is looked into: no nearer one decides. -/
def LookedInto (tree : FileTree) (start dir : Path) : Prop :=
  dir <:+ start ∧ ∀ nearest entry, Nearest tree start nearest entry → nearest <:+ dir

/-- The first entry on the way up depends on the directories looked into only. -/
theorem findSome?_congr (hsame : ∀ dir, LookedInto tree start dir → entryIn? other dir = entryIn? tree dir) :
    start.tails.findSome? (entryIn? other) = start.tails.findSome? (entryIn? tree) := by
  cases hfound : start.tails.findSome? (entryIn? tree) with
  | none =>
    -- No directory has an entry of the name, so all of them up to the top are looked into.
    have hbare := findSome?_eq_none_iff.1 hfound
    refine findSome?_eq_none_iff.2 fun dir hdir => ?_
    rw [hsame dir ⟨hdir, fun nearest entry h => ?_⟩, hbare dir hdir]
    exact absurd h.found (by simp [hbare nearest h.around])
  | some entry =>
    obtain ⟨dir, h⟩ := findSome?_eq_some_iff.1 hfound
    refine findSome?_eq_some_iff.2 ⟨dir, h.congr fun d hd hle => hsame d ⟨hd, fun nearest entry h' => ?_⟩⟩
    rwa [(h.unique h').1]

/-- Where look-ups succeed, the entries that are found are those that are there. -/
theorem findSome?_of_not_hidden (h : ∀ dir, dir <:+ start → tree.hidden (fileName :: dir) = false) :
    start.tails.findSome? (entryIn? tree) = start.tails.findSome? fun dir => tree.entry? (fileName :: dir) := by
  -- What is there is what is found in the same tree if all of it can be looked up.
  show _ = start.tails.findSome? (entryIn? { tree with hidden := fun _ => false })
  exact findSome?_congr fun dir hdir => FileTree.lookUp?_of_not_hidden (h dir hdir.1)

/-- Every directory of a tree can be started from that can be looked up. From a start that a text leads to, settings
are found by going through the directories up to the top once. They are what the nearest entry of the name that is
found reads as if it is a file that can be read as settings; there are none if it is not, or if no such entry is found.
All that are there are found if they can be looked up. Any other tree with the same start, and in which the same entries
of the name are found in the directories looked into, has the same settings there. -/
theorem discover?_eq (read : String → Option Settings) (tree : FileTree) (start : Path) :
    (tree.WellFormed → tree.entry? start = some .directory → (∀ dir, dir <:+ start → tree.hidden dir = false) →
      ∃ text, tree.resolve? text = some start) ∧
    ∀ text, tree.resolve? text = some start →
      discover? read tree text = (start.tails.findSome? (entryIn? tree)).bind ( ofEntry? read) ∧
      (∀ dir entry, Nearest tree start dir entry → ∀ settings,
        discover? read tree text = some settings ↔ ∃ content, entry = .file content ∧ read content = some settings) ∧
      ((∀ dir, dir <:+ start → entryIn? tree dir = none) → discover? read tree text = none) ∧
      ((∃ dir entry, Nearest tree start dir entry) ∨ ∀ dir, dir <:+ start → entryIn? tree dir = none) ∧
      ((∀ dir, dir <:+ start → tree.hidden (fileName :: dir) = false) → discover? read tree text =
        (start.tails.findSome? fun dir => tree.entry? (fileName :: dir)).bind ( ofEntry? read)) ∧
      ∀ other : FileTree, other.resolve? text = some start →
        (∀ dir, LookedInto tree start dir → entryIn? other dir = entryIn? tree dir) →
        discover? read other text = discover? read tree text := by
  refine ⟨fun htree => htree.exists_resolve?, fun text h => ?_⟩
  have hdiscover : ∀ tree : FileTree, tree.resolve? text = some start →
      discover? read tree text = (start.tails.findSome? (entryIn? tree)).bind ( ofEntry? read) := by
    intro tree h
    rw [discover?, h, Option.bind_some, at?_eq_findSome?]
  refine ⟨hdiscover tree h, ?_, ?_, ?_, ?_, ?_⟩
  · intro dir entry hnearest settings
    rw [hdiscover tree h, findSome?_eq_some_iff.2 ⟨dir, hnearest⟩, Option.bind_some, ofEntry?_eq_some_iff]
  · intro hbare
    rw [hdiscover tree h, findSome?_eq_none_iff.2 hbare, Option.bind_none]
  · cases hfound : start.tails.findSome? (entryIn? tree) with
    | none => exact .inr (findSome?_eq_none_iff.1 hfound)
    | some entry =>
      obtain ⟨dir, hdir⟩ := findSome?_eq_some_iff.1 hfound
      exact .inl ⟨dir, entry, hdir⟩
  · intro hseen
    rw [hdiscover tree h, findSome?_of_not_hidden hseen]
  · intro other hother hsame
    rw [hdiscover other hother, hdiscover tree h, findSome?_congr hsame]

/-- Settings farther up do not count, nor does what is below the start. -/
theorem discover?_between :
    let near : Path × Entry := ([fileName, "a"], .file "diff: true\n")
    let tree : FileTree := { entries := [([fileName], .file ""), near, ([fileName, "c", "b", "a"], .unreadable)] }
    (tree.WellFormed ∧ tree.entry? ["b", "a"] = some .directory ∧
        (∀ dir, dir <:+ ["b", "a"] → tree.hidden dir = false) ∧ ∃ text, tree.resolve? text = some ["b", "a"]) ∧
      tree.resolve? "a/./b/c/.." = some ["b", "a"] ∧
      discover? ofText? tree "a/./b/c/.." = some { differences := true } := by
  intro near tree
  have htree : tree.WellFormed := by
    constructor
    · decide +kernel
    · simp only [← List.mem_tails]
      decide +kernel
  have hstart : tree.entry? ["b", "a"] = some .directory := by decide +kernel
  have hseen : ∀ dir, dir <:+ ["b", "a"] → tree.hidden dir = false := fun _ _ => rfl
  have hresolve : tree.resolve? "a/./b/c/.." = some ["b", "a"] := by decide +kernel
  have hfound : ["b", "a"].tails.findSome? (entryIn? tree) = some near.2 := by decide +kernel
  have hsettings : ofText? "diff: true\n" = some { differences := true } := by cbv
  obtain ⟨dir, hnearest⟩ := findSome?_eq_some_iff.1 hfound
  obtain ⟨hexists, hdecided⟩ := discover?_eq ofText? tree ["b", "a"]
  exact ⟨⟨htree, hstart, hseen, hexists htree hstart hseen⟩, hresolve,
    ((hdecided _ hresolve).2.1 dir _ hnearest _).2 ⟨_, rfl, hsettings⟩⟩

/-- Where the start may not be searched, what is in it is passed over, although it can be started from: the entry of
the directory around it decides. -/
theorem discover?_past_hidden :
    let tree : FileTree := {
      entries := [([fileName, "a"], .file "diff: [\n"), ([fileName], .file "diff: true\n")]
      hidden := fun path => ["a"].isSuffixOf path.tail }
    tree.WellFormed ∧ tree.resolve? "a" = some ["a"] ∧
      tree.entry? [fileName, "a"] = some (.file "diff: [\n") ∧ ofText? "diff: [\n" = none ∧
      discover? ofText? tree "a" = some { differences := true } := by
  intro tree
  have htree : tree.WellFormed := by
    constructor
    · decide +kernel
    · simp only [← List.mem_tails]
      decide +kernel
  have hresolve : tree.resolve? "a" = some ["a"] := by decide +kernel
  have hentry : tree.entry? [fileName, "a"] = some (.file "diff: [\n") := by decide +kernel
  have hbroken : ofText? "diff: [\n" = none := by cbv
  have hfound : ["a"].tails.findSome? (entryIn? tree) = some (.file "diff: true\n") := by decide +kernel
  have hsettings : ofText? "diff: true\n" = some { differences := true } := by cbv
  refine ⟨htree, hresolve, hentry, hbroken, ?_⟩
  rw [discover?, hresolve, Option.bind_some, at?_eq_findSome?, hfound]
  exact hsettings

end Settings

end Attest
