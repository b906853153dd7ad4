import Attest.Report.Layout
/-!
# Texts within the limit

An event is laid out with what its style shows of its texts: of the expected and of the actual one, and of the two
sides of the difference. A text is shown whole if it is within the limit of the style, and else its beginning with
three dots behind it. Where the dots have room in the limit, what is shown is within the limit and no longer than the
text (`Style.exists_shown`); where they have none, they are shown nevertheless (`Style.dots_beyond_limit`).
-/

namespace Attest

/-! ## One text -/

/-- What is shown of a text keeps to a limit: it is the text if this is within the limit, and has no more characters
than the limit allows, nor more than the text has. -/
structure Bounded (limit : Nat) (text shown : String) : Prop where
  whole : text.length ≤ limit → shown = text
  le_limit : shown.length ≤ limit
  le_text : shown.length ≤ text.length

/-- What is shown of a text is the text if it is within the limit, else its beginning with dots that count. -/
structure Shown (limit : Nat) (text shown : String) : Prop where
  whole : text.length ≤ limit → shown = text
  cut : limit < text.length → ∃ kept rest, text = kept ++ rest ∧ kept.length = limit - 3 ∧ shown = kept ++ "..."
  bounded : 3 ≤ limit → Bounded limit text shown

namespace Style

variable {style : Style} {text : String}

theorem truncate_of_length_le (h : text.length ≤ style.limit) : style.truncate text = text := if_pos h

theorem truncate_of_lt_length (h : style.limit < text.length) :
    ∃ kept rest, text = kept ++ rest ∧ kept.length = style.limit - 3 ∧ style.truncate text = kept ++ "..." := by
  refine ⟨String.ofList (text.toList.take (style.limit - 3)), String.ofList (text.toList.drop (style.limit - 3)),
    ?_, ?_, if_neg (Nat.not_le.2 h)⟩
  · rw [← String.ofList_append, List.take_append_drop, String.ofList_toList]
  · rw [String.length_ofList, List.length_take, String.length_toList]
    omega

theorem length_truncate_of_lt_length (h : style.limit < text.length) :
    (style.truncate text).length = style.limit - 3 + 3 := by
  obtain ⟨kept, rest, -, hkept, hshown⟩ := truncate_of_lt_length h
  rw [hshown, String.length_append, hkept]
  rfl

/-- No more is shown than the limit or the dots have room for. -/
theorem length_truncate_le (style : Style) (text : String) : (style.truncate text).length ≤ max style.limit 3 := by
  rcases Nat.lt_or_ge style.limit text.length with h | h
  · rw [length_truncate_of_lt_length h]
    omega
  · rw [truncate_of_length_le h]
    omega

theorem shown_truncate (style : Style) (text : String) : Shown style.limit text (style.truncate text) := by
  refine ⟨truncate_of_length_le, truncate_of_lt_length, fun hdots => ⟨truncate_of_length_le, ?_, ?_⟩⟩
  · have hle := style.length_truncate_le text
    omega
  · rcases Nat.lt_or_ge style.limit text.length with h | h
    · rw [length_truncate_of_lt_length h]
      omega
    · exact Nat.le_of_eq (congrArg String.length (truncate_of_length_le h))

end Style

/-! ## The texts of an event -/

/-- An event with what is shown of its texts in their places. -/
def Event.showing (e : Event) (shown : String → String) : Event :=
  { e with
    expected := shown e.expected
    actual := shown e.actual
    difference := e.difference.map fun d => ⟨d.removed.map shown, d.added.map shown⟩ }

namespace Style

/-- The lines of an event show what `shown` makes of its texts, and the text of the event has no more of them: it is
the one of an event that has these for its texts, with a limit that all of them are within. -/
structure ShowsBy (style : Style) (e : Event) (shown : String → String) : Prop where
  heading : style.tag e.status ++ " " ++ shown e.expected ∈ style.eventLines e
  expected : "  expected: " ++ shown e.expected ∈ style.eventLines e
  actual : "    actual: " ++ shown e.actual ∈ style.eventLines e
  removed : style.showsDifference e.isPass = true → ∀ d ∈ e.difference, ∀ side ∈ d.removed,
    "   " ++ style.paint .cyan "removed:" ++ " " ++ shown side ∈ style.eventLines e
  added : style.showsDifference e.isPass = true → ∀ d ∈ e.difference, ∀ side ∈ d.added,
    "     " ++ style.paint .cyan "added:" ++ " " ++ shown side ∈ style.eventLines e
  alone : ∀ limit, max style.limit 3 ≤ limit →
    style.eventText e = { style with limit }.eventText (e.showing shown)

variable {style : Style} {e : Event}

/-- Where differences are shown, the lines of a difference are lines of the event. -/
theorem mem_eventLines_of_difference {d : Difference} {line : String} (hshown : style.showsDifference e.isPass = true)
    (hd : d ∈ e.difference) (hline : line ∈ style.differenceLines d) : line ∈ style.eventLines e := by
  rw [Option.mem_def] at hd
  simp only [eventLines, hshown, if_true, hd, Option.elim_some, List.mem_append]
  exact .inr hline

/-- What a style shows is within every limit that is not smaller and has room for the dots. -/
theorem truncate_truncate {limit : Nat} (h : max style.limit 3 ≤ limit) (text : String) :
    { style with limit }.truncate (style.truncate text) = style.truncate text :=
  truncate_of_length_le (Nat.le_trans (style.length_truncate_le text) h)

theorem differenceLines_showing {limit : Nat} (h : max style.limit 3 ≤ limit) (d : Difference) :
    { style with limit }.differenceLines ⟨d.removed.map style.truncate, d.added.map style.truncate⟩ =
      style.differenceLines d := by
  unfold differenceLines
  simp only [Option.toList_map, List.map_map, Function.comp_def, truncate_truncate h]
  rfl

theorem eventLines_showing {limit : Nat} (h : max style.limit 3 ≤ limit) (e : Event) :
    { style with limit }.eventLines (e.showing style.truncate) = style.eventLines e := by
  unfold eventLines Event.showing
  simp only [truncate_truncate h]
  cases e.difference with
  | none => rfl
  | some d =>
    simp only [Option.map_some, Option.elim_some, differenceLines_showing h]
    rfl

theorem showsBy_truncate (style : Style) (e : Event) : style.ShowsBy e style.truncate where
  heading := by simp [eventLines]
  expected := by simp [eventLines]
  actual := by simp [eventLines]
  removed hshown d hd side hside := by
    rw [Option.mem_def] at hside
    exact mem_eventLines_of_difference hshown hd (by simp [differenceLines, hside])
  added hshown d hd side hside := by
    rw [Option.mem_def] at hside
    exact mem_eventLines_of_difference hshown hd (by simp [differenceLines, hside])
  alone limit h := by rw [eventText, eventText, eventLines_showing h]

/-- A style shows one and the same of a text wherever an event has it: the text if it is within the limit, else its
beginning with the dots behind it. In every limit that has room for the dots, this keeps to the limit; in a smaller
one, of a text that is not within it the dots alone are shown. -/
theorem exists_shown (style : Style) :
    ∃ shown : String → String, (∀ text, Shown style.limit text (shown text)) ∧ ∀ e, style.ShowsBy e shown :=
  ⟨style.truncate, style.shown_truncate, style.showsBy_truncate⟩

/-- Where no character at all is to be shown, the dots are shown of a text of one. -/
theorem dots_beyond_limit :
    let style : Style := { limit := 0 }
    let e : Event := { status := .fail, expected := "1", actual := "2" }
    style.eventText e = "FAIL ...\n  expected: ...\n    actual: ..." ∧
      ¬∃ shown : String → String, (∀ text, Bounded style.limit text (shown text)) ∧ style.ShowsBy e shown := by
  intro style e
  refine ⟨by decide +kernel, ?_⟩
  rintro ⟨shown, hbounded, hshows⟩
  have hnone : shown e.expected = "" := String.length_eq_zero_iff.1 (Nat.le_zero.1 (hbounded e.expected).le_limit)
  have hheading := hshows.heading
  rw [hnone] at hheading
  revert hheading
  decide +kernel

end Style

end Attest
