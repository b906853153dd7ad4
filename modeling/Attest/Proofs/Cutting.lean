import Attest.Proofs.Locality
import Attest.Proofs.Reading
/-!
# How a text is cut

A text is layout to its end, or layout in front of a place where no token can be taken, or layout, the
word of a token and a text again (`Cutting`). This is how cutting takes every text (`cutting_scanFrom`).
So a text that was cut to its end is cut the same way in front of a new line and another text
(`scanFrom_append_newline`), and a text can be parted in front of each of its tokens
(`exists_part`).
-/

namespace Attest

open Source Text

namespace Source

/-- The bytes of a text are those of its characters. -/
theorem byteLength_toList (text : String) : byteLength text.toList = text.utf8ByteSize := by
  have hchars : ∀ cs : List Char, byteLength cs = (String.ofList cs).utf8ByteSize := by
    intro cs
    induction cs with
    | nil => rfl
    | cons c cs ih =>
      rw [← List.singleton_append, String.ofList_append, String.utf8ByteSize_append, byteLength_append, ih,
        ← String.singleton_eq_ofList, String.utf8ByteSize_singleton]
      rfl
  rw [hchars, String.ofList_toList]

/-! ## Layout -/

theorem Layout.emptyComment {gap : List Char} (h : Layout gap) : Layout (';' :: '\n' :: gap) :=
  .comment (nofun : '\n' ∉ ([] : List Char)) h

/-- One more character in the comment that a layout begins with. -/
theorem Layout.comment_cons {c : Char} {gap : List Char} (hc : c ≠ '\n') (h : Layout (';' :: gap)) :
    Layout (';' :: c :: gap) := by
  cases h with
  | spacing hs h => exact absurd hs (by decide)
  | @comment body gap hb h =>
    have hbody : '\n' ∉ c :: body := by
      rw [List.mem_cons, not_or]
      exact ⟨hc.symm, hb⟩
    exact .comment hbody h

/-- What opens a comment, if one is open. -/
def commentOpening : Bool → List Char
  | true => [';']
  | false => []

/-- What is passed over in front of something is layout. -/
theorem exists_layout (comment : Bool) {cs : List Char} (hne : skipLayout comment cs ≠ []) :
    ∃ gap, Layout (commentOpening comment ++ gap) ∧ cs = gap ++ skipLayout comment cs := by
  fun_induction skipLayout comment cs with
  | case1 => exact absurd rfl hne
  | case2 c cs ih =>
    obtain ⟨gap, hg, hcs⟩ := ih hne
    refine ⟨c :: gap, ?_, congrArg (c :: ·) hcs⟩
    by_cases hc : c = '\n'
    · subst hc
      exact .emptyComment hg
    · rw [bne_iff_ne.2 hc] at hg
      exact hg.comment_cons hc
  | case3 c cs hs ih =>
    obtain ⟨gap, hg, hcs⟩ := ih hne
    exact ⟨c :: gap, .spacing hs hg, congrArg (c :: ·) hcs⟩
  | case4 c cs hs hc ih =>
    obtain ⟨gap, hg, hcs⟩ := ih hne
    obtain rfl : c = ';' := by simpa using hc
    exact ⟨';' :: gap, hg, congrArg (';' :: ·) hcs⟩
  | case5 => exact ⟨[], .nil, rfl⟩

/-- What is passed over to the end of a text is layout up to the end of the line. -/
theorem layout_newline (comment : Bool) {cs : List Char} (h : skipLayout comment cs = []) :
    Layout (commentOpening comment ++ (cs ++ ['\n'])) := by
  fun_induction skipLayout comment cs with
  | case1 comment =>
    cases comment with
    | true => exact .emptyComment .nil
    | false => exact .spacing rfl .nil
  | case2 c cs ih =>
    have hrest := ih h
    by_cases hc : c = '\n'
    · subst hc
      exact .emptyComment hrest
    · rw [bne_iff_ne.2 hc] at hrest
      exact hrest.comment_cons hc
  | case3 c cs hs ih => exact .spacing hs (ih h)
  | case4 c cs hs hc ih =>
    obtain rfl : c = ';' := by simpa using hc
    exact ih h
  | case5 => cases h

/-! ## Cutting -/

/-- A text that goes on, but neither with layout nor with a token. -/
structure Stuck (cs : List Char) : Prop where
  ne_nil : cs ≠ []
  skipLayout : skipLayout false cs = cs
  next? : Token.next? cs = none

/-- What a text that begins at a byte offset is cut into. -/
inductive Cutting : Nat → List Char → Scan → Prop where
  /-- The text has only layout, perhaps with a comment in its last line. -/
  | blank {offset : Nat} {gap : List Char} (h : skipLayout false gap = []) :
    Cutting offset gap ⟨[], none, offset + byteLength gap⟩
  | stuck {offset : Nat} {gap rest : List Char} (hg : Layout gap) (h : Stuck rest) :
    Cutting offset (gap ++ rest) ⟨[], some (offset + byteLength gap), offset + byteLength (gap ++ rest)⟩
  | token {offset : Nat} {gap word after : List Char} {t : Token} {s : Scan} (hg : Layout gap)
    (ht : t.Ahead word after) (h : Cutting (offset + byteLength gap + byteLength word) after s) :
    Cutting offset (gap ++ (word ++ after)) (s.behind [⟨offset + byteLength gap, t⟩])

/-- Cutting takes the word that a text begins with. -/
theorem scanFrom_word {word after : List Char} {t : Token} (offset : Nat)
    (h : Token.next? (word ++ after) = some (t, after)) :
    Scan.scanFrom offset (word ++ after) =
      (Scan.scanFrom (offset + byteLength word) after).behind [⟨offset, t⟩] := by
  have hskip := skipLayout_of_next? h
  rw [scanFrom_eq]
  cases hcs : word ++ after with
  | nil =>
    rw [hcs] at h
    cases h
  | cons c rest =>
    rw [hcs] at h hskip
    have hlength : byteLength (c :: rest) = byteLength word + byteLength after := by
      rw [← hcs, byteLength_append]
    rw [hskip]
    dsimp only
    rw [h, hlength, Nat.sub_self]
    dsimp only
    rw [Nat.add_sub_cancel_right, Nat.add_zero]

namespace Cutting

variable {offset : Nat} {cs gap : List Char} {s : Scan}

/-- There is one way to cut a text. -/
theorem scanFrom_eq (h : Cutting offset cs s) : Scan.scanFrom offset cs = s := by
  induction h with
  | blank h => rw [Source.scanFrom_eq, h]
  | @stuck offset gap rest hg h =>
    rw [scanFrom_layout hg, Source.scanFrom_eq, h.skipLayout, byteLength_append, ← Nat.add_assoc]
    cases rest with
    | nil => exact absurd rfl h.ne_nil
    | cons c rest =>
      dsimp only
      rw [h.next?, Nat.sub_self]
      rfl
  | token hg ht h ih => rw [scanFrom_layout hg, scanFrom_word _ ht.next?, ih]

end Cutting

/-- A text is cut in this way. -/
theorem cutting_scanFrom (offset : Nat) (cs : List Char) : Cutting offset cs (Scan.scanFrom offset cs) := by
  induction hn : cs.length using Nat.strongRecOn generalizing offset cs with
  | _ n ih =>
    cases hskip : skipLayout false cs with
    | nil =>
      rw [scanFrom_eq, hskip]
      exact .blank hskip
    | cons c rest =>
      obtain ⟨gap, (hg : Layout gap), hcs⟩ := exists_layout false (hskip ▸ List.cons_ne_nil c rest)
      rw [hskip] at hcs
      subst hcs
      have hrest : skipLayout false (c :: rest) = c :: rest := by rw [← skipLayout_append hg, hskip]
      cases hnext : Token.next? (c :: rest) with
      | none =>
        have hstuck : Stuck (c :: rest) := ⟨List.cons_ne_nil c rest, hrest, hnext⟩
        rw [(Cutting.stuck hg hstuck).scanFrom_eq]
        exact .stuck hg hstuck
      | some p =>
        obtain ⟨t, after⟩ := p
        obtain ⟨word, hword, ht⟩ := exists_ahead hnext
        rw [scanFrom_layout hg, hword, scanFrom_word _ ht.next?]
        refine .token hg ht (ih after.length ?_ _ after rfl)
        have hlt := length_lt_of_next? hnext
        rw [← hn, List.length_append]
        omega

/-! ## A text in front of another line -/

theorem Ended.append {as bs : List Char} (ha : Ended as) (hb : Ended bs) : Ended (as ++ bs) := by
  cases as with
  | nil => exact hb
  | cons a as => exact ha

theorem Ended.of_append {as bs : List Char} (h : Ended (as ++ bs)) : Ended as := by
  cases as with
  | nil => exact .nil
  | cons a as => exact h

/-- A text that is cut to its end is cut into the same tokens in front of something that ends names and makes
layout of what may stand behind the last token; what follows is cut as if it began there. -/
theorem Cutting.append_closed {offset : Nat} {cs : List Char} {s : Scan} (h : Cutting offset cs s)
    (hs : s.stuck = none) {tail rest : List Char}
    (htail : ∀ before gap, cs = before ++ gap → skipLayout false gap = [] → Layout (gap ++ tail))
    (hr : Ended (tail ++ rest)) :
    Scan.scanFrom offset (cs ++ (tail ++ rest)) =
      (Scan.scanFrom (offset + byteLength (cs ++ tail)) rest).behind s.lexemes := by
  induction h with
  | @blank offset gap h =>
    rw [← List.append_assoc, scanFrom_layout (htail [] gap rfl h)]
    rfl
  | stuck => cases hs
  | @token offset gap word after t s hg ht h ih =>
    have hnext := ht (after ++ (tail ++ rest)) fun ha => ha.append hr
    have hafter : ∀ before last, after = before ++ last → skipLayout false last = [] → Layout (last ++ tail) := by
      rintro before last rfl
      exact htail (gap ++ (word ++ before)) last (by simp only [List.append_assoc])
    rw [List.append_assoc, List.append_assoc, scanFrom_layout hg, scanFrom_word _ hnext, ih hs hafter,
      Scan.behind_behind, List.append_assoc, List.append_assoc, byteLength_append gap, byteLength_append word,
      ← Nat.add_assoc, ← Nat.add_assoc]
    rfl

/-- A text that is cut to its end is cut into the same tokens in front of a new line. -/
theorem Cutting.append_newline {offset : Nat} {cs : List Char} {s : Scan} (h : Cutting offset cs s)
    (hs : s.stuck = none) (more : List Char) :
    Scan.scanFrom offset (cs ++ '\n' :: more) =
      (Scan.scanFrom (offset + byteLength cs + 1) more).behind s.lexemes := by
  have hended : Ended (['\n'] ++ more) := .cons (by decide) more
  have hline := h.append_closed hs (fun _ _ _ => layout_newline false) hended
  rwa [byteLength_append, ← Nat.add_assoc] at hline

/-- A text that is cut to its end, and another one on the next line. -/
theorem ofText_newline {s : String} (h : (Scan.ofText s).stuck = none) (t : String) :
    Scan.ofText (s ++ "\n" ++ t) =
      (Scan.scanFrom (s.utf8ByteSize + 1) t.toList).behind (Scan.ofText s).lexemes := by
  have hline := (cutting_scanFrom 0 s.toList).append_newline h t.toList
  have htext : (s ++ "\n" ++ t).toList = s.toList ++ '\n' :: t.toList := by
    rw [String.toList_append, String.toList_append, List.append_assoc]
    rfl
  rw [Scan.ofText, htext, hline, byteLength_toList, Nat.zero_add]
  rfl

/-! ## A text in parts -/

theorem Layout.skipLayout {gap : List Char} (h : Layout gap) : skipLayout false gap = [] := by
  rw [← List.append_nil gap, skipLayout_append h]
  rfl

/-- Less may follow a token. -/
theorem Token.Ahead.of_append {t : Token} {word as bs : List Char} (h : t.Ahead word (as ++ bs)) :
    t.Ahead word as := fun rest hr => h rest fun he => hr he.of_append

/-- A text can be parted in front of each of its tokens, and in front of where its cutting ends. The first
part has the tokens before and is cut to its end; the second part begins with no layout and is cut as before. -/
theorem Cutting.exists_part {offset : Nat} {cs : List Char} {s : Scan} (h : Cutting offset cs s)
    {before after : List Lexeme} (hs : s.lexemes = before ++ after) :
    ∃ first second, cs = first ++ second ∧
      Scan.scanFrom offset first = ⟨before, none, offset + byteLength first⟩ ∧
      skipLayout false second = second ∧
      Cutting (offset + byteLength first) second { s with lexemes := after } := by
  induction h generalizing before with
  | @blank offset gap h =>
    obtain ⟨rfl, rfl⟩ := List.append_eq_nil_iff.1 hs.symm
    exact ⟨gap, [], (List.append_nil gap).symm, (Cutting.blank h).scanFrom_eq, rfl, .blank rfl⟩
  | @stuck offset gap rest hg h =>
    obtain ⟨rfl, rfl⟩ := List.append_eq_nil_iff.1 hs.symm
    refine ⟨gap, rest, rfl, (Cutting.blank hg.skipLayout).scanFrom_eq, h.skipLayout, ?_⟩
    rw [byteLength_append, ← Nat.add_assoc]
    exact .stuck .nil h
  | @token offset gap word rest t s hg ht h ih =>
    cases before with
    | nil =>
      obtain rfl : after = _ := hs.symm
      refine ⟨gap, word ++ rest, rfl, (Cutting.blank hg.skipLayout).scanFrom_eq, ?_, .token .nil ht h⟩
      exact skipLayout_of_next? ht.next?
    | cons x before =>
      obtain ⟨rfl, hrest⟩ := List.cons.inj hs
      obtain ⟨first, second, rfl, hfirst, hskip, hsecond⟩ := ih hrest
      -- What ends the last name of the first part is in it, or its end.
      have hword := (ht.of_append).next?
      refine ⟨gap ++ (word ++ first), second, by simp only [List.append_assoc], ?_, hskip, ?_⟩
      · rw [scanFrom_layout hg, scanFrom_word _ hword, hfirst, byteLength_append, byteLength_append]
        simp [Scan.behind, Nat.add_assoc]
      · rw [byteLength_append, byteLength_append, ← Nat.add_assoc, ← Nat.add_assoc]
        exact hsecond

end Source

end Attest
