import Attest.Source.Reading
import Attest.Value.Text
/-!
# Literals are read as they are displayed

A text spells a literal when cutting takes exactly that literal from it, whatever follows that
ends a name (`Literal.SpelledBy`). Names and patterns that were cut from a text are spelled by
what they were written as (`spelledBy_verbatim`), numerals by their text (`Numeral.Written.spelledBy`),
so integers by their decimal digits (`spelledBy_int`), and texts of legible characters by their
quoted form (`spelledBy_quoted`).
-/

namespace Attest

open Text Decimal

namespace Source

/-! ## Where a name ends -/

/-- A text that does not go on with the name before it. -/
def Ended (rest : List Char) : Prop := ∀ c ∈ rest.head?, isNameChar c = false

theorem Ended.nil : Ended [] := nofun

theorem Ended.cons {c : Char} (hc : isNameChar c = false) (rest : List Char) :
    Ended (c :: rest) := by
  rintro d ⟨⟩
  exact hc

/-- Digits may stand in a name. -/
theorem isNameChar_of_isDigit {c : Char} (h : c.isDigit = true) : isNameChar c = true := by
  have hn : 48 ≤ c.toNat ∧ c.toNat ≤ 57 := by
    simpa [Char.isDigit, UInt32.le_iff_toNat_le] using h
  have hne : ∀ d : Char, d.toNat < 48 ∨ 57 < d.toNat → c ≠ d := by
    rintro d hd rfl
    omega
  have hb : isBlank c = false := by
    simp only [isBlank, Bool.or_eq_false_iff, Bool.and_eq_false_iff, decide_eq_false_iff_not,
      beq_eq_false_iff_ne]
    omega
  simp only [isNameChar, hb, Bool.false_or, Bool.not_eq_true', Bool.or_eq_false_iff,
    beq_eq_false_iff_ne]
  refine ⟨⟨⟨⟨⟨⟨⟨⟨?_, ?_⟩, ?_⟩, ?_⟩, ?_⟩, ?_⟩, ?_⟩, ?_⟩, ?_⟩ <;> exact hne _ (by decide)

theorem Ended.isDigit_eq_false {rest : List Char} (h : Ended rest) :
    ∀ c ∈ rest.head?, c.isDigit = false := by
  intro c hc
  cases hd : c.isDigit with
  | false => rfl
  | true => exact absurd (isNameChar_of_isDigit hd) (by simp [h c hc])

theorem Ended.any_eq_false {rest : List Char} (h : Ended rest) : rest.head?.any isNameChar = false := by
  cases rest with
  | nil => rfl
  | cons c rest => exact h c rfl

theorem takeWhile_append_of_head_right {p : Char → Bool} {rest : List Char}
    (hr : ∀ c ∈ rest.head?, p c = false) (word : List Char) :
    (word ++ rest).takeWhile p = word.takeWhile p := by
  induction word with
  | nil =>
    cases rest with
    | nil => rfl
    | cons c rest => exact List.takeWhile_cons_of_neg (by simp [hr c rfl])
  | cons c word ih => rw [List.cons_append, List.takeWhile_cons, List.takeWhile_cons, ih]

theorem dropWhile_append_of_head_right {p : Char → Bool} {rest : List Char}
    (hr : ∀ c ∈ rest.head?, p c = false) (word : List Char) :
    (word ++ rest).dropWhile p = word.dropWhile p ++ rest := by
  induction word with
  | nil =>
    cases rest with
    | nil => rfl
    | cons c rest => exact List.dropWhile_cons_of_neg (by simp [hr c rfl])
  | cons c word ih =>
    rw [List.cons_append, List.dropWhile_cons, List.dropWhile_cons, ih]
    split <;> rfl

theorem takeWhile_append_of_head {p : Char → Bool} {xs rest : List Char} (hxs : ∀ c ∈ xs, p c)
    (hr : ∀ c ∈ rest.head?, p c = false) : (xs ++ rest).takeWhile p = xs := by
  have hrest := takeWhile_append_of_head_right hr []
  rw [List.nil_append, List.takeWhile_nil] at hrest
  rw [List.takeWhile_append_of_pos hxs, hrest, List.append_nil]

theorem dropWhile_append_of_head {p : Char → Bool} {xs rest : List Char} (hxs : ∀ c ∈ xs, p c)
    (hr : ∀ c ∈ rest.head?, p c = false) : (xs ++ rest).dropWhile p = rest := by
  rw [List.dropWhile_append_of_pos hxs]
  exact dropWhile_append_of_head_right hr []

/-- What is not empty and has only name characters is a name in front of every ended text. -/
theorem name?_append {name rest : List Char} (hne : name ≠ []) (hname : ∀ c ∈ name, isNameChar c)
    (hr : Ended rest) : name? (name ++ rest) = some (name, rest) := by
  rw [name?, takeWhile_append_of_head hname hr, dropWhile_append_of_head hname hr]
  cases name with
  | nil => exact absurd rfl hne
  | cons c name => rfl

/-- A name that is taken is not empty, has only name characters and goes up to its end. -/
theorem of_name?_eq_some {cs name after : List Char} (h : name? cs = some (name, after)) :
    name ≠ [] ∧ (∀ c ∈ name, isNameChar c) ∧ Ended after ∧ cs = name ++ after := by
  unfold name? at h
  split at h
  · cases h
  · next hne =>
    cases h
    refine ⟨hne, fun c hc => ?_, fun c hc => ?_, List.takeWhile_append_dropWhile.symm⟩
    · exact List.all_eq_true.1 List.all_takeWhile c hc
    · have := List.head?_dropWhile_not isNameChar cs
      rw [hc] at this
      simpa using this

/-! ## Spelling -/

/-- A text from which cutting takes just the literal, whatever ended text follows. -/
def Literal.SpelledBy (l : Literal) (text : List Char) : Prop :=
  ∀ rest, Ended rest → Token.next? (text ++ rest) = some (.literal l, rest)

/-- What a literal is written as when that is part of the literal: not so for numbers, which can
be written in many ways, and texts, whose escapes are gone. -/
def Literal.verbatim? : Literal → Option (List Char)
  | .regex body => some ('#' :: '"' :: (body ++ ['"']))
  | .glob body => some ('#' :: 'g' :: 'l' :: 'o' :: 'b' :: '"' :: (body ++ ['"']))
  | .keyword name => some (':' :: name)
  | .symbol name => some name
  | .text _ | .number _ => none

/-! ### Patterns -/

/-- The body of a pattern ends at the same quote whatever follows it. -/
theorem patternBody?_append {cs body after : List Char} (h : patternBody? cs = some (body, after))
    (rest : List Char) : patternBody? (body ++ '"' :: rest) = some (body, rest) := by
  fun_induction patternBody? cs generalizing body with
  | case1 => cases h
  | case2 cs => cases h; rfl
  | case3 c cs ih =>
    obtain ⟨⟨b, a⟩, hb, he⟩ := Option.map_eq_some_iff.1 h
    cases he
    simp [patternBody?, ih hb]
  | case4 c cs hq hs ih =>
    obtain ⟨⟨b, a⟩, hb, he⟩ := Option.map_eq_some_iff.1 h
    cases he
    -- A backslash at the end of the text would leave the pattern open.
    have hc : c ≠ '\\' := by
      rintro rfl
      cases cs with
      | nil => cases hb
      | cons d cs => exact hs d cs rfl rfl
    rw [List.cons_append, patternBody?, ih hb]
    · rfl
    · exact hq
    · exact fun d ds hd _ => hc hd

/-! ### Numbers and symbols -/

/-- A text begins with no number exactly if no digit follows its sign. -/
theorem scan?_eq_none_iff {cs : List Char} :
    Numeral.scan? cs = none ↔ ∀ c ∈ (Numeral.scanSign cs).2.head?, c.isDigit = false := by
  have hdigits : Numeral.scan? cs = none ↔ Numeral.scanDigits? (Numeral.scanSign cs).2 = none := by
    unfold Numeral.scan?
    cases hd : Numeral.scanDigits? (Numeral.scanSign cs).2 <;> simp [hd]
  rw [hdigits]
  cases hs : (Numeral.scanSign cs).2 with
  | nil => simp [Numeral.scanDigits?]
  | cons c cs => cases hc : c.isDigit <;> simp [Numeral.scanDigits?, hc]

/-- Whether a name begins like a number does not depend on what follows it. -/
theorem scan?_append_eq_none_iff {name rest : List Char} (hne : name ≠ []) (hr : Ended rest) :
    Numeral.scan? (name ++ rest) = none ↔ Numeral.scan? name = none := by
  rw [scan?_eq_none_iff, scan?_eq_none_iff]
  obtain ⟨c, cs, rfl⟩ := List.exists_cons_of_ne_nil hne
  -- Behind a sign comes the rest of the name or, if there is none, the ended text.
  by_cases hsign : c = '-' ∨ c = '+'
  · have hscan : ∀ ds, (Numeral.scanSign (c :: ds)).2 = ds := by
      rcases hsign with rfl | rfl <;> exact fun ds => rfl
    rw [List.cons_append, hscan, hscan]
    cases cs with
    | nil => simpa using hr.isDigit_eq_false
    | cons d cs => rfl
  · have hscan : ∀ ds, (Numeral.scanSign (c :: ds)).2 = c :: ds := by
      intro ds
      rw [Numeral.scanSign]
      · rintro rest ⟨⟩
        exact hsign (.inl rfl)
      · rintro rest ⟨⟩
        exact hsign (.inr rfl)
    rw [List.cons_append, hscan, hscan]
    rfl

/-- Whether a symbol or a number may begin with a character. -/
def isWordStart (c : Char) : Bool := isNameChar c && c != '#' && c != ':'

/-- What begins like a word is a word. -/
theorem next?_of_isWordStart {c : Char} {cs : List Char} (h : isWordStart c = true) :
    Token.next? (c :: cs) = (word? (c :: cs)).map fun (l, after) => (.literal l, after) := by
  unfold Token.next?
  split
  case h_13 => rfl
  all_goals
    next heq =>
      cases heq
      exact absurd h (by decide)

/-- A word is a number, or a symbol where no number begins. -/
theorem of_word?_eq_some {cs after : List Char} {l : Literal} (h : word? cs = some (l, after)) :
    (∃ n, l = .number n) ∨
      ∃ name, l = .symbol name ∧ Numeral.scan? cs = none ∧ name? cs = some (name, after) := by
  unfold word? at h
  split at h
  · next n rest hscan =>
    split at h
    · cases h
    · cases h
      exact .inl ⟨n, rfl⟩
  · next hscan =>
    obtain ⟨⟨name, a⟩, hname, he⟩ := Option.map_eq_some_iff.1 h
    cases he
    exact .inr ⟨name, rfl, hscan, hname⟩

/-- A symbol is spelled by its name. -/
theorem spelledBy_symbol {cs name after : List Char} (hscan : Numeral.scan? cs = none)
    (hname : name? cs = some (name, after)) (hhash : ∀ rest, cs ≠ '#' :: rest)
    (hcolon : ∀ rest, cs ≠ ':' :: rest) : (Literal.symbol name).SpelledBy name := by
  obtain ⟨hne, hall, hended, rfl⟩ := of_name?_eq_some hname
  rw [scan?_append_eq_none_iff hne hended] at hscan
  obtain ⟨c, ds, rfl⟩ := List.exists_cons_of_ne_nil hne
  have hstart : isWordStart c = true := by
    have hc : c ≠ ':' := fun h => hcolon (ds ++ after) (by rw [h, List.cons_append])
    have hh : c ≠ '#' := fun h => hhash (ds ++ after) (by rw [h, List.cons_append])
    simp [isWordStart, hall c List.mem_cons_self, hc, hh]
  intro rest hr
  have hword : word? (c :: ds ++ rest) = some (.symbol (c :: ds), rest) := by
    rw [word?, (scan?_append_eq_none_iff hne hr).2 hscan, name?_append hne hall hr]
    rfl
  rw [List.cons_append, next?_of_isWordStart hstart, ← List.cons_append, hword]
  rfl

theorem isWordStart_of_isDigit {c : Char} (h : c.isDigit = true) : isWordStart c = true := by
  have hh : c ≠ '#' := by
    rintro rfl
    exact absurd h (by decide)
  have hc : c ≠ ':' := by
    rintro rfl
    exact absurd h (by decide)
  simp [isWordStart, isNameChar_of_isDigit h, hh, hc]

theorem scanDigits?_append {ds rest : List Char} (hne : ds ≠ []) (hds : ∀ c ∈ ds, c.isDigit)
    (hr : ∀ c ∈ rest.head?, c.isDigit = false) : Numeral.scanDigits? (ds ++ rest) = some (ds, rest) := by
  rw [Numeral.scanDigits?, takeWhile_append_of_head hds hr, dropWhile_append_of_head hds hr]
  cases ds with
  | nil => exact absurd rfl hne
  | cons d ds => rfl

/-- An ended text does not begin with a character that may stand in a name. -/
theorem Ended.head?_ne {rest : List Char} (h : Ended rest) {c : Char} (hc : isNameChar c = true) :
    rest.head? ≠ some c :=
  fun hrc => absurd (h c hrc) (by simp [hc])

theorem scanFraction_of_head {rest : List Char} (hr : rest.head? ≠ some '.') :
    Numeral.scanFraction rest = ([], rest) := by
  rw [Numeral.scanFraction]
  rintro cs rfl
  exact hr rfl

theorem scanFraction_of_ended {rest : List Char} (hr : Ended rest) :
    Numeral.scanFraction rest = ([], rest) :=
  scanFraction_of_head (hr.head?_ne (by decide))

theorem scanExponent_of_ended {rest : List Char} (hr : Ended rest) :
    Numeral.scanExponent rest = (none, rest) := by
  cases rest with
  | nil => rfl
  | cons c cs =>
    have he : c ≠ 'e' := by
      rintro rfl
      exact hr.head?_ne (c := 'e') (by decide) rfl
    have hE : c ≠ 'E' := by
      rintro rfl
      exact hr.head?_ne (c := 'E') (by decide) rfl
    simp [Numeral.scanExponent, he, hE]

/-- In front of digits stands a minus sign or none. -/
theorem scanSign_digits {ds : List Char} (hne : ds ≠ []) (hds : ∀ c ∈ ds, c.isDigit) (negative : Bool)
    (rest : List Char) :
    Numeral.scanSign ((if negative then ['-'] else []) ++ (ds ++ rest)) = (negative, ds ++ rest) := by
  cases negative with
  | true => rfl
  | false =>
    obtain ⟨d, ds, rfl⟩ := List.exists_cons_of_ne_nil hne
    have hd := hds d List.mem_cons_self
    show Numeral.scanSign (d :: (ds ++ rest)) = _
    rw [Numeral.scanSign]
    · rfl
    · rintro cs ⟨⟩
      exact absurd hd (by decide)
    · rintro cs ⟨⟩
      exact absurd hd (by decide)

theorem digitsValue_eq (ds : List Char) : digitsValue ds = Nat.ofDigitChars 10 ds 0 := Nat.ofDigitChars_eq_foldl.symm

/-- The decimal digits of a number write it. -/
theorem digitsValue_toDigits (n : Nat) : digitsValue (Nat.toDigits 10 n) = n := by
  rw [digitsValue_eq, Nat.ofDigitChars_ten_toDigits]

theorem isDigit_of_mem_toDigits {n : Nat} : ∀ c ∈ Nat.toDigits 10 n, c.isDigit = true := fun _ hc =>
  Nat.isDigit_of_mem_toDigits (by decide) (by decide) hc

theorem toList_toString_int (i : Int) :
    (toString i).toList = (if decide (i < 0) then ['-'] else []) ++ Nat.toDigits 10 i.natAbs := by
  cases i with
  | ofNat m => exact Nat.toList_repr
  | negSucc m => simp [Int.toString_eq_repr, Int.repr]

end Source

namespace Decimal.Numeral

open Source

/-- How a fraction is written. -/
def fractionText : List Char → List Char
  | [] => []
  | ds => '.' :: ds

/-- How an exponent is written, without a plus sign. -/
def exponentText : Option Int → List Char
  | none => []
  | some e => 'e' :: (toString e).toList

/-- How a numeral is written, its sign apart. -/
def sizeText (n : Numeral) : List Char := n.whole ++ (fractionText n.fraction ++ exponentText n.exponent)

/-- How a numeral is written, without plus signs. -/
def text (n : Numeral) : List Char := (if n.negative then ['-'] else []) ++ n.sizeText

/-- A numeral of digits only, some of them before the point. -/
structure Written (n : Numeral) : Prop where
  whole_ne_nil : n.whole ≠ []
  whole : ∀ c ∈ n.whole, c.isDigit = true
  fraction : ∀ c ∈ n.fraction, c.isDigit = true

variable {rest : List Char}

theorem scanExponent_text (e : Option Int) (hr : Ended rest) :
    scanExponent (exponentText e ++ rest) = (e, rest) := by
  cases e with
  | none => exact scanExponent_of_ended hr
  | some e =>
    have htext : (toString e).toList ++ rest =
        (if decide (e < 0) then ['-'] else []) ++ (Nat.toDigits 10 e.natAbs ++ rest) := by
      rw [toList_toString_int, List.append_assoc]
    have hne : Nat.toDigits 10 e.natAbs ≠ [] := Nat.toDigits_ne_nil
    have hsign := scanSign_digits hne isDigit_of_mem_toDigits (decide (e < 0)) rest
    have hdigits := scanDigits?_append hne isDigit_of_mem_toDigits hr.isDigit_eq_false
    have hvalue : (if decide (e < 0) then -(e.natAbs : Int) else e.natAbs) = e := by
      simp only [decide_eq_true_eq]
      split <;> omega
    rw [exponentText, List.cons_append, htext, scanExponent]
    simp only [beq_self_eq_true, Bool.true_or, if_true, hsign, hdigits, digitsValue_toDigits, hvalue]

/-- Behind the fraction, where there is an exponent or the numeral ends, stand no more digits and no point. -/
theorem head_exponentText (e : Option Int) (hr : Ended rest) :
    ∀ c ∈ (exponentText e ++ rest).head?, c.isDigit = false ∧ c ≠ '.' := by
  intro c hc
  cases e with
  | none =>
    refine ⟨hr.isDigit_eq_false c hc, ?_⟩
    rintro rfl
    exact hr.head?_ne (by decide) hc
  | some e =>
    cases hc
    decide

theorem scanFraction_text {fraction : List Char} (hfraction : ∀ c ∈ fraction, c.isDigit = true) (e : Option Int)
    (hr : Ended rest) :
    scanFraction (fractionText fraction ++ (exponentText e ++ rest)) = (fraction, exponentText e ++ rest) := by
  have hhead := head_exponentText e hr
  cases fraction with
  | nil => exact scanFraction_of_head fun h => (hhead _ h).2 rfl
  | cons d ds =>
    have hdigits := scanDigits?_append (List.cons_ne_nil d ds) hfraction fun c hc => (hhead c hc).1
    show (scanDigits? (d :: ds ++ (exponentText e ++ rest))).getD _ = _
    rw [hdigits]
    rfl

/-- A numeral is read off its text, whatever ended text follows. -/
theorem Written.scan?_text {n : Numeral} (h : n.Written) (hr : Ended rest) :
    scan? (n.text ++ rest) = some (n, rest) := by
  have hsign := scanSign_digits h.whole_ne_nil h.whole n.negative
    (fractionText n.fraction ++ (exponentText n.exponent ++ rest))
  have hdigits : scanDigits? (n.whole ++ (fractionText n.fraction ++ (exponentText n.exponent ++ rest))) =
      some (n.whole, fractionText n.fraction ++ (exponentText n.exponent ++ rest)) := by
    refine scanDigits?_append h.whole_ne_nil h.whole fun c hc => ?_
    cases hf : n.fraction with
    | nil =>
      rw [hf] at hc
      exact (head_exponentText n.exponent hr c hc).1
    | cons d ds =>
      rw [hf] at hc
      cases hc
      decide
  rw [text, sizeText, List.append_assoc, List.append_assoc, List.append_assoc, scan?, hsign]
  simp [hdigits, scanFraction_text h.fraction n.exponent hr, scanExponent_text n.exponent hr]

/-- A numeral is spelled by its text. -/
theorem Written.spelledBy {n : Numeral} (h : n.Written) : (Literal.number n).SpelledBy n.text := by
  intro rest hr
  have hscan := h.scan?_text hr
  obtain ⟨c, cs, hcs, hstart⟩ : ∃ c cs, n.text = c :: cs ∧ isWordStart c = true := by
    obtain ⟨d, ds, hds⟩ := List.exists_cons_of_ne_nil h.whole_ne_nil
    have hd := h.whole d (by simp [hds])
    cases hn : n.negative with
    | true => exact ⟨'-', _, by rw [text, hn]; rfl, by decide⟩
    | false => exact ⟨d, _, by rw [text, sizeText, hn, hds]; rfl, isWordStart_of_isDigit hd⟩
  rw [hcs, List.cons_append] at hscan ⊢
  rw [next?_of_isWordStart hstart, word?, hscan]
  simp [hr.any_eq_false]

end Decimal.Numeral

namespace Source

/-- The display of an integer spells a numeral that writes the integer. -/
theorem spelledBy_int (i : Int) :
    ∃ n : Numeral, n.toInt? = some i ∧ (Literal.number n).SpelledBy (toString i).toList := by
  let n : Numeral := ⟨decide (i < 0), Nat.toDigits 10 i.natAbs, [], none⟩
  have hwritten : n.Written := ⟨Nat.toDigits_ne_nil, isDigit_of_mem_toDigits, nofun⟩
  have htext : n.text = (toString i).toList := by
    rw [toList_toString_int, Numeral.text, Numeral.sizeText, Numeral.fractionText, Numeral.exponentText,
      List.append_nil, List.append_nil]
  have hvalue : n.toInt? = some i := by
    simp only [n, Numeral.toInt?, digitsValue_toDigits, decide_eq_true_eq, Option.some.injEq]
    split <;> omega
  exact ⟨n, hvalue, htext ▸ hwritten.spelledBy⟩

/-! ### Texts -/

end Source

/-- A character that a quoted text shows as itself or by one of the escapes that can be read. -/
def Text.Legible (c : Char) : Prop :=
  escape c ∈ [[c], ['\\', 'n'], ['\\', 't'], ['\\', 'r'], ['\\', '"'], ['\\', '\\']]

instance : DecidablePred Text.Legible := fun _ => inferInstanceAs (Decidable (_ ∈ _))

namespace Source

/-- A legible character is read back from its place in a quoted text. -/
theorem textBody?_escape {c : Char} (h : Legible c) (cs : List Char) :
    textBody? (escape c ++ cs) =
      (textBody? cs).map fun (content, after) => (c :: content, after) := by
  unfold Legible at h
  unfold escape at h
  split at h
  case h_1 => exact absurd h (by decide)
  case h_2 | h_3 | h_4 | h_5 | h_6 => rfl
  case h_7 hq hb =>
    cases hg : isGraphic c with
    | false => simp [hg] at h
    | true =>
      rw [escape_of_plain hg hq hb, List.singleton_append, textBody?]
      · exact hq
      · exact fun hc _ => hb hc
      · exact fun d ds hc _ => hb hc

theorem textBody?_flatMap_escape {content : List Char} (h : ∀ c ∈ content, Legible c)
    (rest : List Char) :
    textBody? (content.flatMap escape ++ '"' :: rest) = some (content, rest) := by
  induction content with
  | nil => simp [textBody?]
  | cons c cs ih =>
    rw [List.flatMap_cons, List.append_assoc, textBody?_escape (h c List.mem_cons_self),
      ih fun d hd => h d (List.mem_cons_of_mem c hd)]
    rfl

/-- The quoted form of a text of legible characters spells it. -/
theorem spelledBy_quoted {s : String} (h : ∀ c ∈ s.toList, Legible c) :
    (Literal.text s.toList).SpelledBy (quoted s).toList := by
  intro rest _
  have hbody := textBody?_flatMap_escape h rest
  have hnext (cs : List Char) : Token.next? ('"' :: cs) =
      (textBody? cs).map fun (content, after) => (.literal (.text content), after) := rfl
  simp [quoted, hnext, hbody]

/-! ### Literals as written -/

/-- A keyword is spelled by a colon and its name. -/
theorem spelledBy_keyword {cs name after : List Char} (h : name? cs = some (name, after)) :
    (Literal.keyword name).SpelledBy (':' :: name) := by
  obtain ⟨hne, hall, -, -⟩ := of_name?_eq_some h
  intro rest hr
  have hnext (cs : List Char) : Token.next? (':' :: cs) =
      (name? cs).map fun (name, after) => (.literal (.keyword name), after) := rfl
  rw [List.cons_append, hnext, name?_append hne hall hr]
  rfl

/-- A regular expression is spelled by its body between quotes, behind a hash. -/
theorem spelledBy_regex {cs body after : List Char} (h : patternBody? cs = some (body, after)) :
    (Literal.regex body).SpelledBy ('#' :: '"' :: (body ++ ['"'])) := by
  intro rest _
  have hnext (cs : List Char) : Token.next? ('#' :: '"' :: cs) =
      (patternBody? cs).map fun (b, after) => (.literal (.regex b), after) := rfl
  simp [hnext, patternBody?_append h]

theorem spelledBy_glob {cs body after : List Char} (h : patternBody? cs = some (body, after)) :
    (Literal.glob body).SpelledBy ('#' :: 'g' :: 'l' :: 'o' :: 'b' :: '"' :: (body ++ ['"'])) := by
  intro rest _
  have hnext (cs : List Char) : Token.next? ('#' :: 'g' :: 'l' :: 'o' :: 'b' :: '"' :: cs) =
      (patternBody? cs).map fun (b, after) => (.literal (.glob b), after) := rfl
  simp [hnext, patternBody?_append h]

/-- A literal that was cut from a text and is kept as written is spelled by what it was written
as. -/
theorem spelledBy_verbatim {cs after text : List Char} {l : Literal}
    (h : Token.next? cs = some (.literal l, after)) (ht : l.verbatim? = some text) :
    l.SpelledBy text := by
  unfold Token.next? at h
  split at h
  case h_7 =>
    obtain ⟨⟨content, a⟩, hb, he⟩ := Option.map_eq_some_iff.1 h
    cases he
    cases ht
  case h_8 =>
    obtain ⟨⟨name, a⟩, hn, he⟩ := Option.map_eq_some_iff.1 h
    cases he
    cases ht
    exact spelledBy_keyword hn
  case h_10 =>
    obtain ⟨⟨body, a⟩, hb, he⟩ := Option.map_eq_some_iff.1 h
    cases he
    cases ht
    exact spelledBy_regex hb
  case h_11 =>
    obtain ⟨⟨body, a⟩, hb, he⟩ := Option.map_eq_some_iff.1 h
    cases he
    cases ht
    exact spelledBy_glob hb
  case h_13 hcolon _ _ _ hhash =>
    obtain ⟨⟨word, a⟩, hw, he⟩ := Option.map_eq_some_iff.1 h
    cases he
    rcases of_word?_eq_some hw with ⟨n, rfl⟩ | ⟨name, rfl, hscan, hname⟩
    · cases ht
    · cases ht
      exact spelledBy_symbol hscan hname (fun rest h => hhash rest h) (fun rest h => hcolon rest h)
  all_goals cases h

end Source

end Attest
