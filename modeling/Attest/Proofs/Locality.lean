import Attest.Proofs.Spelling
/-!
# What a token depends on

A token that is taken at the start of a text is taken from a word of it (`exists_ahead`). The same word
gives the same token in front of every other text that ends a name, if what follows it ended one
(`Token.Ahead`). So what stands further on does not matter: not to a number, which looks for a fraction
and an exponent, and not to a text or a pattern, which look for their closing quote.
-/

namespace Attest

open Text Decimal

namespace Source

variable {rest : List Char}

/-! ## Numbers -/

namespace Ended

variable (hr : Ended rest) (word : List Char)
include hr

theorem scanDigits?_append : Numeral.scanDigits? (word ++ rest) =
    (Numeral.scanDigits? word).map fun p => (p.1, p.2 ++ rest) := by
  rw [Numeral.scanDigits?, takeWhile_append_of_head_right hr.isDigit_eq_false,
    dropWhile_append_of_head_right hr.isDigit_eq_false, Numeral.scanDigits?]
  cases word.takeWhile Char.isDigit <;> rfl

theorem scanSign_append : Numeral.scanSign (word ++ rest) =
    ((Numeral.scanSign word).1, (Numeral.scanSign word).2 ++ rest) := by
  cases word with
  | nil =>
    rw [List.nil_append, Numeral.scanSign]
    · rfl
    · rintro cs rfl
      exact hr.head?_ne (c := '-') (by decide) rfl
    · rintro cs rfl
      exact hr.head?_ne (c := '+') (by decide) rfl
  | cons c word =>
    rw [List.cons_append]
    unfold Numeral.scanSign
    split <;> split <;> simp_all

theorem scanFraction_append : Numeral.scanFraction (word ++ rest) =
    ((Numeral.scanFraction word).1, (Numeral.scanFraction word).2 ++ rest) := by
  cases word with
  | nil => exact scanFraction_of_ended hr
  | cons c word =>
    by_cases hc : c = '.'
    · subst hc
      rw [List.cons_append, Numeral.scanFraction, Numeral.scanFraction, hr.scanDigits?_append]
      cases Numeral.scanDigits? word <;> rfl
    · have hplain : ∀ cs, Numeral.scanFraction (c :: cs) = ([], c :: cs) := by
        intro cs
        rw [Numeral.scanFraction]
        rintro ds ⟨⟩
        exact hc rfl
      rw [List.cons_append, hplain, hplain]
      rfl

theorem scanExponent_append : Numeral.scanExponent (word ++ rest) =
    ((Numeral.scanExponent word).1, (Numeral.scanExponent word).2 ++ rest) := by
  cases word with
  | nil => exact scanExponent_of_ended hr
  | cons c word =>
    rw [List.cons_append, Numeral.scanExponent, Numeral.scanExponent, hr.scanSign_append]
    dsimp only
    rw [hr.scanDigits?_append]
    split
    · cases Numeral.scanDigits? (Numeral.scanSign word).2 <;> rfl
    · rfl

/-- Scanning for a number does not look beyond the end of a name. -/
theorem scan?_append : Numeral.scan? (word ++ rest) =
    (Numeral.scan? word).map fun p => (p.1, p.2 ++ rest) := by
  rw [Numeral.scan?, Numeral.scan?, hr.scanSign_append]
  dsimp only
  rw [hr.scanDigits?_append]
  cases Numeral.scanDigits? (Numeral.scanSign word).2 with
  | none => rfl
  | some p => simp [hr.scanFraction_append, hr.scanExponent_append]

end Ended

/-! What follows a number is the end of the text. -/

theorem scanDigits?_suffix {cs ds after : List Char} (h : Numeral.scanDigits? cs = some (ds, after)) :
    after <:+ cs := by
  unfold Numeral.scanDigits? at h
  split at h
  · cases h
  · cases h
    exact List.dropWhile_suffix _

theorem scanSign_suffix (cs : List Char) : (Numeral.scanSign cs).2 <:+ cs := by
  unfold Numeral.scanSign
  split
  · exact List.suffix_cons _ _
  · exact List.suffix_cons _ _
  · exact List.suffix_rfl

theorem scanFraction_suffix (cs : List Char) : (Numeral.scanFraction cs).2 <:+ cs := by
  unfold Numeral.scanFraction
  split
  · next rest =>
    cases hd : Numeral.scanDigits? rest with
    | none => exact List.suffix_rfl
    | some p => exact (scanDigits?_suffix hd).trans (List.suffix_cons _ _)
  · exact List.suffix_rfl

theorem scanExponent_suffix (cs : List Char) : (Numeral.scanExponent cs).2 <:+ cs := by
  unfold Numeral.scanExponent
  split
  · next e rest =>
    split
    · dsimp only
      split
      · next hd => exact ((scanDigits?_suffix hd).trans (scanSign_suffix rest)).trans (List.suffix_cons _ _)
      · exact List.suffix_rfl
    · exact List.suffix_rfl
  · exact List.suffix_rfl

theorem scan?_suffix {cs after : List Char} {n : Numeral} (h : Numeral.scan? cs = some (n, after)) :
    after <:+ cs := by
  unfold Numeral.scan? at h
  cases hd : Numeral.scanDigits? (Numeral.scanSign cs).2 with
  | none => simp [hd] at h
  | some p =>
    simp only [hd, Option.bind_eq_bind, Option.bind_some, Option.pure_def, Option.some.injEq, Prod.mk.injEq] at h
    obtain ⟨-, rfl⟩ := h
    exact (scanExponent_suffix _).trans
      ((scanFraction_suffix _).trans ((scanDigits?_suffix hd).trans (scanSign_suffix cs)))

/-- What begins with no character of a name begins with no number. -/
theorem isNameChar_of_scan? {c : Char} {cs : List Char} {p : Numeral × List Char}
    (h : Numeral.scan? (c :: cs) = some p) : isNameChar c = true := by
  cases hc : isNameChar c with
  | true => rfl
  | false =>
    have hnone := (Ended.cons hc cs).scan?_append []
    rw [List.nil_append, h] at hnone
    cases hnone

/-- A number is spelled by the word that it was cut from. -/
theorem spelledBy_number {cs after : List Char} {n : Numeral} (hscan : Numeral.scan? cs = some (n, after))
    (hended : Ended after) (hhash : ∀ rest, cs ≠ '#' :: rest) (hcolon : ∀ rest, cs ≠ ':' :: rest) :
    ∃ word, cs = word ++ after ∧ (Literal.number n).SpelledBy word := by
  obtain ⟨word, rfl⟩ := scan?_suffix hscan
  have hword : Numeral.scan? word = some (n, []) := by
    rw [hended.scan?_append] at hscan
    obtain ⟨⟨m, r⟩, hm, heq⟩ := Option.map_eq_some_iff.1 hscan
    obtain ⟨rfl, rfl⟩ : m = n ∧ r = [] := by simpa using heq
    exact hm
  refine ⟨word, rfl, fun rest hr => ?_⟩
  cases word with
  | nil => cases hword
  | cons c word =>
    have hstart : isWordStart c = true := by
      have hc : c ≠ ':' := fun h => hcolon (word ++ after) (by rw [h, List.cons_append])
      have hh : c ≠ '#' := fun h => hhash (word ++ after) (by rw [h, List.cons_append])
      simp [isWordStart, isNameChar_of_scan? hword, hc, hh]
    rw [List.cons_append, next?_of_isWordStart hstart, ← List.cons_append, word?, hr.scan?_append, hword]
    simp [hr.any_eq_false]

/-! ## Texts and patterns -/

/-- A text literal ends at the same quote whatever follows it. -/
theorem textBody?_local {cs content after : List Char} (h : textBody? cs = some (content, after)) :
    ∃ body, cs = body ++ after ∧ ∀ rest, textBody? (body ++ rest) = some (content, rest) := by
  fun_induction textBody? cs generalizing content with
  | case1 => cases h
  | case2 rest =>
    cases h
    exact ⟨['"'], rfl, fun rest => rfl⟩
  | case3 => cases h
  | case4 c rest d hd ih =>
    obtain ⟨⟨b, a⟩, hb, he⟩ := Option.map_eq_some_iff.1 h
    cases he
    obtain ⟨body, rfl, hbody⟩ := ih hb
    refine ⟨'\\' :: c :: body, rfl, fun rest => ?_⟩
    rw [List.cons_append, List.cons_append, textBody?, hd, hbody]
    rfl
  | case5 => cases h
  | case6 c rest hquote hend hescape ih =>
    obtain ⟨⟨b, a⟩, hb, he⟩ := Option.map_eq_some_iff.1 h
    cases he
    obtain ⟨body, rfl, hbody⟩ := ih hb
    -- A backslash takes the next character with it or leaves the text open.
    have hc : c ≠ '\\' := by
      rintro rfl
      cases hcs : body ++ after with
      | nil => exact hend rfl hcs
      | cons d cs => exact hescape d cs rfl hcs
    refine ⟨c :: body, rfl, fun rest => ?_⟩
    rw [List.cons_append, textBody?, hbody]
    · rfl
    · exact hquote
    · exact fun h _ => hc h
    · exact fun d ds h _ => hc h

/-- The body of a pattern is what stands before its closing quote. -/
theorem of_patternBody?_eq_some {cs body after : List Char} (h : patternBody? cs = some (body, after)) :
    cs = body ++ '"' :: after := by
  fun_induction patternBody? cs generalizing body with
  | case1 => cases h
  | case2 => cases h; rfl
  | case3 c cs ih =>
    obtain ⟨⟨b, a⟩, hb, he⟩ := Option.map_eq_some_iff.1 h
    cases he
    rw [ih hb, List.cons_append, List.cons_append]
  | case4 c cs _ _ ih =>
    obtain ⟨⟨b, a⟩, hb, he⟩ := Option.map_eq_some_iff.1 h
    cases he
    rw [ih hb, List.cons_append]

/-! ## Tokens -/

/-- A word that is a token in front of what follows it, and in front of everything else that ends a name
if that does. -/
def Token.Ahead (t : Token) (word after : List Char) : Prop :=
  ∀ rest, (Ended after → Ended rest) → Token.next? (word ++ rest) = some (t, rest)

namespace Token.Ahead

variable {t : Token} {word after : List Char}

theorem next? (h : t.Ahead word after) : Token.next? (word ++ after) = some (t, after) := h after id

/-- What is not part of a name ends one. -/
theorem of_next? (h : ∀ rest, Token.next? (word ++ rest) = some (t, rest)) : t.Ahead word after :=
  fun rest _ => h rest

/-- The spelling of a literal in front of what ends a name. -/
theorem of_spelledBy {l : Literal} (h : l.SpelledBy word) (ha : Ended after) :
    (Token.literal l).Ahead word after := fun rest hr => h rest (hr ha)

end Token.Ahead

/-- The number or the symbol at the start of a text is taken from a word. -/
theorem exists_ahead_word {cs after : List Char} {l : Literal} (h : word? cs = some (l, after))
    (hhash : ∀ rest, cs ≠ '#' :: rest) (hcolon : ∀ rest, cs ≠ ':' :: rest) :
    ∃ word, cs = word ++ after ∧ (Token.literal l).Ahead word after := by
  unfold word? at h
  split at h
  · next n rest hscan =>
    split at h
    · cases h
    · next hend =>
      cases h
      have hended : Ended after := fun c hc => by simpa [Option.mem_def.1 hc] using hend
      obtain ⟨word, hcs, hword⟩ := spelledBy_number hscan hended hhash hcolon
      exact ⟨word, hcs, .of_spelledBy hword hended⟩
  · next hscan =>
    obtain ⟨⟨name, a⟩, hname, he⟩ := Option.map_eq_some_iff.1 h
    cases he
    obtain ⟨-, -, hended, hcs⟩ := of_name?_eq_some hname
    exact ⟨name, hcs, .of_spelledBy (spelledBy_symbol hscan hname hhash hcolon) hended⟩

/-- The token at the start of a text is taken from a word. -/
theorem exists_ahead {cs after : List Char} {t : Token} (h : Token.next? cs = some (t, after)) :
    ∃ word, cs = word ++ after ∧ t.Ahead word after := by
  unfold Token.next? at h
  split at h
  case h_7 rest =>
    obtain ⟨⟨content, a⟩, hb, he⟩ := Option.map_eq_some_iff.1 h
    cases he
    obtain ⟨body, rfl, hbody⟩ := textBody?_local hb
    refine ⟨'"' :: body, rfl, .of_next? fun rest => ?_⟩
    exact congrArg (Option.map _) (hbody rest)
  case h_8 rest =>
    obtain ⟨⟨name, a⟩, hname, he⟩ := Option.map_eq_some_iff.1 h
    cases he
    obtain ⟨-, -, hended, rfl⟩ := of_name?_eq_some hname
    exact ⟨':' :: name, rfl, .of_spelledBy (spelledBy_keyword hname) hended⟩
  case h_10 rest =>
    obtain ⟨⟨body, a⟩, hb, he⟩ := Option.map_eq_some_iff.1 h
    cases he
    refine ⟨'#' :: '"' :: (body ++ ['"']), by simp [of_patternBody?_eq_some hb], .of_next? fun rest => ?_⟩
    simp [Token.next?, patternBody?_append hb]
  case h_11 rest =>
    obtain ⟨⟨body, a⟩, hb, he⟩ := Option.map_eq_some_iff.1 h
    cases he
    refine ⟨'#' :: 'g' :: 'l' :: 'o' :: 'b' :: '"' :: (body ++ ['"']), ?_, .of_next? fun rest => ?_⟩
    · simp [of_patternBody?_eq_some hb]
    · simp [Token.next?, patternBody?_append hb]
  case h_9 =>
    cases h
    exact ⟨['#', '\x7b'], rfl, .of_next? fun rest => rfl⟩
  case h_12 => cases h
  case h_13 hcolon _ _ _ hhash =>
    obtain ⟨⟨l, a⟩, hl, he⟩ := Option.map_eq_some_iff.1 h
    cases he
    exact exists_ahead_word hl (fun rest h => hhash rest h) (fun rest h => hcolon rest h)
  all_goals
    cases h
    exact ⟨[_], rfl, .of_next? fun rest => rfl⟩

end Source

end Attest
