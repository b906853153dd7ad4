import Attest.Proofs.Notation
import Attest.Proofs.RoundTrip
/-!
# Which literals are read from their display

A text is read from its display exactly if its characters are legible: of the others the display shows the
number, or `\0`, and neither can be read (`Form.read_render_str`). A number that was read is read from its
display again, unless it was too large for a float: it is an infinite float then, whose display is a name
(`Form.read_render_number`).
-/

namespace Attest

open Source Text Decimal

/-! ## Texts -/

/-- Whether a character shows in a quoted text, or has a letter to escape it that can be read. -/
def Text.isLegible (c : Char) : Bool := isGraphic c || ['\t', '\n', '\r'].contains c

theorem Text.legible_iff {c : Char} : Legible c ↔ isLegible c = true := by
  unfold Legible escape
  split
  case h_1 | h_2 | h_3 | h_4 | h_5 | h_6 => decide
  case h_7 _ htab hfeed hreturn _ _ =>
    cases hg : isGraphic c with
    | true => simp [isLegible, hg]
    | false => simpa [isLegible, hg] using And.intro htab (And.intro hfeed hreturn)

theorem Text.all_isLegible {s : String} : s.toList.all isLegible = true ↔ ∀ c ∈ s.toList, Legible c := by
  simp only [List.all_eq_true, legible_iff]

namespace Source

/-- What stands for a character that is not legible cannot be read. -/
theorem textBody?_escape_of_not_legible {c : Char} (h : ¬ Legible c) (cs : List Char) :
    textBody? (escape c ++ cs) = none := by
  unfold Legible escape at h
  unfold escape
  split
  case h_1 => rfl
  case h_2 | h_3 | h_4 | h_5 | h_6 => exact absurd (by decide) h
  case h_7 =>
    cases hg : isGraphic c with
    | true => simp [hg] at h
    | false => rfl

theorem textBody?_of_not_legible {content : List Char} (h : ¬ ∀ c ∈ content, Legible c) (rest : List Char) :
    textBody? (content.flatMap escape ++ rest) = none := by
  induction content with
  | nil => exact absurd nofun h
  | cons c cs ih =>
    rw [List.flatMap_cons, List.append_assoc]
    by_cases hc : Legible c
    · rw [textBody?_escape hc, ih fun hcs => h (List.forall_mem_cons.2 ⟨hc, hcs⟩)]
      rfl
    · exact textBody?_escape_of_not_legible hc _

/-- A text that begins with neither layout nor a token is stuck there. -/
theorem forest_of_next?_eq_none {text : String} {c : Char} {cs : List Char} (htext : text.toList = c :: cs)
    (hskip : skipLayout false (c :: cs) = c :: cs) (hnext : Token.next? (c :: cs) = none) :
    forest text = .error ⟨0, false⟩ := by
  rw [forest, Scan.ofText, htext, scanFrom_eq, hskip]
  simp only [hnext, Nat.sub_self]
  rfl

end Source

section Reader

variable [PatternReader]

namespace Form

/-- What spells a form is read as it. -/
theorem read_of_spelledBy {f : Form} {text : String} (h : f.SpelledBy text.toList) : read text = .ok f := by
  obtain ⟨l, hl, hf⟩ := h
  exact read_of_reads (.literal hl hf)

/-- A text is read from its display if all of its characters are legible, and otherwise the display is no form. -/
theorem read_render_str (s : String) : read (Value.str s).render =
    if s.toList.all Text.isLegible then .ok (.lit (.str s)) else .error (.syntaxFault ⟨0, false⟩) := by
  split
  · next h =>
    refine read_of_spelledBy ⟨.text s.toList, spelledBy_quoted (all_isLegible.1 h), fun _ => ?_⟩
    rw [Literal.toForm, String.ofList_toList]
  · next h =>
    have htext : (quoted s).toList = '"' :: (s.toList.flatMap escape ++ ['"']) := by simp [quoted]
    have hnext : Token.next? ('"' :: (s.toList.flatMap escape ++ ['"'])) = none := by
      rw [Token.next?, textBody?_of_not_legible (mt all_isLegible.2 h)]
      rfl
    rw [Value.render, read, forest_of_next?_eq_none htext rfl hnext]

end Form

end Reader

/-! ## Numbers -/

namespace Decimal.Numeral

/-- The values that a numeral may stand for: the integer that it writes, or the float to which its size rounds,
with its sign. -/
def Denotes (n : Numeral) : Value → Prop
  | .int k => (k.toInt : ℚ) = if n.negative then -n.size else n.size
  | .float x => ∃ S E, Canonical S E ∧ Nearby S E n.size ∧ x = ofParts n.sign S E
  | _ => False

theorem size_nonneg (n : Numeral) : 0 ≤ n.size := by
  unfold size
  positivity

/-- A numeral without a fraction and an exponent has the size of its integer. -/
theorem eq_size_of_toInt? {n : Numeral} {i : Int} (h : n.toInt? = some i) :
    (i : ℚ) = if n.negative then -n.size else n.size := by
  obtain ⟨negative, whole, fraction, exponent⟩ := n
  unfold toInt? at h
  split at h
  · next hfraction hexponent =>
    dsimp only at h hfraction hexponent
    subst hfraction hexponent
    have hsize : size ⟨negative, whole, [], none⟩ = digitsValue whole := by simp [size]
    rw [hsize]
    cases h
    split <;> simp
  · cases h

/-- A numeral stands for its float. -/
theorem exists_toFloat_eq (n : Numeral) :
    ∃ S E, Canonical S E ∧ Nearby S E n.size ∧ n.toFloat = ofParts n.sign S E := by
  obtain ⟨S, E, hc, hq⟩ := exists_nearby n.size_nonneg
  exact ⟨S, E, hc, hq, toFloat_eq hc hq⟩

theorem denotes_numberValue (n : Numeral) : n.Denotes (Literal.toForm.numberValue n) := by
  rcases numberValue_eq n with ⟨k, hk, hvalue⟩ | hvalue
  · rw [hvalue]
    exact eq_size_of_toInt? hk
  · rw [hvalue]
    exact n.exists_toFloat_eq

end Decimal.Numeral

/-- No integer value is too large for a float. -/
theorem Decimal.abs_toInt_lt_floatLimit (k : Int64) : |(k.toInt : ℚ)| < floatLimit := by
  have hlower : -2 ^ 63 ≤ k.toInt := k.minValue_le_toInt
  have hupper : k.toInt ≤ 2 ^ 63 := k.toInt_le.trans (by decide)
  have hle : |(k.toInt : ℚ)| ≤ 2 ^ (63 : Int) := abs_le.2 ⟨by exact_mod_cast hlower, by exact_mod_cast hupper⟩
  exact hle.trans_lt (two_pow_lt_floatLimit (by norm_num))

section Reader

variable [PatternReader]

/-- A finite float is spelled by its display. -/
theorem Value.spelledBy_float {x : Float} (hfinite : exponentField x ≠ 2047) :
    (Form.lit (.float x)).SpelledBy (Value.float x).render.toList := by
  obtain ⟨n, hwritten, hint, htext, hfloat⟩ := exists_numeral_render hfinite
  refine ⟨.number n, ?_, fun offset => ?_⟩
  · rw [Value.render, ← htext]
    exact hwritten.spelledBy
  · rw [Literal.toForm, Literal.toForm.numberValue, hint, hfloat]

namespace Form

/-- The display of an infinite float is a name. -/
theorem read_render_infinite {x : Float} (hexponent : exponentField x = 2047) (hfraction : fractionField x = 0) :
    read (Value.float x).render = .ok (.sym (Value.float x).render) := by
  have hpositive : read "inf" = .ok (.sym "inf") := by cbv
  have hnegative : read "-inf" = .ok (.sym "-inf") := by cbv
  rw [Value.render, Decimal.render, if_pos hexponent, if_neg (not_not_intro hfraction)]
  split
  · exact hnegative
  · exact hpositive

/-- The number that a numeral stands for is read from its display, unless the numeral is too large for a float. -/
theorem read_render_number (n : Numeral) : read (Literal.toForm.numberValue n).render =
    .ok (if n.size < floatLimit then .lit (Literal.toForm.numberValue n)
      else .sym (Literal.toForm.numberValue n).render) := by
  rcases numberValue_eq n with ⟨k, hk, hvalue⟩ | hvalue
  · have hsize : n.size < floatLimit := by
      have hlt := abs_toInt_lt_floatLimit k
      rw [Numeral.eq_size_of_toInt? hk] at hlt
      split at hlt
      · rwa [abs_neg, abs_of_nonneg n.size_nonneg] at hlt
      · rwa [abs_of_nonneg n.size_nonneg] at hlt
    rw [hvalue, if_pos hsize]
    exact read_of_spelledBy (Value.rereadable_int k)
  · obtain ⟨S, E, hc, hq, hx⟩ := n.exists_toFloat_eq
    rw [hvalue, hx]
    by_cases hE : 972 ≤ E
    · obtain ⟨hexponent, hfraction⟩ := hc.fields_ofParts_overflow hE n.sign
      rw [if_neg (not_lt.2 ((hq.overflow_iff hc).1 hE))]
      exact read_render_infinite hexponent hfraction
    · have hsize : n.size < floatLimit := not_le.1 (mt (hq.overflow_iff hc).2 hE)
      rw [if_pos hsize]
      exact read_of_spelledBy (Value.spelledBy_float (hc.exponentField_ofParts (by omega) n.sign))

/-- Which literals are read from their display. A text is if it has only characters that show, tabs and line
ends; the display of any other text is no form. A number is, from whatever text it was read, if it is not too large
for a float; otherwise it is read as an infinite float, whose display is a name. -/
theorem read_render_literal (s : String) {text : String} {offset : Nat} {n : Numeral}
    (h : forest text = .ok [.leaf offset (.number n)]) :
    (read (Value.str s).render =
      if s.toList.all Text.isLegible then .ok (.lit (.str s)) else .error (.syntaxFault ⟨0, false⟩)) ∧
    ∃ v : Value, read text = .ok (.lit v) ∧ n.Denotes v ∧
      read v.render = .ok (if n.size < floatLimit then .lit v else .sym v.render) := by
  refine ⟨read_render_str s, Literal.toForm.numberValue n, ?_, n.denotes_numberValue, read_render_number n⟩
  rw [read, h]
  rfl

end Form

end Reader

namespace Form

/-- A text with a tab is read from its display, and so is the float as which an integer that is too large is read. -/
theorem read_render_literal_of_large :
    let n : Numeral := ⟨false, "9223372036854775808".toList, [], none⟩
    read "\"a\\t\"" = .ok (.lit (.str "a\t")) ∧
      forest "9223372036854775808" = .ok [.leaf 0 (.number n)] ∧
      ∃ x : Float, read "9223372036854775808" = .ok (.lit (.float x)) ∧ Decimal.render x = "9.223372036854776e18" ∧
        read "9.223372036854776e18" = .ok (.lit (.float x)) := by
  intro n
  have hforest : forest "9223372036854775808" =
      .ok [.leaf 0 (.number ⟨false, "9223372036854775808".toList, [], none⟩)] := by cbv
  have hfloat : read "9223372036854775808" = .ok (.lit (.float n.toFloat)) := by
    rw [read, hforest]
    rfl
  have hrender : Decimal.render n.toFloat = "9.223372036854776e18" := by decide +kernel
  have hdigits : digitsValue (n.whole ++ n.fraction) = 2 ^ 63 := by decide
  have hsize : n.size < floatLimit := by
    have hpower : n.size = 2 ^ (63 : Int) := by
      rw [Numeral.size, hdigits]
      norm_num [n]
    rw [hpower]
    exact two_pow_lt_floatLimit (by norm_num)
  have hlegible : "a\t".toList.all Text.isLegible = true := by decide
  obtain ⟨htext, v, hread, -, hagain⟩ := read_render_literal "a\t" hforest
  rw [if_pos hlegible] at htext
  obtain rfl : v = .float n.toFloat := by
    rw [hfloat] at hread
    cases hread
    rfl
  rw [if_pos hsize, Value.render, hrender] at hagain
  exact ⟨htext, hforest, n.toFloat, hfloat, hrender, hagain⟩

/-- The display of a text with the character zero is no form, and that of a float that is read as infinite is a
name. -/
theorem display_not_reread :
    (¬ ∀ s : String, read (Value.str s).render = .ok (.lit (.str s))) ∧
    ∃ x : Float, read "1e999" = .ok (.lit (.float x)) ∧ read (Value.float x).render = .ok (.sym "inf") := by
  constructor
  · intro h
    have hread : read "\"\\0\"" = .error (.syntaxFault ⟨0, false⟩) := by cbv
    have hrender : (Value.str "\x00").render = "\"\\0\"" := by decide
    have hzero := h "\x00"
    rw [hrender, hread] at hzero
    cases hzero
  · have hread : read "1e999" = .ok (.lit (.float (Float.ofBits 0x7ff0000000000000))) := by cbv
    have hrender : (Value.float (Float.ofBits 0x7ff0000000000000)).render = "inf" := by decide +kernel
    refine ⟨_, hread, ?_⟩
    rw [hrender]
    cbv

end Form

end Attest
