import Attest.Decimal.Numeral
import Attest.Text.Blank
/-!
# Tokens of a source text

`Token.next?` takes the token at the start of a text. `Scan.ofText` cuts a whole text into
tokens with their byte offsets, passing over layout: spaces, tabs, line ends, commas, and
comments from a semicolon to the end of the line. It stops at the first place where no
token can be taken.

A token takes at least one character (`length_lt_of_next?`), which is why cutting ends.
-/

namespace Attest.Source

open Attest.Text Attest.Decimal

/-- The collections that brackets enclose. -/
inductive Bracket where
  | list | vector | map | set
  deriving DecidableEq, Repr

/-- The characters that close collections. -/
inductive Closer where
  | round | square | curly
  deriving DecidableEq, Repr

/-- The character that closes a collection. -/
def Bracket.closer : Bracket → Closer
  | .list => .round
  | .vector => .square
  | .map | .set => .curly

/-- What stands for a value or a name on its own. Texts are kept without their escapes,
patterns exactly as written. -/
inductive Literal where
  | regex (body : List Char)
  | glob (body : List Char)
  | text (content : List Char)
  | keyword (name : List Char)
  | number (n : Numeral)
  | symbol (name : List Char)
  deriving DecidableEq

/-- A token. -/
inductive Token where
  | opening (b : Bracket)
  | closing (c : Closer)
  | literal (l : Literal)
  deriving DecidableEq

/-- The length of a text in bytes. -/
def byteLength (cs : List Char) : Nat := cs.foldr (fun c n => c.utf8Size + n) 0

theorem byteLength_append (as bs : List Char) :
    byteLength (as ++ bs) = byteLength as + byteLength bs := by
  unfold byteLength
  induction as with
  | nil => simp
  | cons a as ih => rw [List.cons_append, List.foldr_cons, List.foldr_cons, ih, Nat.add_assoc]

/-- Whether a character belongs to the layout between tokens, comments apart. -/
def isSpacing (c : Char) : Bool :=
  c == ' ' || c == '\t' || c == '\r' || c == '\n' || c == ','

/-- Whether a character may stand in a name. -/
def isNameChar (c : Char) : Bool :=
  !(isBlank c || c == '(' || c == ')' || c == '[' || c == ']' || c == '\x7b' ||
    c == '\x7d' || c == '"' || c == ',' || c == ';')

/-- What follows the layout at the start of a text; `comment` says that a comment is
open. -/
def skipLayout : Bool → List Char → List Char
  | _, [] => []
  | true, c :: cs => skipLayout (c != '\n') cs
  | false, c :: cs =>
    if isSpacing c then skipLayout false cs
    else if c == ';' then skipLayout true cs
    else c :: cs

/-- The body of a pattern up to its closing quote, and what follows the quote. A backslash
takes the next character with it; both stay in the body. -/
def patternBody? : List Char → Option (List Char × List Char)
  | [] => none
  | '"' :: rest => some ([], rest)
  | '\\' :: c :: rest => (patternBody? rest).map fun (body, after) => ('\\' :: c :: body, after)
  | c :: rest => (patternBody? rest).map fun (body, after) => (c :: body, after)

/-- The character that an escape letter stands for. -/
def unescape? : Char → Option Char
  | 'n' => some '\n'
  | 't' => some '\t'
  | 'r' => some '\r'
  | '"' => some '"'
  | '\\' => some '\\'
  | _ => none

/-- The content of a text literal up to its closing quote, escapes resolved, and what
follows the quote. -/
def textBody? : List Char → Option (List Char × List Char)
  | [] => none
  | '"' :: rest => some ([], rest)
  | '\\' :: [] => none
  | '\\' :: c :: rest =>
    match unescape? c with
    | some d => (textBody? rest).map fun (content, after) => (d :: content, after)
    | none => none
  | c :: rest => (textBody? rest).map fun (content, after) => (c :: content, after)

/-- A name at the start of a text, if there is one, and what follows. -/
def name? (cs : List Char) : Option (List Char × List Char) :=
  match cs.takeWhile isNameChar with
  | [] => none
  | name => some (name, cs.dropWhile isNameChar)

/-- The number or symbol at the start of a text. What begins like a number has to be one,
up to the end of the name. -/
def word? (cs : List Char) : Option (Literal × List Char) :=
  match Numeral.scan? cs with
  | some (n, rest) => if rest.head?.any isNameChar then none else some (.number n, rest)
  | none => (name? cs).map fun (name, rest) => (.symbol name, rest)

/-- The token at the start of a text, and what follows it. -/
def Token.next? : List Char → Option (Token × List Char)
  | '(' :: rest => some (.opening .list, rest)
  | ')' :: rest => some (.closing .round, rest)
  | '[' :: rest => some (.opening .vector, rest)
  | ']' :: rest => some (.closing .square, rest)
  | '\x7b' :: rest => some (.opening .map, rest)
  | '\x7d' :: rest => some (.closing .curly, rest)
  | '"' :: rest => (textBody? rest).map fun (s, after) => (.literal (.text s), after)
  | ':' :: rest => (name? rest).map fun (name, after) => (.literal (.keyword name), after)
  | '#' :: '\x7b' :: rest => some (.opening .set, rest)
  | '#' :: '"' :: rest => (patternBody? rest).map fun (b, after) => (.literal (.regex b), after)
  | '#' :: 'g' :: 'l' :: 'o' :: 'b' :: '"' :: rest =>
    (patternBody? rest).map fun (b, after) => (.literal (.glob b), after)
  | '#' :: _ => none
  | cs => (word? cs).map fun (l, after) => (.literal l, after)

/-! ## Tokens take characters -/

theorem length_skipLayout_le (comment : Bool) (cs : List Char) :
    (skipLayout comment cs).length ≤ cs.length := by
  fun_induction skipLayout comment cs with
  | case1 => simp
  | case2 c cs ih => simp only [List.length_cons]; omega
  | case3 c cs h ih => simp only [List.length_cons]; omega
  | case4 c cs h h' ih => simp only [List.length_cons]; omega
  | case5 c cs h h' => exact Nat.le_refl _

theorem length_lt_of_patternBody? {cs body after : List Char}
    (h : patternBody? cs = some (body, after)) : after.length < cs.length := by
  fun_induction patternBody? cs generalizing body with
  | case1 => cases h
  | case2 rest => cases h; simp
  | case3 c rest ih =>
    obtain ⟨⟨b, a⟩, hb, he⟩ := Option.map_eq_some_iff.1 h
    cases he
    have := ih hb
    simp only [List.length_cons]; omega
  | case4 c rest _ _ ih =>
    obtain ⟨⟨b, a⟩, hb, he⟩ := Option.map_eq_some_iff.1 h
    cases he
    have := ih hb
    simp only [List.length_cons]; omega

theorem length_lt_of_textBody? {cs content after : List Char}
    (h : textBody? cs = some (content, after)) : after.length < cs.length := by
  fun_induction textBody? cs generalizing content with
  | case1 => cases h
  | case2 rest => cases h; simp
  | case3 => cases h
  | case4 c rest d hd ih =>
    obtain ⟨⟨b, a⟩, hb, he⟩ := Option.map_eq_some_iff.1 h
    cases he
    have := ih hb
    simp only [List.length_cons]; omega
  | case5 => cases h
  | case6 c rest _ _ _ ih =>
    obtain ⟨⟨b, a⟩, hb, he⟩ := Option.map_eq_some_iff.1 h
    cases he
    have := ih hb
    simp only [List.length_cons]; omega

theorem length_lt_of_name? {cs name after : List Char} (h : name? cs = some (name, after)) :
    after.length < cs.length := by
  unfold name? at h
  split at h
  · cases h
  · next hne =>
    cases h
    have hlen := congrArg List.length (List.takeWhile_append_dropWhile (p := isNameChar) (l := cs))
    have hpos : 0 < (cs.takeWhile isNameChar).length := List.length_pos_iff.2 hne
    simp only [List.length_append] at hlen
    omega

theorem length_lt_of_word? {cs after : List Char} {l : Literal}
    (h : word? cs = some (l, after)) : after.length < cs.length := by
  unfold word? at h
  split at h
  · next n rest hn =>
    split at h
    · cases h
    · cases h
      exact Numeral.length_lt_of_scan? hn
  · obtain ⟨⟨name, a⟩, hb, he⟩ := Option.map_eq_some_iff.1 h
    cases he
    exact length_lt_of_name? hb

/-- A token takes at least one character. -/
theorem length_lt_of_next? {cs after : List Char} {t : Token}
    (h : Token.next? cs = some (t, after)) : after.length < cs.length := by
  unfold Token.next? at h
  split at h
  case h_7 =>
    obtain ⟨⟨s, a⟩, hb, he⟩ := Option.map_eq_some_iff.1 h
    cases he
    have := length_lt_of_textBody? hb
    simp only [List.length_cons]; omega
  case h_8 =>
    obtain ⟨⟨s, a⟩, hb, he⟩ := Option.map_eq_some_iff.1 h
    cases he
    have := length_lt_of_name? hb
    simp only [List.length_cons]; omega
  case h_10 =>
    obtain ⟨⟨s, a⟩, hb, he⟩ := Option.map_eq_some_iff.1 h
    cases he
    have := length_lt_of_patternBody? hb
    simp only [List.length_cons]; omega
  case h_11 =>
    obtain ⟨⟨s, a⟩, hb, he⟩ := Option.map_eq_some_iff.1 h
    cases he
    have := length_lt_of_patternBody? hb
    simp only [List.length_cons]; omega
  case h_12 => cases h
  case h_13 =>
    obtain ⟨⟨l, a⟩, hb, he⟩ := Option.map_eq_some_iff.1 h
    cases he
    exact length_lt_of_word? hb
  all_goals
    cases h
    simp only [List.length_cons]
    omega

/-! ## Cutting a text -/

/-- A token and the byte offset at which it starts. -/
structure Lexeme where
  offset : Nat
  token : Token
  deriving DecidableEq

/-- A text cut into tokens. -/
structure Scan where
  lexemes : List Lexeme
  /-- Where no token could be taken although the text goes on; `none` when all of it was
  cut. -/
  stuck : Option Nat
  /-- The byte offset of the end of the text. -/
  size : Nat

namespace Scan

/-- Cuts the rest of a text that begins at a byte offset. -/
def scanFrom (offset : Nat) (cs : List Char) : Scan :=
  match _h : skipLayout false cs with
  | [] => ⟨[], none, offset + byteLength cs⟩
  | c :: rest =>
    let start := offset + (byteLength cs - byteLength (c :: rest))
    match _ht : Token.next? (c :: rest) with
    | none => ⟨[], some start, offset + byteLength cs⟩
    | some (token, after) =>
      let more := scanFrom (start + (byteLength (c :: rest) - byteLength after)) after
      { more with lexemes := ⟨start, token⟩ :: more.lexemes }
termination_by cs.length
decreasing_by
  have h1 := length_skipLayout_le false cs
  have h2 := length_lt_of_next? _ht
  rw [_h] at h1
  omega

/-- Cuts a text. -/
def ofText (text : String) : Scan := scanFrom 0 text.toList

end Scan

end Attest.Source
