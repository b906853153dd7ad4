import Attest.Text.Graphic
/-!
# Quoted texts

`quoted` writes a text between double quotes. A quote, a backslash and the usual control
characters get a short escape, a character that would not show gets its number in
braces, and every other character stands for itself (`escape_of_plain`).
-/

namespace Attest.Text

/-- The digits of a number in hexadecimal, lower case and without padding. -/
def hexDigits (n : Nat) : List Char := Nat.toDigits 16 n

/-- How one character stands inside a quoted text. -/
def escape (c : Char) : List Char :=
  match c with
  | '\x00' => ['\\', '0']
  | '\t' => ['\\', 't']
  | '\n' => ['\\', 'n']
  | '\r' => ['\\', 'r']
  | '"' => ['\\', '"']
  | '\\' => ['\\', '\\']
  | c => if isGraphic c then [c] else '\\' :: 'u' :: '\x7b' :: hexDigits c.toNat ++ ['\x7d']

/-- A text between double quotes. -/
def quoted (s : String) : String :=
  "\"" ++ String.ofList (s.toList.flatMap escape) ++ "\""

/-- A character that shows, other than the quote and the backslash, stands for itself. -/
theorem escape_of_plain {c : Char} (hg : isGraphic c = true) (hq : c ≠ '"') (hb : c ≠ '\\') :
    escape c = [c] := by
  unfold escape
  split
  · exact absurd hg (by decide)
  · exact absurd hg (by decide)
  · exact absurd hg (by decide)
  · exact absurd hg (by decide)
  · exact absurd rfl hq
  · exact absurd rfl hb
  · simp [hg]

end Attest.Text
