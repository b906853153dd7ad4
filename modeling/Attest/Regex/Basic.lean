import Attest.Text.Blank
import Attest.Text.Folding
import Attest.Text.Graphic
import Attest.Text.Script
/-!
# Regular expressions

A regular expression is a tree over three kinds of leaf: nothing, one character out of a
set, and an assertion about the place between two characters. Character sets are
expressions too; `CharSet.mem` says what they hold and `Assertion.holds` where an
assertion is true.
-/

namespace Attest.Regex

open Attest.Text

/-- A set of characters. -/
inductive CharSet where
  /-- No character. -/
  | none
  /-- The characters from one number to another. -/
  | range (first last : Nat)
  /-- White space. -/
  | blank
  /-- Decimal digits of any script. -/
  | digit
  /-- Word characters of any script. -/
  | word
  /-- The characters of one general category. -/
  | category (c : Category)
  /-- The characters of one script, by its code. -/
  | script (code : String)
  | union (a b : CharSet)
  | inter (a b : CharSet)
  | diff (a b : CharSet)
  | symmDiff (a b : CharSet)
  | compl (a : CharSet)
  /-- The characters that differ from a member in case only. -/
  | anyCase (a : CharSet)
  /-- The same among the ASCII letters alone. -/
  | anyCaseAscii (a : CharSet)

namespace CharSet

/-- One character. -/
def single (c : Char) : CharSet := .range c.toNat c.toNat

/-- The union of several sets. -/
def unions (sets : List CharSet) : CharSet := sets.foldr .union .none

/-- Every character. -/
def all : CharSet := .compl .none

/-- Whether a set holds a character. -/
def mem : CharSet → Char → Bool
  | .none, _ => false
  | .range first last, c => first ≤ c.toNat && c.toNat ≤ last
  | .blank, c => isBlank c
  | .digit, c => isDigit c
  | .word, c => isWord c
  | .category k, c => Category.ofChar c == k
  | .script code, c => Script.ofChar c == code
  | .union a b, c => a.mem c || b.mem c
  | .inter a b, c => a.mem c && b.mem c
  | .diff a b, c => a.mem c && !b.mem c
  | .symmDiff a b, c => a.mem c != b.mem c
  | .compl a, c => !a.mem c
  | .anyCase a, c => (caseVariants c).any fun d => a.mem d
  | .anyCaseAscii a, c => a.mem c || a.mem c.toUpper || a.mem c.toLower

/-- Whether a set holds none of the characters from 128 to 255. -/
def isAscii (s : CharSet) : Bool :=
  (List.range 128).all fun n => !s.mem (Char.ofNat (128 + n))

end CharSet

/-- A condition on the place between two characters. -/
inductive Assertion where
  | textStart
  | textEnd
  | lineStart
  | lineEnd
  /-- The start of a line where carriage returns end lines as well. -/
  | lineStartCr
  | lineEndCr
  /-- Between a word character and another one; `ascii` restricts word characters. -/
  | boundary (ascii : Bool)
  | noBoundary (ascii : Bool)
  | wordStart (ascii : Bool)
  | wordEnd (ascii : Bool)
  | wordStartHalf (ascii : Bool)
  | wordEndHalf (ascii : Bool)
  deriving DecidableEq

/-- Whether a character is a word character, perhaps among the ASCII ones alone. -/
def isWordIn (ascii : Bool) (c : Char) : Bool :=
  if ascii then c.isAlphanum || c == '_' else isWord c

/-- Whether an assertion holds between two neighbours, `none` standing for an end of the
text. -/
def Assertion.holds (a : Assertion) (before after : Option Char) : Bool :=
  match a with
  | .textStart => before.isNone
  | .textEnd => after.isNone
  | .lineStart => before.isNone || before == some '\n'
  | .lineEnd => after.isNone || after == some '\n'
  | .lineStartCr =>
    before.isNone || before == some '\n' || (before == some '\r' && after != some '\n')
  | .lineEndCr =>
    after.isNone || after == some '\r' || (after == some '\n' && before != some '\r')
  | .boundary ascii => before.any (isWordIn ascii) != after.any (isWordIn ascii)
  | .noBoundary ascii => before.any (isWordIn ascii) == after.any (isWordIn ascii)
  | .wordStart ascii => !before.any (isWordIn ascii) && after.any (isWordIn ascii)
  | .wordEnd ascii => before.any (isWordIn ascii) && !after.any (isWordIn ascii)
  | .wordStartHalf ascii => !before.any (isWordIn ascii)
  | .wordEndHalf ascii => !after.any (isWordIn ascii)

/-- A regular expression. -/
inductive Expr where
  | empty
  | set (s : CharSet)
  | assert (a : Assertion)
  | seq (a b : Expr)
  | alt (a b : Expr)
  /-- At least `least` times and, if there is a `most`, at most that often. -/
  | times (least : Nat) (most : Option Nat) (e : Expr)

namespace Expr

/-- One expression after the other. -/
def seqs : List Expr → Expr
  | [] => .empty
  | [e] => e
  | e :: es => .seq e (seqs es)

/-- One of several expressions. -/
def alts : List Expr → Expr
  | [] => .empty
  | [e] => e
  | e :: es => .alt e (alts es)

end Expr

end Attest.Regex
