import Attest.Glob
import Attest.Pattern
import Attest.Regex.Matching
import Attest.Regex.Reading
import Attest.Regex.Size
/-!
# Reading patterns

The patterns that there are: regular expressions up to a size, and globs.
-/

namespace Attest

/-- Which texts a regular expression is found in. -/
def Regex.read (source : String) : Except String (String → Bool) :=
  match Regex.Expr.ofText? source with
  | some e =>
    if e.size ≤ Regex.sizeLimit then .ok e.isFound
    else .error ("Compiled regex exceeds size limit of " ++ toString Regex.sizeLimit ++ " bytes.")
  | none => .error "regex parse error:"

/-- Which texts a glob matches. -/
def Glob.read (source : String) : Except String (String → Bool) :=
  match Glob.ofText source with
  | .ok parts => .ok (Glob.isFound parts)
  | .error e => .error e.message

instance : PatternReader where
  read
    | .regex => Regex.read
    | .glob => Glob.read

end Attest
