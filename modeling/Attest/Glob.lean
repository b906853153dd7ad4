/-!
# Glob patterns

A glob is matched against a whole path: `?` stands for one character, `*` for any run of
characters, `**` for whole directories, and brackets for a choice of characters. A glob
that cannot be read is refused with the character position of the fault.
-/

namespace Attest.Glob

/-- One or more characters that brackets admit. -/
inductive Choice where
  | single (c : Char)
  | range (first last : Char)
  deriving DecidableEq

/-- Whether a choice admits a character. -/
def Choice.admits (c : Char) : Choice → Bool
  | .single d => c == d
  | .range first last => first ≤ c && c ≤ last

/-- A part of a glob. -/
inductive Part where
  | char (c : Char)
  | anyChar
  | anyRun
  /-- Any directories, including none. -/
  | anyDirectories
  | oneOf (choices : List Choice)
  | noneOf (choices : List Choice)
  deriving DecidableEq

/-- Why a text is no glob. -/
inductive Fault where
  | badRange
  | tooManyStars
  | looseDirectories
  deriving DecidableEq, Repr

/-- A fault and the position near which it is, counted in characters. -/
structure Error where
  position : Nat
  fault : Fault
  deriving DecidableEq, Repr

/-- The wording of a fault. -/
def Fault.message : Fault → String
  | .badRange => "invalid range pattern"
  | .tooManyStars => "wildcards are either regular `*` or recursive `**`"
  | .looseDirectories => "recursive wildcards must form a single path component"

/-- The wording of an error. -/
def Error.message (e : Error) : String :=
  "Pattern syntax error near position " ++ toString e.position ++ ": " ++ e.fault.message

/-- The separator of path components. -/
def isSeparator (c : Char) : Bool := c == '/'

/-- The choices between brackets: a hyphen between two characters makes a range. -/
def choices : List Char → List Choice
  | a :: '-' :: b :: rest => .range a b :: choices rest
  | c :: rest => .single c :: choices rest
  | [] => []

/-- The text up to a closing bracket that is not its first character, and what follows the
bracket. -/
def bracketBody? : List Char → Option (List Char × List Char)
  | [] => none
  | c :: rest =>
    let inside := rest.takeWhile (· != ']')
    match rest.drop inside.length with
    | _ :: after => some (c :: inside, after)
    | [] => none

/-- The part that a text after an opening bracket begins with, and what follows. -/
def bracket? : List Char → Option (Part × List Char)
  | '!' :: rest => (bracketBody? rest).map fun (body, after) => (.noneOf (choices body), after)
  | rest => (bracketBody? rest).map fun (body, after) => (.oneOf (choices body), after)

/-- The parts of the rest of a glob. `position` is where the rest begins, `before` the
character before it. Two runs of directories in a row count as one, unless they open the
glob. -/
def partsFrom : Nat → Nat → Option Char → List Part → List Char → Except Error (List Part)
  | _, _, _, parts, [] => .ok parts.reverse
  | 0, _, _, parts, _ => .ok parts.reverse
  | fuel + 1, position, before, parts, c :: cs =>
    match c with
    | '?' => partsFrom fuel (position + 1) (some c) (.anyChar :: parts) cs
    | '*' =>
      match cs.takeWhile (· == '*') with
      | [] => partsFrom fuel (position + 1) (some c) (.anyRun :: parts) cs
      | [_] =>
        -- Two stars: a whole component, so a separator or an end on either side.
        let parts := match parts with
          | .anyDirectories :: _ :: _ => parts
          | _ => .anyDirectories :: parts
        if !(before.all isSeparator) then .error ⟨position - 1, .looseDirectories⟩
        else match cs.drop 1 with
          | [] => .ok parts.reverse
          | d :: rest =>
            if isSeparator d then partsFrom fuel (position + 3) (some d) parts rest
            else .error ⟨position + 2, .looseDirectories⟩
      | _ => .error ⟨position + 2, .tooManyStars⟩
    | '[' =>
      match bracket? cs with
      | some (part, rest) =>
        partsFrom fuel (position + 1 + (cs.length - rest.length)) (some ']') (part :: parts) rest
      | none => .error ⟨position, .badRange⟩
    | _ => partsFrom fuel (position + 1) (some c) (.char c :: parts) cs

/-- The parts that a text writes. -/
def ofText (text : String) : Except Error (List Part) :=
  let cs := text.toList
  partsFrom cs.length 0 none [] cs

/-- How an attempt to match ends. When the path is used up before the glob, no other choice
for an earlier run can help. -/
inductive Attempt where
  | found | failed | usedUp
  deriving DecidableEq

/-- Tries `next` after one character, after two, and so on; a run of directories may end
only after a separator. Behind the last character `next` has its final try. -/
def slide (wholeDirectories : Bool) (next : List Char → Attempt) : List Char → Attempt
  | [] => next []
  | c :: cs =>
    -- Inside a name a run of directories cannot end.
    if wholeDirectories && !isSeparator c then slide wholeDirectories next cs
    else match next cs with
      | .failed => slide wholeDirectories next cs
      | done => done

/-- Matches the parts of a glob against a path. -/
def attempt : List Part → List Char → Attempt
  | [], path => if path.isEmpty then .found else .failed
  | part :: parts, path =>
    let run (wholeDirectories : Bool) : Attempt :=
      match attempt parts path with
      | .failed => slide wholeDirectories (attempt parts) path
      | done => done
    let one (admits : Char → Bool) : Attempt :=
      match path with
      | [] => .usedUp
      | c :: cs => if admits c then attempt parts cs else .failed
    match part with
    | .anyRun => run false
    | .anyDirectories => run true
    | .char d => one (· == d)
    | .anyChar => one fun _ => true
    | .oneOf cs => one fun c => cs.any (·.admits c)
    | .noneOf cs => one fun c => !cs.any (·.admits c)

/-- Whether a glob matches a whole path. -/
def isFound (parts : List Part) (path : String) : Bool :=
  attempt parts path.toList == .found

end Attest.Glob
