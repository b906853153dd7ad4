import Attest.Regex.Basic
/-!
# Named properties of characters

The names which `\p` accepts: general categories and their groups, scripts, and the
common yes-or-no properties. Case, spaces, low lines and hyphens in a name do not count,
nor does a leading `is`.
-/

namespace Attest.Regex

open Attest.Text

/-- A property name without what does not count. -/
def normalName (name : List Char) : String :=
  let marked := (name.take 2).map Char.toLower == ['i', 's']
  let rest := if marked then name.drop 2 else name
  let kept := rest.filter fun c => c.toNat < 128 && !(c == ' ' || c == '_' || c == '-')
  String.ofList (match marked, kept.map Char.toLower with
    | true, ['c'] => ['i', 's', 'c']
    | _, lower => lower)

/-- The categories that each category name stands for. -/
def categoryNames : List (List String × List Category) :=
  [(["lu", "uppercaseletter"], [.lu]), (["ll", "lowercaseletter"], [.ll]),
   (["lt", "titlecaseletter"], [.lt]), (["lm", "modifierletter"], [.lm]),
   (["lo", "otherletter"], [.lo]), (["mn", "nonspacingmark"], [.mn]),
   (["mc", "spacingmark"], [.mc]), (["me", "enclosingmark"], [.me]),
   (["nd", "decimalnumber", "digit"], [.nd]), (["nl", "letternumber"], [.nl]),
   (["no", "othernumber"], [.no]), (["pc", "connectorpunctuation"], [.pc]),
   (["pd", "dashpunctuation"], [.pd]), (["ps", "openpunctuation"], [.ps]),
   (["pe", "closepunctuation"], [.pe]), (["pi", "initialpunctuation"], [.pi]),
   (["pf", "finalpunctuation"], [.pf]), (["po", "otherpunctuation"], [.po]),
   (["sm", "mathsymbol"], [.sm]), (["sc", "currencysymbol"], [.sc]),
   (["sk", "modifiersymbol"], [.sk]), (["so", "othersymbol"], [.so]),
   (["zs", "spaceseparator"], [.zs]), (["zl", "lineseparator"], [.zl]),
   (["zp", "paragraphseparator"], [.zp]), (["cc", "control", "cntrl"], [.cc]),
   (["cf", "format"], [.cf]), (["cs", "surrogate"], [.cs]), (["co", "privateuse"], [.co]),
   (["cn", "unassigned"], [.cn]),
   (["l", "letter"], [.lu, .ll, .lt, .lm, .lo]), (["lc", "casedletter"], [.lu, .ll, .lt]),
   (["m", "mark", "combiningmark"], [.mn, .mc, .me]), (["n", "number"], [.nd, .nl, .no]),
   (["p", "punctuation", "punct"], [.pc, .pd, .ps, .pe, .pi, .pf, .po]),
   (["s", "symbol"], [.sm, .sc, .sk, .so]), (["z", "separator"], [.zs, .zl, .zp]),
   (["c", "other"], [.cc, .cf, .cs, .co, .cn])]

/-- The union of categories. -/
def ofCategories (cs : List Category) : CharSet := .unions (cs.map .category)

/-- The union of ranges. -/
def ofRanges (rs : List (Nat × Nat)) : CharSet := .unions (rs.map fun (a, b) => .range a b)

/-- Upper-case characters outside the category of upper-case letters. -/
def otherUppercase : List (Nat × Nat) :=
  [(0x2160, 0x216f), (0x24b6, 0x24cf), (0x1f130, 0x1f149), (0x1f150, 0x1f169),
   (0x1f170, 0x1f189)]

/-- Lower-case characters outside the category of lower-case letters. -/
def otherLowercase : List (Nat × Nat) :=
  [(0xaa, 0xaa), (0xba, 0xba), (0x2b0, 0x2b8), (0x2c0, 0x2c1), (0x2e0, 0x2e4),
   (0x345, 0x345), (0x37a, 0x37a), (0x10fc, 0x10fc), (0x1d2c, 0x1d6a), (0x1d78, 0x1d78),
   (0x1d9b, 0x1dbf), (0x2071, 0x2071), (0x207f, 0x207f), (0x2090, 0x209c),
   (0x2170, 0x217f), (0x24d0, 0x24e9), (0x2c7c, 0x2c7d), (0xa69c, 0xa69d),
   (0xa770, 0xa770), (0xa7f2, 0xa7f4), (0xa7f8, 0xa7f9), (0xab5c, 0xab5f),
   (0xab69, 0xab69), (0x10780, 0x10780), (0x10783, 0x10785), (0x10787, 0x107b0),
   (0x107b2, 0x107ba), (0x1e030, 0x1e06d)]

/-- The yes-or-no properties. -/
def flagNames : List (List String × CharSet) :=
  [(["any"], .all), (["ascii"], .range 0 127), (["assigned"], .compl (.category .cn)),
   (["whitespace", "wspace", "space"], .blank),
   (["uppercase", "upper"], .union (.category .lu) (ofRanges otherUppercase)),
   (["lowercase", "lower"], .union (.category .ll) (ofRanges otherLowercase)),
   (["asciihexdigit", "ahex"],
    ofRanges [(0x30, 0x39), (0x41, 0x46), (0x61, 0x66)]),
   (["hexdigit", "hex"],
    ofRanges [(0x30, 0x39), (0x41, 0x46), (0x61, 0x66), (0xff10, 0xff19),
      (0xff21, 0xff26), (0xff41, 0xff46)]),
   (["joincontrol", "joinc"], .range 0x200c 0x200d)]

/-- The categories named so. -/
def category? (name : String) : Option CharSet :=
  (categoryNames.find? (·.1.contains name)).map (ofCategories ·.2)

/-- The script named so. -/
def script? (name : String) : Option CharSet :=
  match Script.names.find? fun ns => ns.any fun n => normalName n.toList == name with
  | some (code :: _) => some (.script code)
  | _ => none

/-- The property that a name between the braces of `\p` denotes, with the negation that
the name itself may carry. -/
def property? (name : List Char) : Option CharSet :=
  let isMark := fun c => c == '=' || c == ':'
  let key := name.takeWhile (!isMark ·)
  match name.drop key.length with
  | [] =>
    let n := normalName name
    match flagNames.find? (·.1.contains n) with
    | some (_, s) => some s
    | none => (category? n).orElse fun _ => script? n
  | _ :: value =>
    let negated := key.getLast? == some '!' && name.drop key.length != ':' :: value
    let found := match normalName (if negated then key.dropLast else key) with
      | "gc" | "generalcategory" => category? (normalName value)
      | "sc" | "script" => script? (normalName value)
      | _ => none
    if negated then found.map .compl else found

end Attest.Regex
