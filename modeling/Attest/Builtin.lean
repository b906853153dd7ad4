/-!
# The standard functions, by name

The functions that expectations can call. What each of them does is said where calls are
evaluated; here they are only named, since a value may hold one.
-/

namespace Attest

/-- A comparison of numbers. -/
inductive Comparison where
  | lt | gt | le | ge
  deriving DecidableEq, Repr

/-- A question about one value. -/
inductive Predicate where
  | even | odd | pos | neg | zero
  | isNil | isSome | isString | isInt | isNumber | isKeyword | isMap | isSet | isColl | isFn
  | isEmpty | not
  deriving DecidableEq, Repr

/-- A standard function. -/
inductive Builtin where
  | add | sub | mul | div | inc | dec
  | compare (c : Comparison)
  | test (p : Predicate)
  | equal
  | get | nth | getIn | count | first | last | rest | reverse | sort | keys | vals
  | contains | conj | assoc | vector | list | hashSet | set | hashMap | range
  | map | filter | reduce
  | identity | constantly | str | upperCase | type | isInstance
  | exInfo | error | throw | exMessage | exData
  deriving DecidableEq, Repr

/-- The name of a comparison. -/
def Comparison.name : Comparison → String
  | lt => "<" | gt => ">" | le => "<=" | ge => ">="

/-- The name of a predicate. -/
def Predicate.name : Predicate → String
  | even => "even?" | odd => "odd?" | pos => "pos?" | neg => "neg?" | zero => "zero?"
  | isNil => "nil?" | isSome => "some?" | isString => "string?" | isInt => "int?"
  | isNumber => "number?" | isKeyword => "keyword?" | isMap => "map?" | isSet => "set?"
  | isColl => "coll?" | isFn => "fn?" | isEmpty => "empty?" | not => "not"

namespace Builtin

/-- The name of a function. -/
def name : Builtin → String
  | add => "+" | sub => "-" | mul => "*" | div => "/" | inc => "inc" | dec => "dec"
  | compare c => c.name
  | test p => p.name
  | equal => "="
  | get => "get" | nth => "nth" | getIn => "get-in" | count => "count" | first => "first"
  | last => "last" | rest => "rest" | reverse => "reverse" | sort => "sort"
  | keys => "keys" | vals => "vals" | contains => "contains?" | conj => "conj"
  | assoc => "assoc" | vector => "vector" | list => "list" | hashSet => "hash-set"
  | set => "set" | hashMap => "hash-map" | range => "range" | map => "map"
  | filter => "filter" | reduce => "reduce" | identity => "identity"
  | constantly => "constantly" | str => "str" | upperCase => "upper-case" | type => "type"
  | isInstance => "instance?" | exInfo => "ex-info" | error => "error" | throw => "throw"
  | exMessage => "ex-message" | exData => "ex-data"

/-- Every standard function. -/
def all : List Builtin :=
  [add, sub, mul, div, inc, dec] ++
  [Comparison.lt, .gt, .le, .ge].map compare ++
  [Predicate.even, .odd, .pos, .neg, .zero, .isNil, .isSome, .isString, .isInt, .isNumber,
    .isKeyword, .isMap, .isSet, .isColl, .isFn, .isEmpty, .not].map test ++
  [equal, get, nth, getIn, count, first, last, rest, reverse, sort, keys, vals, contains,
    conj, assoc, vector, list, hashSet, set, hashMap, range, map, filter, reduce, identity,
    constantly, str, upperCase, type, isInstance, exInfo, error, throw, exMessage, exData]

/-- Every function is in the list. -/
theorem mem_all (b : Builtin) : b ∈ all := by
  cases b with
  | compare c => cases c <;> decide
  | test p => cases p <;> decide
  | _ => decide

/-- No two functions share a name. -/
theorem name_nodup : (all.map name).Nodup := by decide

end Builtin

end Attest
