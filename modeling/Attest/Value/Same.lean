import Attest.Value.Order
/-!
# Equality of forms

Two forms are the same when they have the same shape, the same symbols, and literals that
are equal as values.
-/

namespace Attest

mutual

/-- Whether two forms are the same. -/
def Form.same : Form → Form → Bool
  | .lit a, .lit b => a == b
  | .sym a, .sym b => a == b
  | .list as, .list bs => sameForms as bs
  | .vector as, .vector bs => sameForms as bs
  | .map as, .map bs => sameFormEntries as bs
  | _, _ => false

/-- Whether two lists of forms are the same one by one. -/
def sameForms : List Form → List Form → Bool
  | [], [] => true
  | a :: as, b :: bs => a.same b && sameForms as bs
  | _, _ => false

/-- Whether two lists of entries are the same one by one. -/
def sameFormEntries : List (Form × Form) → List (Form × Form) → Bool
  | [], [] => true
  | (k, v) :: as, (l, w) :: bs => k.same l && v.same w && sameFormEntries as bs
  | _, _ => false

end

end Attest
