/-!
Loosely typed fields of a request.
-/

set_option autoImplicit false

namespace Formula

/-- A field that was left out, holds something of a wrong type, or holds a value. -/
inductive Field (α : Type) where
  | absent
  | unusable
  | given (value : α)

namespace Field

variable {α : Type}

def value? : Field α → Option α
  | .given value => some value
  | _ => none

end Field

end Formula
