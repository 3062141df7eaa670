/-!
Lists of names.
-/

set_option autoImplicit false

namespace Formula.Text

/-- Names without repetition, in the order of their characters. -/
def sortedNames (names : List String) : List String :=
  names.eraseDups.mergeSort fun a b => a ≤ b

theorem mem_sortedNames (names : List String) (name : String) :
    name ∈ sortedNames names ↔ name ∈ names := by
  simp [sortedNames, List.mem_mergeSort, List.mem_eraseDups]

end Formula.Text
