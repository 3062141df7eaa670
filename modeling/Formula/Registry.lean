import Formula.Context

/-!
Registries: tables of functions that can be frozen. As with contexts, a registry as it stands here
is what it has at one time. The registry of the built-in functions is there from the start: that it
is made when it is first asked for, and that each of its eight functions is recorded in the log
then, once in the life of a process, is left out.
-/

set_option autoImplicit false

namespace Formula

/-- A table of functions, open or frozen. -/
structure Registry where
  functions : Table Function
  isFrozen : Bool := false

namespace Registry

instance : Inhabited Registry := ⟨⟨.empty, false⟩⟩

/-- The built-in functions as they are registered. -/
def stock : List Function := Builtin.all.map Builtin.definition

def builtin : Registry := ⟨.ofList (stock.map fun f => (f.name, f)), true⟩

end Registry

end Formula
