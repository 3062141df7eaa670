import Formula.Function.Builtin
import Formula.Table
import Formula.Text.Quoted

/-!
Contexts: the variables and functions that an expression is read in. Functions of a context hide
built-in functions of the same name. A context as it stands here is what its two tables hold at
one time; the tables that are written to are those of a store.
-/

set_option autoImplicit false

namespace Formula

/-- The values of variables, and functions. -/
structure Context where
  values : Table Float
  functions : Table (Definition Context)

abbrev Function := Definition Context

namespace Context

def empty : Context := ⟨.empty, .empty⟩

instance : Inhabited Context := ⟨empty⟩

def variableValue (c : Context) (name : String) : Fallible Float :=
  match c.values.get? name with
  | some value => .ok value
  | none => .error (.unboundVariable name)

/-- The function of a name: that of the context, else the built-in one. -/
def findFunction (c : Context) (name : String) : Option Function :=
  match c.functions.get? name with
  | some f => some f
  | none => (Builtin.ofName? name).map Builtin.definition

/-- The function of a name, which must be there. -/
def resolve (c : Context) (name : String) : Fallible Function :=
  match c.findFunction name with
  | some f => .ok f
  | none => .error (.unknownFunction name)

def commaSeparated (texts : List String) : String := ", ".intercalate texts

/-- The bindings as a text: variables in insertion order, functions sorted. -/
def describe (c : Context) : String :=
  let values := c.values.entries.map fun entry =>
    Text.quoted entry.1 ++ ": " ++ Decimal.plainText entry.2
  let functions := c.functions.sortedNames.map Text.quoted
  "EvaluationContext(variables=\x7b" ++ commaSeparated values ++ "\x7d, functions=[" ++
    commaSeparated functions ++ "])"

end Context

end Formula
