import Formula.Decimal.Layout
import Formula.Expr.Basic
import Formula.Text.Quoted

/-!
The texts of an expression: the infix notation that can be parsed again, and a description of the
tree that names every node.
-/

set_option autoImplicit false

namespace Formula.Expr

mutual

/-- The infix text. Operations stand in parentheses, a negation puts them around its operand. -/
def render : Expr → String
  | .const value => Decimal.constantText value
  | .var name => name
  | .bin op left right => "(" ++ render left ++ " " ++ op.text ++ " " ++ render right ++ ")"
  | .neg operand => "-(" ++ render operand ++ ")"
  | .call name arguments => name ++ "(" ++ renderArguments arguments ++ ")"

def renderArguments : List Expr → String
  | [] => ""
  | [e] => render e
  | e :: rest => render e ++ ", " ++ renderArguments rest

end

mutual

/-- The tree with the kind of every node. -/
def describe : Expr → String
  | .const value => "ConstantNode(" ++ Decimal.plainText value ++ ")"
  | .var name => "VariableNode(" ++ Text.quoted name ++ ")"
  | .bin op left right => "BinaryOpNode(" ++ Text.quoted op.text ++ ", " ++ describe left ++
      ", " ++ describe right ++ ")"
  | .neg operand => "UnaryOpNode('neg', " ++ describe operand ++ ")"
  | .call name arguments =>
      "FunctionCallNode(" ++ Text.quoted name ++ ", [" ++ describeArguments arguments ++ "])"

def describeArguments : List Expr → String
  | [] => ""
  | [e] => describe e
  | e :: rest => describe e ++ ", " ++ describeArguments rest

end

/-- An expression as a value of its own. -/
def describeWhole (e : Expr) : String := "Expression(" ++ Text.quoted e.render ++ ")"

end Formula.Expr
