import Formula.Engine
import Formula.Expr.Simplify
import Formula.Expr.Traversal
import Formula.Token.Scan
import Formula.Yard

/-!
Parsing. The raw parse of a text is the expression that its tokens write; the full parse bounds the
depth of that expression and simplifies it.
-/

set_option autoImplicit false

namespace Formula

def requireText : Field String → Fallible String
  | .given text => .ok text
  | _ => .error (.wrongType .text)

/-- A failure to read a text. -/
def orMalformed {α : Type} : Except Malformation α → Fallible α
  | .ok value => .ok value
  | .error cause => .error (.malformed cause)

namespace Expr

def tokens (text : String) : Fallible (List Token) := orMalformed (Token.scan text)

/-- The expression that a text writes. -/
def parseRaw (limit : Option Int) (text : String) : Fallible Expr := do
  let ts ← tokens text
  ofTokens limit ts

/-- An expression may not be deeper than the limit. -/
def checkDepth (limit : Int) (e : Expr) : Fallible Unit :=
  if limit < (e.depth : Int) then .error (.malformed (.tooDeep e.depth limit)) else .ok ()

theorem checkDepth_eq_ok_iff (limit : Int) (e : Expr) :
    checkDepth limit e = .ok () ↔ (e.depth : Int) ≤ limit := by
  unfold checkDepth
  split
  · next deeper => exact iff_of_false nofun (Int.not_le.2 deeper)
  · next within => exact iff_of_true rfl (Int.not_lt.1 within)

def scanRecord (text : String) (count : Nat) : String :=
  "Tokenized " ++ Text.quoted text ++ " into " ++ toString count ++ " tokens"

/-- The expression of a row of tokens, simplified. -/
def parseTokens (strict : Bool) (level : Level) (limit : Int) (ts : List Token) :
    Logged (Fallible Expr) :=
  match ofTokens (some limit) ts with
  | .error failure => ⟨.error failure, []⟩
  | .ok e =>
    match checkDepth limit e with
    | .error failure => ⟨.error failure, []⟩
    | .ok _ =>
      let s := simplify strict level e
      ⟨.ok s.tree, s.records⟩

/-- The simplified expression that a text writes. -/
def parse (strict : Bool) (level : Level) (limit : Int) (text : String) :
    Logged (Fallible Expr) :=
  match tokens text with
  | .error failure => ⟨.error failure, []⟩
  | .ok ts =>
    let parsed := parseTokens strict level limit ts
    ⟨parsed.value, level.debug (scanRecord text ts.length) ++ parsed.records⟩

/-- A parsed expression is the simplification of a raw one that is not too deep. -/
theorem parse_eq_ok {strict : Bool} {level : Level} {limit : Int} {text : String} {t : Expr} :
    (parse strict level limit text).value = .ok t ↔
      ∃ e, parseRaw (some limit) text = .ok e ∧ checkDepth limit e = .ok () ∧
        t = (simplify strict level e).tree := by
  rw [parse, parseRaw]
  cases tokens text with
  | error failure => simp [bind, Except.bind]
  | ok ts =>
    simp only [parseTokens, bind, Except.bind]
    cases ofTokens (some limit) ts with
    | error failure => simp
    | ok e => cases checked : checkDepth limit e <;> simp [checked, eq_comm]

end Expr

namespace Engine

/-- The limit that holds for a parse: an explicit one, else that of the settings. -/
def limit (e : Engine) (explicit : Option Int) : Int := explicit.getD e.settings.maxDepth

/-- The raw parse under the settings in force. -/
def parseRaw (e : Engine) (explicit : Option Int) (text : String) : Fallible Expr :=
  Expr.parseRaw (some (e.limit explicit)) text

def parse (e : Engine) (explicit : Option Int) (text : String) : Logged (Fallible Expr) :=
  Expr.parse e.settings.strict e.level (e.limit explicit) text

def simplify (e : Engine) (tree : Expr) : Expr.Simplified :=
  tree.simplify e.settings.strict e.level

/-- Evaluate under the settings in force, in the empty context if there is no other. -/
def evaluate (e : Engine) (c : Option Context) (tree : Expr) : Fallible Float :=
  tree.evaluate e.settings.strict (c.getD .empty)

end Engine

end Formula
