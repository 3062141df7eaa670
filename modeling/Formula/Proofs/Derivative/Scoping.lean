import Formula.Expr.Derivative
import Formula.Function.Stock

/-!
The scope of functions in a derivation. A derivation looks functions up in the context in force, which
requests change and change back. It answers like a derivation that is handed its context as an
argument: a request with a context of its own is answered under that context, any other one under the
context of the derivation that asks. Whatever a derivation answers, the context in force is the one
from before.
-/

set_option autoImplicit false

namespace Formula

/-! ### Derivations under a context that is handed down -/

/-- Follow a recipe with pure answers to its requests. -/
def Recipe.settle {Scope : Type} (answer : Option Scope → Expr → String → Fallible Expr) :
    Recipe Scope → Fallible Expr
  | .done result => .ok result
  | .fail failure => .error failure
  | .derive e name scope next => (next (answer scope e name)).settle answer

namespace Expr

/-- The derivative of an expression, given pure derivatives of calls. -/
def deriveGiven (call : String → List Expr → Fallible Expr) (x : String) : Expr → Fallible Expr
  | .const _ => .ok .zero
  | .var name => .ok (if name = x then .one else .zero)
  | .bin op u v => do
    let du ← deriveGiven call x u
    let dv ← deriveGiven call x v
    return op.derivative u v du dv
  | .neg u => do
    let du ← deriveGiven call x u
    return .neg du
  | .call name arguments => call name arguments

section

variable {Scope : Type} [Scopes Scope]

def ruleUnder (c : Scope) (name : String) : Fallible (Rule Scope) :=
  match Scopes.rule? c name with
  | some rule => .ok rule
  | none => .error (.undifferentiable name)

/-- The derivative of an expression under a scope, with rules nested to a limit. The requests of a
rule are answered under the scope that they bring, or else under the same one. -/
def deriveUnder : Nat → Scope → String → Expr → Fallible Expr
  | 0, _, x => deriveGiven (fun _ _ => .error (.wordless .rulesTooDeep)) x
  | limit + 1, c, x =>
    deriveGiven (fun name arguments => do
      let rule ← ruleUnder c name
      (rule arguments x).settle fun scope e y => deriveUnder limit (scope.getD c) y e) x

section

variable (limit : Nat) (c : Scope) (x : String)

theorem deriveUnder_const (value : Float) : deriveUnder limit c x (.const value) = .ok .zero := by
  cases limit <;> rfl

theorem deriveUnder_var (name : String) :
    deriveUnder limit c x (.var name) = .ok (if name = x then .one else .zero) := by
  cases limit <;> rfl

theorem deriveUnder_bin (op : BinaryOp) (u v : Expr) :
    deriveUnder limit c x (.bin op u v) = do
      let du ← deriveUnder limit c x u
      let dv ← deriveUnder limit c x v
      return op.derivative u v du dv := by
  cases limit <;> rfl

theorem deriveUnder_neg (u : Expr) :
    deriveUnder limit c x (.neg u) = do
      let du ← deriveUnder limit c x u
      return .neg du := by
  cases limit <;> rfl

theorem deriveUnder_call (name : String) (arguments : List Expr) :
    deriveUnder (limit + 1) c x (.call name arguments) =
      ruleUnder c name >>= fun rule =>
        (rule arguments x).settle fun scope e y => deriveUnder limit (scope.getD c) y e :=
  rfl

end

/-! ### Without a limit -/

mutual

/-- What the derivation of an expression under a scope ends in, however deep its rules nest. -/
inductive Derives : Scope → String → Expr → Fallible Expr → Prop
  | const (c : Scope) (x : String) (value : Float) : Derives c x (.const value) (.ok .zero)
  | var (c : Scope) (x name : String) :
      Derives c x (.var name) (.ok (if name = x then .one else .zero))
  | bin {c : Scope} {x : String} (op : BinaryOp) {u v du dv : Expr}
      (first : Derives c x u (.ok du)) (second : Derives c x v (.ok dv)) :
      Derives c x (.bin op u v) (.ok (op.derivative u v du dv))
  | binLeft {c : Scope} {x : String} (op : BinaryOp) {u : Expr} (v : Expr) {failure : Failure}
      (first : Derives c x u (.error failure)) : Derives c x (.bin op u v) (.error failure)
  | binRight {c : Scope} {x : String} (op : BinaryOp) {u v du : Expr} {failure : Failure}
      (first : Derives c x u (.ok du)) (second : Derives c x v (.error failure)) :
      Derives c x (.bin op u v) (.error failure)
  | neg {c : Scope} {x : String} {u du : Expr} (operand : Derives c x u (.ok du)) :
      Derives c x (.neg u) (.ok (.neg du))
  | negOperand {c : Scope} {x : String} {u : Expr} {failure : Failure}
      (operand : Derives c x u (.error failure)) : Derives c x (.neg u) (.error failure)
  | unknown {c : Scope} (x : String) {name : String} (arguments : List Expr) {failure : Failure}
      (none : ruleUnder c name = .error failure) :
      Derives c x (.call name arguments) (.error failure)
  | call {c : Scope} {x name : String} {arguments : List Expr} {rule : Rule Scope}
      {answer : Fallible Expr} (found : ruleUnder c name = .ok rule)
      (followed : Follows c (rule arguments x) answer) :
      Derives c x (.call name arguments) answer

/-- What a recipe ends in whose requests are answered under a scope. -/
inductive Follows : Scope → Recipe Scope → Fallible Expr → Prop
  | done (c : Scope) (result : Expr) : Follows c (.done result) (.ok result)
  | fail (c : Scope) (failure : Failure) : Follows c (.fail failure) (.error failure)
  | derive {c : Scope} {e : Expr} {y : String} {scope : Option Scope}
      {next : Fallible Expr → Recipe Scope} {asked answer : Fallible Expr}
      (request : Derives (scope.getD c) y e asked) (more : Follows c (next asked) answer) :
      Follows c (.derive e y scope next) answer

end

/-- From some limit on, all limits give the same answer. -/
def Eventually (answer : Nat → Fallible Expr) (given : Fallible Expr) : Prop :=
  ∃ bound, ∀ limit, bound ≤ limit → answer limit = given

/-- A large enough limit makes no difference. -/
theorem eventually_of_derives {c : Scope} {x : String} {e : Expr} {answer : Fallible Expr}
    (derives : Derives c x e answer) : Eventually (fun limit => deriveUnder limit c x e) answer := by
  refine Derives.rec
    (motive_1 := fun c x e answer _ => Eventually (fun limit => deriveUnder limit c x e) answer)
    (motive_2 := fun c recipe answer _ => Eventually (fun limit =>
      recipe.settle fun scope e y => deriveUnder limit (scope.getD c) y e) answer)
    ?const ?var ?bin ?binLeft ?binRight ?neg ?negOperand ?unknown ?call ?done ?fail ?derive derives
  case const =>
    intro c x value
    exact ⟨0, fun limit _ => deriveUnder_const limit c x value⟩
  case var =>
    intro c x name
    exact ⟨0, fun limit _ => deriveUnder_var limit c x name⟩
  case bin =>
    rintro c x op u v du dv - - ⟨first, derivesU⟩ ⟨second, derivesV⟩
    refine ⟨max first second, fun limit enough => ?_⟩
    dsimp only at derivesU derivesV ⊢
    rw [deriveUnder_bin, derivesU limit (by omega), derivesV limit (by omega)]
    rfl
  case binLeft =>
    rintro c x op u v failure - ⟨first, fails⟩
    refine ⟨first, fun limit enough => ?_⟩
    dsimp only at fails ⊢
    rw [deriveUnder_bin, fails limit enough]
    rfl
  case binRight =>
    rintro c x op u v du failure - - ⟨first, derivesU⟩ ⟨second, fails⟩
    refine ⟨max first second, fun limit enough => ?_⟩
    dsimp only at derivesU fails ⊢
    rw [deriveUnder_bin, derivesU limit (by omega), fails limit (by omega)]
    rfl
  case neg =>
    rintro c x u du - ⟨bound, derivesU⟩
    refine ⟨bound, fun limit enough => ?_⟩
    dsimp only at derivesU ⊢
    rw [deriveUnder_neg, derivesU limit enough]
    rfl
  case negOperand =>
    rintro c x u failure - ⟨bound, fails⟩
    refine ⟨bound, fun limit enough => ?_⟩
    dsimp only at fails ⊢
    rw [deriveUnder_neg, fails limit enough]
    rfl
  case unknown =>
    intro c x name arguments failure none
    refine ⟨1, fun limit enough => ?_⟩
    obtain ⟨below, rfl⟩ := Nat.exists_eq_add_of_le' enough
    dsimp only
    rw [deriveUnder_call, none]
    rfl
  case call =>
    rintro c x name arguments rule answer found - ⟨bound, settles⟩
    refine ⟨bound + 1, fun limit enough => ?_⟩
    obtain ⟨below, rfl⟩ : ∃ below, limit = below + 1 := ⟨limit - 1, by omega⟩
    dsimp only at settles ⊢
    rw [deriveUnder_call, found]
    exact settles below (by omega)
  case done =>
    intro c result
    exact ⟨0, fun limit _ => rfl⟩
  case fail =>
    intro c failure
    exact ⟨0, fun limit _ => rfl⟩
  case derive =>
    rintro c e y scope next asked answer - - ⟨first, asks⟩ ⟨second, settles⟩
    refine ⟨max first second, fun limit enough => ?_⟩
    dsimp only at asks settles ⊢
    rw [Recipe.settle, asks limit (by omega)]
    exact settles limit (by omega)

end

end Expr

/-! ### Computations that only read the scope in force -/

namespace Derivation

variable {Scope α β : Type}

theorem runWith_bind (d : Derivation Scope α) (next : α → Derivation Scope β)
    (inForce : Option Scope) :
    (d >>= next).runWith inForce =
      match d.runWith inForce with
      | (.ok a, later) => (next a).runWith later
      | (.error failure, later) => (.error failure, later) := by
  change (ExceptT.bindCont next (d inForce).1) (d inForce).2 = _
  change _ = match d inForce with
      | (.ok a, later) => next a later
      | (.error failure, later) => (.error failure, later)
  cases d inForce with
  | mk answer later => cases answer <;> rfl

variable [Scopes Scope]

/-- A computation answers by the scope in force, and leaves it in force. -/
def Reads (d : Derivation Scope α) (answer : Scope → Fallible α) : Prop :=
  ∀ inForce, d.runWith inForce = (answer (inForce.getD Scopes.outermost), inForce)

theorem reads_pure (a : α) : Reads (pure a : Derivation Scope α) fun _ => .ok a := fun _ => rfl

theorem reads_fail (failure : Failure) :
    Reads (fail failure : Derivation Scope α) fun _ => .error failure := fun _ => rfl

theorem reads_scope : Reads (scope : Derivation Scope Scope) .ok := fun _ => rfl

theorem Reads.bind {d : Derivation Scope α} {next : α → Derivation Scope β}
    {answer : Scope → Fallible α} {more : α → Scope → Fallible β} (first : d.Reads answer)
    (second : ∀ a, (next a).Reads (more a)) :
    (d >>= next).Reads fun c => answer c >>= fun a => more a c := by
  intro inForce
  rw [runWith_bind, first inForce]
  dsimp only
  cases answer (inForce.getD Scopes.outermost) with
  | ok a => exact second a inForce
  | error failure => rfl

theorem Reads.attempt {d : Derivation Scope α} {answer : Scope → Fallible α} (reads : d.Reads answer) :
    d.attempt.Reads fun c => .ok (answer c) := by
  intro inForce
  change (Except.ok (d.runWith inForce).1, (d.runWith inForce).2) = _
  rw [reads inForce]

/-- A scope of its own is in force while a computation runs, and no longer. -/
theorem Reads.within {d : Derivation Scope α} {answer : Scope → Fallible α} (reads : d.Reads answer)
    (scope : Option Scope) : (within scope d).Reads fun c => answer (scope.getD c) := by
  intro inForce
  cases scope with
  | none => exact reads inForce
  | some c =>
      change ((d.runWith (some c)).1, inForce) = _
      rw [reads (some c)]
      rfl

end Derivation

section

variable {Scope : Type} [Scopes Scope]

/-- A recipe reads the scope in force if the answers to its requests do. -/
theorem Recipe.reads_follow {answer : Option Scope → Expr → String → Derivation Scope Expr}
    {pureAnswer : Scope → Option Scope → Expr → String → Fallible Expr}
    (reads : ∀ scope e y, (answer scope e y).Reads fun c => pureAnswer c scope e y)
    (recipe : Recipe Scope) :
    (recipe.follow answer).Reads fun c => recipe.settle (pureAnswer c) := by
  induction recipe with
  | done result => exact Derivation.reads_pure result
  | fail failure => exact Derivation.reads_fail failure
  | derive e y scope next ih => exact (reads scope e y).attempt.bind ih

namespace Expr

open Formula.Derivation (Reads)

theorem reads_deriveWith {call : String → List Expr → Derivation Scope Expr}
    {pureCall : Scope → String → List Expr → Fallible Expr} (x : String)
    (reads : ∀ name arguments, (call name arguments).Reads fun c => pureCall c name arguments)
    (e : Expr) : (deriveWith call x e).Reads fun c => deriveGiven (pureCall c) x e := by
  induction e using Expr.induction with
  | const value => exact Derivation.reads_pure _
  | var name => exact Derivation.reads_pure _
  | bin op u v first second =>
      apply first.bind
      intro du
      apply second.bind
      intro dv
      exact Derivation.reads_pure _
  | neg u ih =>
      apply ih.bind
      intro du
      exact Derivation.reads_pure _
  | call name arguments _ => exact reads name arguments

theorem reads_ruleOf (name : String) :
    (ruleOf name : Derivation Scope (Rule Scope)).Reads fun c => ruleUnder c name := by
  intro inForce
  rw [ruleOf, Derivation.runWith_bind, Derivation.reads_scope]
  dsimp only
  rw [ruleUnder]
  cases Scopes.rule? (inForce.getD Scopes.outermost) name <;> rfl

/-- A derivation answers as if its scope were handed down to it, and leaves the scope in force. -/
theorem reads_derive (limit : Nat) (x : String) (e : Expr) :
    (derive limit x e : Derivation Scope Expr).Reads fun c => deriveUnder limit c x e := by
  induction limit generalizing x e with
  | zero =>
      apply reads_deriveWith
      intro name arguments
      exact Derivation.reads_fail _
  | succ limit ih =>
      apply reads_deriveWith
      intro name arguments
      apply (reads_ruleOf name).bind
      intro rule
      -- A request runs one limit lower, and its own context is gone again when the recipe goes on.
      apply Recipe.reads_follow
      intro scope e y
      exact (ih y e).within scope

end Expr

end

/-! ### Derivations one after the other -/

structure Request (Scope : Type) where
  e : Expr
  x : String
  scope : Option Scope

section

variable {Scope : Type} [Scopes Scope]

namespace Request

def answer (r : Request Scope) : Derivation Scope Expr :=
  Expr.deriveIn r.e.ruleLimit r.scope r.x r.e

/-- Answer requests one after the other. Each starts with the scope that the one before left in
force, and a failure does not end the row. -/
def answerAll : List (Request Scope) → Derivation Scope (List (Fallible Expr))
  | [] => pure []
  | r :: rest => do
    let first ← r.answer.attempt
    let others ← answerAll rest
    return first :: others

end Request

namespace Expr

open Formula.Derivation (Reads)

theorem reads_deriveIn (limit : Nat) (scope : Option Scope) (x : String) (e : Expr) :
    (deriveIn limit scope x e).Reads fun c => deriveUnder limit (scope.getD c) x e :=
  (reads_derive limit x e).within scope

/-- Each of several requests is answered under the scope it brings or else the one that was in force
before the first of them. -/
theorem reads_answerAll (requests : List (Request Scope)) :
    (Request.answerAll requests).Reads fun c =>
      .ok (requests.map fun r => deriveUnder r.e.ruleLimit (r.scope.getD c) r.x r.e) := by
  induction requests with
  | nil => exact Derivation.reads_pure _
  | cons r rest ih =>
      have alone := (reads_deriveIn r.e.ruleLimit r.scope r.x r.e).attempt
      exact alone.bind fun first => ih.bind fun others => Derivation.reads_pure (first :: others)

theorem runWith_answerAll (requests : List (Request Scope)) (inForce : Option Scope) :
    (Request.answerAll requests).runWith inForce =
      (.ok (requests.map fun r => (r.answer.runWith inForce).1), inForce) := by
  have alone : (requests.map fun r => (r.answer.runWith inForce).1) =
      requests.map fun r =>
        deriveUnder r.e.ruleLimit (r.scope.getD (inForce.getD Scopes.outermost)) r.x r.e := by
    apply List.map_congr_left
    intro r _
    exact congrArg Prod.fst (reads_deriveIn r.e.ruleLimit r.scope r.x r.e inForce)
  rw [alone]
  exact reads_answerAll requests inForce

theorem runWith_of_derives {scope : Option Scope} {x : String} {e : Expr} {inForce : Option Scope}
    {answer : Fallible Expr}
    (derives : Derives (scope.getD (inForce.getD Scopes.outermost)) x e answer) :
    ∃ bound, ∀ limit, bound ≤ limit →
      (deriveIn limit scope x e).runWith inForce = (answer, inForce) := by
  obtain ⟨bound, settled⟩ := eventually_of_derives derives
  refine ⟨bound, fun limit enough => ?_⟩
  rw [reads_deriveIn limit scope x e inForce]
  exact congrArg (·, inForce) (settled limit enough)

end Expr

end

/-! ### Contexts as scopes -/

namespace Expr

theorem ruleUnder_eq (c : Context) (name : String) :
    ruleUnder c name =
      match c.findFunction name with
      | some f =>
        match f.rule with
        | some rule => .ok rule
        | none => .error (.undifferentiable name)
      | none => .error (.undifferentiable name) := by
  rw [ruleUnder]
  simp only [Scopes.rule?]
  cases c.findFunction name with
  | none => rfl
  | some f => cases rule : f.rule <;> simp only [Option.bind_some, rule]

/-- A function of the context goes before the built-in one. -/
theorem ruleUnder_local (c : Context) (name : String) :
    ruleUnder c name =
      match (c.functions.get? name).or ((Builtin.ofName? name).map Builtin.definition) with
      | some f =>
        match f.rule with
        | some rule => .ok rule
        | none => .error (.undifferentiable name)
      | none => .error (.undifferentiable name) := by
  rw [ruleUnder_eq, Context.findFunction]
  cases c.functions.get? name <;> rfl

/-- A rule is that of a function of the context, or that of a built-in function which the context does
not hide. -/
theorem ruleUnder_cases {c : Context} {name : String} {rule : Rule Context}
    (found : ruleUnder c name = .ok rule) :
    (∃ f, c.functions.get? name = some f ∧ f.rule = some rule) ∨
      c.functions.get? name = none ∧ ∃ f, Builtin.ofName? name = some f ∧ rule = f.rule := by
  rw [ruleUnder_local] at found
  cases own : c.functions.get? name with
  | some f =>
      cases ofOwn : f.rule with
      | none => simp [own, ofOwn] at found
      | some other =>
          simp only [own, Option.some_or, ofOwn, Except.ok.injEq] at found
          exact .inl ⟨f, rfl, found ▸ ofOwn⟩
  | none =>
      cases known : Builtin.ofName? name with
      | none => simp [own, known] at found
      | some f =>
          simp only [own, known, Option.map_some, Option.none_or, Builtin.definition,
            Except.ok.injEq] at found
          exact .inr ⟨rfl, f, rfl, found.symm⟩

theorem differentiate_eq (e : Expr) (x : String) (scope : Option Context) :
    e.differentiate x scope = deriveUnder e.ruleLimit (scope.getD .empty) x e :=
  congrArg Prod.fst (reads_deriveIn e.ruleLimit scope x e none)

/-- Derivatives are what derivations give to which their context is handed down, and in a context its
functions go before the built-in ones. Contexts may be of any kind, such as names by which rules ask in
contexts that they are part of themselves. A derivation works under the context that it brings, or else
under the one in force when it starts. Whether it ends in a derivative or in a failure, the context in
force is then the one from before, and so requests in a row get the answers that each of them gets by
itself. The limit on nested rules only matters where it is reached: what a derivation ends in without a
limit is what it ends in under every large one. -/
theorem differentiate_scoped :
    (∀ (e : Expr) (x : String) (scope : Option Context),
      e.differentiate x scope = deriveUnder e.ruleLimit (scope.getD .empty) x e) ∧
    (∀ (c : Context) (name : String),
      ruleUnder c name =
        match (c.functions.get? name).or ((Builtin.ofName? name).map Builtin.definition) with
        | some f =>
          match f.rule with
          | some rule => .ok rule
          | none => .error (.undifferentiable name)
        | none => .error (.undifferentiable name)) ∧
    ∀ (Scope : Type) [Scopes Scope],
      (∀ (limit : Nat) (scope : Option Scope) (x : String) (e : Expr) (inForce : Option Scope),
        (deriveIn limit scope x e).runWith inForce =
          (deriveUnder limit (scope.getD (inForce.getD Scopes.outermost)) x e, inForce)) ∧
      (∀ (requests : List (Request Scope)) (inForce : Option Scope),
        (Request.answerAll requests).runWith inForce =
          (.ok (requests.map fun r => (r.answer.runWith inForce).1), inForce)) ∧
      ∀ (scope : Option Scope) (x : String) (e : Expr) (inForce : Option Scope)
        (answer : Fallible Expr),
        Derives (scope.getD (inForce.getD Scopes.outermost)) x e answer →
          ∃ bound, ∀ limit, bound ≤ limit →
            (deriveIn limit scope x e).runWith inForce = (answer, inForce) :=
  ⟨differentiate_eq, ruleUnder_local, fun _ _ =>
    ⟨reads_deriveIn, runWith_answerAll, fun _ _ _ _ _ derives => runWith_of_derives derives⟩⟩

/-- In a context with two functions, the first asks on in the context it is called in and so finds
the second. The second asks in a context without bindings and so does not find the first. -/
theorem differentiate_scoped_nested :
    let g : Function := ⟨"g", .variadic, Evaluator.last, some Rule.last, by decide⟩
    let h : Function := ⟨"h", .variadic, Evaluator.last, some Rule.isolated, by decide⟩
    let c := Context.mk .empty ((Table.empty.insert "g" g).insert "h" h)
    let inner : Expr := .call "g" [.call "h" [.var "x"]]
    let outer : Expr := .call "h" [.call "g" [.var "x"]]
    Derives c "x" inner (.ok .one) ∧ Derives c "x" outer (.error (.undifferentiable "g")) ∧
      (∃ bound, ∀ limit, bound ≤ limit →
        (deriveIn limit (some c) "x" inner).runWith none = (.ok .one, none)) ∧
      ∃ bound, ∀ limit, bound ≤ limit →
        (deriveIn limit none "x" outer).runWith (some c) =
          (.error (.undifferentiable "g"), some c) := by
  intro g h c inner outer
  have known : ruleUnder c "g" = .ok Rule.last := rfl
  have known' : ruleUnder c "h" = .ok Rule.isolated := rfl
  have unknown : ruleUnder Context.empty "g" = .error (.undifferentiable "g") := by rfl
  have asked : Derives c "x" (.call "h" [.var "x"]) (.ok .one) := by
    apply Derives.call known'
    exact .derive (.var Context.empty "x" "x") (.done c .one)
  have derives : Derives c "x" inner (.ok .one) := by
    apply Derives.call known
    exact .derive asked (.done c .one)
  have fails : Derives c "x" outer (.error (.undifferentiable "g")) := by
    apply Derives.call known'
    exact .derive (.unknown "x" [.var "x"] unknown) (.fail c (.undifferentiable "g"))
  obtain ⟨-, -, handed⟩ := differentiate_scoped
  obtain ⟨-, -, settles⟩ := handed Context
  exact ⟨derives, fails, settles (some c) "x" inner none _ derives,
    settles none "x" outer (some c) _ fails⟩

/-- A rule that asks in the scope it is itself part of. -/
example :
    let _ : Scopes Bool := ⟨false, fun here name =>
      if here && name == "f" then some fun us x => .derivative (us.headD .zero) x (some true) .done
      else none⟩
    (deriveIn 2 (some true) "x" (.call "f" [.call "f" [.var "x"]])).runWith none = (.ok .one, none) :=
  rfl

end Expr

end Formula
