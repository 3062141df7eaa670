import Formula.Proofs.Derivative.Scoping

/-!
Room for nested rules. Rules that hand a lack of room on, as all built-in rules do, give the same answer
with more room, unless room was lacking. A derivative that is found is then the derivative with any
greater limit.
-/

set_option autoImplicit false

namespace Formula

/-- The failure of a derivation whose rules nest too deep. -/
def Failure.lacksRoom : Failure := .wordless .rulesTooDeep

/-- A recipe hands the lack of room for a request on, and makes its requests in contexts of a kind. -/
inductive Recipe.HandsOn (kind : Context → Prop) : Recipe Context → Prop
  | done (result : Expr) : HandsOn kind (.done result)
  | fail (failure : Failure) : HandsOn kind (.fail failure)
  | derive {e : Expr} {y : String} {scope : Option Context}
      {next : Fallible Expr → Recipe Context} (inside : ∀ c, scope = some c → kind c)
      (stops : next (.error .lacksRoom) = .fail .lacksRoom)
      (more : ∀ answer, HandsOn kind (next answer)) : HandsOn kind (.derive e y scope next)

/-- The rules of the functions of a context hand the lack of room on, and so do those of all contexts
that they bring. -/
def Context.RulesHandOn (c : Context) : Prop :=
  ∃ kind : Context → Prop, kind c ∧ ∀ c', kind c' → ∀ name (f : Function) rule,
    c'.functions.get? name = some f → f.rule = some rule →
      ∀ arguments x, (rule arguments x).HandsOn kind

namespace Recipe

variable {kind : Context → Prop}

theorem handsOn_derivative (u : Expr) (x : String) {next : Expr → Recipe Context}
    (more : ∀ du, (next du).HandsOn kind) : (Recipe.derivative u x none next).HandsOn kind := by
  apply HandsOn.derive
  · intro c none
    cases none
  · rfl
  · intro answer
    cases answer with
    | ok du => exact more du
    | error failure => exact .fail failure

end Recipe

theorem Builtin.handsOn_rule (kind : Context → Prop) (f : Builtin) (arguments : List Expr)
    (x : String) : Recipe.HandsOn kind (f.rule arguments x) := by
  have chained (outer : Expr → Expr → Expr) : (Builtin.chain outer arguments x).HandsOn kind := by
    cases arguments with
    | nil => exact .fail _
    | cons u rest => exact Recipe.handsOn_derivative u x fun du => .done _
  cases f with
  | max =>
      match arguments with
      | [a, b] =>
          exact Recipe.handsOn_derivative a x fun da =>
            Recipe.handsOn_derivative b x fun db => .done _
      | [] | [_] | _ :: _ :: _ :: _ => exact .fail _
  | sign | heaviside => exact .done _
  | sin | cos | exp | ln | abs => exact chained _

namespace Expr

/-- An answer stays the same, unless room was lacking. -/
def Stays (answer later : Fallible Expr) : Prop :=
  answer ≠ .error .lacksRoom → later = answer

theorem stays_refl (answer : Fallible Expr) : Stays answer answer := fun _ => rfl

theorem stays_lacksRoom (later : Fallible Expr) : Stays (.error .lacksRoom) later :=
  fun room => absurd rfl room

theorem Stays.bind {answer later : Fallible Expr} {next next' : Expr → Fallible Expr}
    (first : Stays answer later) (second : ∀ d, Stays (next d) (next' d)) :
    Stays (answer >>= next) (later >>= next') := by
  cases answer with
  | ok d =>
      rw [first (by simp)]
      exact second d
  | error failure =>
      intro room
      rw [first room]
      rfl

/-- A recipe that hands the lack of room on gives the answer that its requests give. -/
theorem stays_settle {kind : Context → Prop}
    {answer later : Option Context → Expr → String → Fallible Expr}
    (asked : ∀ scope e y, (∀ c, scope = some c → kind c) →
      Stays (answer scope e y) (later scope e y))
    {recipe : Recipe Context} (handsOn : recipe.HandsOn kind) :
    Stays (recipe.settle answer) (recipe.settle later) := by
  induction handsOn with
  | done result => exact stays_refl _
  | fail failure => exact stays_refl _
  | @derive e y scope next inside stops more ih =>
      rw [Recipe.settle, Recipe.settle]
      by_cases lacking : answer scope e y = .error .lacksRoom
      · rw [lacking, stops]
        exact stays_lacksRoom _
      · rw [asked scope e y inside lacking]
        exact ih _

theorem stays_deriveGiven {call later : String → List Expr → Fallible Expr} (x : String)
    (stays : ∀ name arguments, Stays (call name arguments) (later name arguments)) (e : Expr) :
    Stays (deriveGiven call x e) (deriveGiven later x e) := by
  induction e using Expr.induction with
  | const value => exact stays_refl _
  | var name => exact stays_refl _
  | bin op u v first second =>
      apply first.bind
      intro du
      apply second.bind
      intro dv
      exact stays_refl _
  | neg u ih =>
      apply ih.bind
      intro du
      exact stays_refl _
  | call name arguments _ => exact stays name arguments

/-- With more room a derivation gives the same answer, unless room was lacking. -/
theorem stays_deriveUnder {kind : Context → Prop}
    (handOn : ∀ c, kind c → ∀ name rule, ruleUnder c name = .ok rule →
      ∀ arguments x, (rule arguments x).HandsOn kind)
    {limit limit' : Nat} (more : limit ≤ limit') {c : Context} (inside : kind c) (x : String)
    (e : Expr) : Stays (deriveUnder limit c x e) (deriveUnder limit' c x e) := by
  induction limit generalizing limit' c x e with
  | zero =>
      cases limit' with
      | zero => exact stays_refl _
      | succ limit' => exact stays_deriveGiven x (fun _ _ => stays_lacksRoom _) e
  | succ limit ih =>
      obtain ⟨above, rfl⟩ : ∃ above, limit' = above + 1 := ⟨limit' - 1, by omega⟩
      have smaller : limit ≤ above := by omega
      apply stays_deriveGiven
      intro name arguments
      cases found : ruleUnder c name with
      | error failure => exact stays_refl _
      | ok rule =>
          apply stays_settle _ (handOn c inside name rule found arguments x)
          intro scope f y brought
          apply ih smaller
          -- A request without a context of its own stays in the one of the call.
          cases scope with
          | none => exact inside
          | some own => exact brought own rfl

/-- The derivative of an expression under every limit that leaves it no less room than its own. -/
def HasDerivative (scope : Option Context) (x : String) (e d : Expr) : Prop :=
  ∀ limit, e.ruleLimit ≤ limit → ((deriveIn limit scope x e).runWith none).1 = .ok d

theorem hasDerivative_iff {scope : Option Context} {x : String} {e d : Expr} :
    HasDerivative scope x e d ↔
      ∀ limit, e.ruleLimit ≤ limit → deriveUnder limit (scope.getD .empty) x e = .ok d := by
  have answers (limit : Nat) : ((deriveIn limit scope x e).runWith none).1 =
      deriveUnder limit (scope.getD .empty) x e :=
    congrArg Prod.fst (reads_deriveIn limit scope x e none)
  simp only [HasDerivative, answers]

theorem HasDerivative.differentiate {scope : Option Context} {x : String} {e d : Expr}
    (derivative : HasDerivative scope x e d) : e.differentiate x scope = .ok d :=
  derivative e.ruleLimit (Nat.le_refl _)

/-- Where rules hand the lack of room on, a derivative that is found is the derivative. -/
theorem hasDerivative_of_differentiate {scope : Option Context} {x : String} {e d : Expr}
    (handOn : (scope.getD .empty).RulesHandOn) (derives : e.differentiate x scope = .ok d) :
    HasDerivative scope x e d := by
  obtain ⟨kind, inside, own⟩ := handOn
  have rules : ∀ c, kind c → ∀ name rule, ruleUnder c name = .ok rule →
      ∀ arguments y, (rule arguments y).HandsOn kind := by
    intro c within name rule found arguments y
    rcases ruleUnder_cases found with ⟨f, bound, ofOwn⟩ | ⟨-, f, -, rfl⟩
    · exact own c within name f rule bound ofOwn arguments y
    · exact f.handsOn_rule kind arguments y
  rw [hasDerivative_iff]
  intro limit enough
  rw [differentiate_eq] at derives
  have stays := stays_deriveUnder rules enough inside x e
  rw [derives] at stays
  exact stays (by simp)

end Expr

end Formula
