import Formula.Proofs.Expr.Nodes
import Formula.Proofs.Scan
import Formula.Proofs.Yard.Folding
import Formula.Proofs.Yard.Simulation

/-!
The names in a parsed expression. The scanner gives identifiers only to names of the right form, and
the yard takes the names of variables and functions from the tokens and puts numbers for the others.
-/

set_option autoImplicit false

namespace Formula

/-! ### Identifiers in a text -/

namespace Token

/-- A token that names something has a name of the right form. -/
def IsNamed (t : Token) : Prop := ∀ name, t.lexeme = .identifier name → isIdentifier name = true

theorem ofSign?_ne_identifier (c : Char) (name : String) :
    Lexeme.ofSign? c ≠ some (.identifier name) := by
  intro sign
  unfold Lexeme.ofSign? at sign
  split at sign
  · cases sign
  · split at sign
    · cases sign
    · split at sign
      · cases sign
      · obtain ⟨op, -, operator⟩ := Option.map_eq_some_iff.1 sign
        cases operator

theorem followedBy_ok {t : Token} {rest : Except Malformation (List Token)} {tokens : List Token}
    (scanned : followedBy t rest = .ok tokens) : ∃ more, rest = .ok more ∧ tokens = t :: more := by
  cases rest with
  | error cause => cases scanned
  | ok more =>
      cases scanned
      exact ⟨more, rfl, rfl⟩

theorem isNamed_of_scanFrom (position : Nat) (cs : List Char) (tokens : List Token)
    (scanned : scanFrom position cs = .ok tokens) : ∀ t ∈ tokens, t.IsNamed := by
  induction position, cs using scanFrom.induct generalizing tokens with
  | case1 position =>
      rw [scanFrom] at scanned
      cases scanned
      exact List.forall_mem_nil _
  | case2 position c rest blank ih =>
      rw [scanFrom, if_pos blank] at scanned
      exact ih tokens scanned
  | case3 position c rest notBlank part run number ih =>
      rw [scanFrom, if_neg notBlank, if_pos part] at scanned
      simp only [run] at number
      simp only [number, ↓reduceIte] at scanned
      obtain ⟨more, following, rfl⟩ := followedBy_ok scanned
      refine List.forall_mem_cons.2 ⟨?_, ih more following⟩
      intro name named
      cases named
  | case4 position c rest notBlank part run malformed =>
      rw [scanFrom, if_neg notBlank, if_pos part] at scanned
      simp only [run] at malformed
      simp only [malformed, Bool.false_eq_true, ↓reduceIte] at scanned
      cases scanned
  | case5 position c rest notBlank notPart start run ih =>
      rw [scanFrom, if_neg notBlank, if_neg notPart, if_pos start] at scanned
      obtain ⟨more, following, rfl⟩ := followedBy_ok scanned
      refine List.forall_mem_cons.2 ⟨?_, ih more following⟩
      intro name named
      cases named
      exact isIdentifier_run start rest
  | case6 position c rest notBlank notPart notStart lexeme sign ih =>
      rw [scanFrom, if_neg notBlank, if_neg notPart, if_neg notStart] at scanned
      simp only [sign] at scanned
      obtain ⟨more, following, rfl⟩ := followedBy_ok scanned
      refine List.forall_mem_cons.2 ⟨?_, ih more following⟩
      intro name named
      exact absurd (named ▸ sign) (ofSign?_ne_identifier c name)
  | case7 position c rest notBlank notPart notStart illegal =>
      rw [scanFrom, if_neg notBlank, if_neg notPart, if_neg notStart] at scanned
      simp only [illegal] at scanned
      cases scanned

end Token

/-! ### Names in the yard -/

/-- A node whose name is of the right form, and that of no number if it is a variable. -/
def Expr.IsNamed : Expr → Prop
  | .var name => Token.isIdentifier name = true ∧ reserved? name = none
  | .call name _ => Token.isIdentifier name = true
  | .const _ | .bin .. | .neg _ => True

def AllNamed (es : List Expr) : Prop := ∀ e ∈ es, e.Everywhere Expr.IsNamed

theorem allNamed_cons {e : Expr} {es : List Expr} :
    AllNamed (e :: es) ↔ e.Everywhere Expr.IsNamed ∧ AllNamed es :=
  List.forall_mem_cons

theorem named_ofIdentifier {name : String} (legal : Token.isIdentifier name = true) :
    (Expr.ofIdentifier name).Everywhere Expr.IsNamed := by
  rw [Expr.ofIdentifier]
  split
  · exact (Expr.everywhere_const _).2 trivial
  · next free => exact (Expr.everywhere_var _).2 ⟨legal, free⟩

namespace Operator

theorem allNamed_applyTo {op : Operator} {parts result : List Expr}
    (applied : op.applyTo parts = some result) (named : AllNamed parts) : AllNamed result := by
  obtain ⟨a, rest, -, rfl, rfl⟩ | ⟨o, a, b, rest, -, rfl, rfl⟩ := applyTo_cases applied
  · rw [allNamed_cons] at named ⊢
    exact ⟨(Expr.everywhere_neg a).2 ⟨trivial, named.1⟩, named.2⟩
  · rw [allNamed_cons, allNamed_cons] at named
    rw [allNamed_cons]
    exact ⟨(Expr.everywhere_bin o a b).2 ⟨trivial, named.2.1, named.1⟩, named.2.2⟩

theorem allNamed_foldAll {ops : List Operator} {parts result : List Expr}
    (folded : foldAll ops parts = some result) (named : AllNamed parts) : AllNamed result := by
  induction ops generalizing parts with
  | nil =>
      cases folded
      exact named
  | cons op ops ih =>
      obtain ⟨between, applied, rest⟩ := Option.bind_eq_some_iff.1 folded
      exact ih rest (allNamed_applyTo applied named)

theorem allNamed_foldPreceding {incoming : Operator} {ops waiting : List Operator}
    {parts result : List Expr}
    (folded : incoming.foldPreceding ops parts = some (waiting, result)) (named : AllNamed parts) :
    AllNamed result := by
  obtain ⟨front, -, -, -, applied⟩ := foldAll_of_foldPreceding folded
  exact allNamed_foldAll applied named

end Operator

namespace Yard

/-- The name of the function that an open parenthesis calls. -/
def Opening.called? : Opening → Option String
  | .group _ => none
  | .call name _ _ _ => some name

namespace Levels

/-- All names in the levels are of the right form. -/
structure Named (s : Levels) : Prop where
  inner : AllNamed s.inner.parts
  outer : ∀ l ∈ s.outer, (∀ name ∈ l.1.called?, Token.isIdentifier name = true) ∧ AllNamed l.2.parts
  callee : ∀ c ∈ s.callee, Token.isIdentifier c.1 = true

variable {limit : Option Int} {previous : Option Lexeme} {opensNext : Bool} {s s' : Levels}

theorem named_empty : Named {} :=
  ⟨List.forall_mem_nil _, List.forall_mem_nil _, by intro _ none; cases none⟩

theorem Step.named {t : Token} (step : Step limit previous opensNext s t s') (legal : t.IsNamed)
    (named : s.Named) : s'.Named := by
  obtain ⟨inner, outer, callee⟩ := named
  cases step with
  | number _ text position =>
      exact ⟨allNamed_cons.2 ⟨(Expr.everywhere_const _).2 trivial, inner⟩, outer, callee⟩
  | uncalled _ name position stands =>
      exact ⟨allNamed_cons.2 ⟨named_ofIdentifier (legal name rfl), inner⟩, outer, callee⟩
  | called _ name position opens =>
      refine ⟨inner, outer, ?_⟩
      intro c inside
      cases inside
      exact legal name rfl
  | operator _ op position folded =>
      exact ⟨Operator.allNamed_foldPreceding folded inner, outer, callee⟩
  | opening _ position room =>
      refine ⟨named_empty.inner, List.forall_mem_cons.2 ⟨⟨?_, inner⟩, outer⟩, named_empty.callee⟩
      intro name called
      cases waiting : s.callee with
      | none =>
          rw [waiting] at called
          cases called
      | some c =>
          rw [waiting] at called
          cases called
          exact callee c waiting
  | comma level around rest waiting name place opened commas position folded filled =>
      obtain ⟨first, more⟩ := List.forall_mem_cons.1 outer
      exact ⟨Operator.allNamed_foldAll folded inner, List.forall_mem_cons.2 ⟨first, more⟩,
        named_empty.callee⟩
  | closeGroup level around rest waiting opened position folded =>
      obtain ⟨first, more⟩ := List.forall_mem_cons.1 outer
      have closed := Operator.allNamed_foldAll folded inner
      exact ⟨allNamed_cons.2 ⟨(allNamed_cons.1 closed).1, first.2⟩, more, named_empty.callee⟩
  | closeCall level around rest waiting name place opened commas position folded filled =>
      obtain ⟨first, more⟩ := List.forall_mem_cons.1 outer
      have closed := Operator.allNamed_foldAll folded inner
      refine ⟨allNamed_cons.2 ⟨(Expr.everywhere_call _ _).2 ⟨first.1 name rfl, ?_⟩, first.2⟩, more,
        named_empty.callee⟩
      intro a inside
      exact closed a (List.mem_reverse.1 inside)

theorem named_of_acceptAll {tokens : List Token} (legal : ∀ t ∈ tokens, t.IsNamed)
    (named : s.Named) (accepted : s.acceptAll limit previous tokens = .ok s') : s'.Named := by
  induction tokens generalizing previous s with
  | nil =>
      cases accepted
      exact named
  | cons t rest ih =>
      obtain ⟨next, step, run⟩ := acceptAll_cons_ok accepted
      exact ih (fun u inside => legal u (List.mem_cons_of_mem t inside))
        (step.named (legal t List.mem_cons_self) named) run

theorem named_of_finish {position : Nat} {e : Expr} (named : s.Named)
    (finished : s.finish position = .ok e) : e.Everywhere Expr.IsNamed :=
  (allNamed_cons.1 (Operator.allNamed_foldAll (finish_ok finished).1 named.inner)).1

end Levels

end Yard

theorem named_of_ofTokens {limit : Option Int} {tokens : List Token} {e : Expr}
    (legal : ∀ t ∈ tokens, t.IsNamed) (parsed : Expr.ofTokens limit tokens = .ok e) :
    e.Everywhere Expr.IsNamed := by
  rw [Yard.Levels.ofTokens_eq_parse] at parsed
  obtain ⟨s, run, finished⟩ := Yard.Levels.parse_ok parsed
  have named := Yard.Levels.named_of_acceptAll legal Yard.Levels.named_empty run
  exact Yard.Levels.named_of_finish named finished

end Formula
