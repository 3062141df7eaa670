import Formula.Parse
import Formula.Proofs.Expr.Nodes
import Formula.Proofs.Yard.Limit

/-!
The limit of a parse. One number bounds two things at two times: how many parentheses are open at once
while the tokens are taken in, and how deep the expression is in the end. It has no other effect, so a
text that is parsed at all is parsed to the same expression under every limit that does not reject it.
-/

set_option autoImplicit false

namespace Formula.Expr

theorem parseRaw_eq_ok {limit : Option Int} {text : String} {e : Expr} :
    parseRaw limit text = .ok e ↔ ∃ ts, tokens text = .ok ts ∧ ofTokens limit ts = .ok e := by
  rw [parseRaw]
  cases tokens text with
  | error failure => simp [bind, Except.bind]
  | ok ts => simp [bind, Except.bind]

/-- A limit that allows for the depth of an expression is natural, and then it keeps a row from writing
the expression only if the parentheses of the row are nested too deep. -/
theorem ofTokens_limit_iff {limit : Int} {e : Expr} (shallow : (e.depth : Int) ≤ limit)
    (ts : List Token) :
    ofTokens (some limit) ts = .ok e ↔
      ofTokens none ts = .ok e ∧ (Lexeme.nesting (ts.map Token.lexeme) : Int) ≤ limit := by
  have natural : 0 ≤ limit := by omega
  rw [Yard.Levels.ofTokens_eq_parse, Yard.Levels.ofTokens_eq_parse]
  exact Yard.Levels.parse_limit_iff natural ts e

/-- What a text is parsed to, the limit taken apart into a bound on the parentheses and one on the
depth. -/
theorem parse_eq_ok_iff_bounded {strict : Bool} {level : Level} {limit : Int} {text : String}
    {t : Expr} :
    (parse strict level limit text).value = .ok t ↔
      ∃ ts e, tokens text = .ok ts ∧ ofTokens none ts = .ok e ∧
        (Lexeme.nesting (ts.map Token.lexeme) : Int) ≤ limit ∧ (e.depth : Int) ≤ limit ∧
        t = (simplify strict level e).tree := by
  rw [parse_eq_ok]
  constructor
  · rintro ⟨e, raw, checked, simplified⟩
    obtain ⟨ts, scanned, accepted⟩ := parseRaw_eq_ok.1 raw
    have shallow := (checkDepth_eq_ok_iff limit e).1 checked
    obtain ⟨unlimited, nested⟩ := (ofTokens_limit_iff shallow ts).1 accepted
    exact ⟨ts, e, scanned, unlimited, nested, shallow, simplified⟩
  · rintro ⟨ts, e, scanned, unlimited, nested, shallow, simplified⟩
    have accepted := (ofTokens_limit_iff shallow ts).2 ⟨unlimited, nested⟩
    exact ⟨e, parseRaw_eq_ok.2 ⟨ts, scanned, accepted⟩, (checkDepth_eq_ok_iff limit e).2 shallow,
      simplified⟩

/-- A text is parsed under a limit exactly if its tokens are accepted without one, their parentheses
are not nested deeper than the limit, and the expression that they write is not deeper either. The
result is the simplification of that expression whatever the limit is, so that a larger limit gives
the same one. -/
theorem parse_under_limit (strict : Bool) (level : Level) (limit : Int) (text : String) (t : Expr) :
    ((parse strict level limit text).value = .ok t ↔
      ∃ ts e, tokens text = .ok ts ∧ ofTokens none ts = .ok e ∧
        (Lexeme.nesting (ts.map Token.lexeme) : Int) ≤ limit ∧ (e.depth : Int) ≤ limit ∧
        t = (simplify strict level e).tree) ∧
      ∀ larger, limit ≤ larger → (parse strict level limit text).value = .ok t →
        (parse strict level larger text).value = .ok t := by
  refine ⟨parse_eq_ok_iff_bounded, fun larger above parsed => ?_⟩
  obtain ⟨ts, e, scanned, accepted, nested, shallow, simplified⟩ := parse_eq_ok_iff_bounded.1 parsed
  exact parse_eq_ok_iff_bounded.2
    ⟨ts, e, scanned, accepted, Int.le_trans nested above, Int.le_trans shallow above, simplified⟩

/-- The text `f(x)` is parsed under the limit 2 and so under the limit 7. -/
theorem parse_under_limit_call :
    (parse false .silent 2 "f(x)").value = .ok (.call "f" [.var "x"]) ∧
      (parse false .silent 7 "f(x)").value = .ok (.call "f" [.var "x"]) := by
  let row : List Token := [⟨.identifier "f", 0⟩, ⟨.leftParen, 1⟩, ⟨.identifier "x", 2⟩,
    ⟨.rightParen, 3⟩]
  have scanned : Token.scan "f(x)" = .ok row := by decide +kernel
  have shallow : ((call "f" [.var "x"]).depth : Int) ≤ 2 := by
    rw [depth_eq_height]
    decide
  have simplified : (simplify false .silent (.call "f" [.var "x"])).tree = .call "f" [.var "x"] := by
    simp only [simplify_call, simplifyAll_cons, simplifyAll_nil, simplify_var]
    rfl
  obtain ⟨whenever, kept⟩ := parse_under_limit false .silent 2 "f(x)" (.call "f" [.var "x"])
  have parsed : (parse false .silent 2 "f(x)").value = .ok (.call "f" [.var "x"]) := by
    refine whenever.2 ⟨row, .call "f" [.var "x"], ?_, rfl, by decide, shallow, simplified.symm⟩
    rw [tokens, scanned]
    rfl
  exact ⟨parsed, kept 7 (by decide) parsed⟩

end Formula.Expr
