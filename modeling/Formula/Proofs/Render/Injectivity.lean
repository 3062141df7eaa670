import Formula.Proofs.Expr.Equality
import Formula.Proofs.Render.Tokens

/-!
One tree for each text. The lexemes of a rendered tree tell where it ends, so that a row of lexemes starts
with those of one tree only: a name is called if and only if a parenthesis follows it, and a minus sign
stands in front of a parenthesis or of a number. The text of a constant tells its value.
-/

set_option autoImplicit false

namespace Formula.Expr

open Decimal (isBelowZero sizeChars)

/-! ### The same tree -/

/-- Two expressions are the same tree: they have the same operators and names, operands and arguments in
the same order, and constants that are equal numbers. -/
inductive SameTree : Expr → Expr → Prop
  | const {a b : Float} (equal : (a == b) = true) : SameTree (.const a) (.const b)
  | var (name : String) : SameTree (.var name) (.var name)
  | bin (op : BinaryOp) {left left' right right' : Expr} (first : SameTree left left')
      (second : SameTree right right') : SameTree (.bin op left right) (.bin op left' right')
  | neg {a b : Expr} (operand : SameTree a b) : SameTree (.neg a) (.neg b)
  | call (name : String) {as bs : List Expr} (arguments : List.Forall₂ SameTree as bs) :
      SameTree (.call name as) (.call name bs)

/-! ### Constants -/

/-- The sign and the size that a constant is written with tell its value. -/
theorem beq_of_written {a b : Float} (finite : IsWritable (.const a)) (finite' : IsWritable (.const b))
    (sign : isBelowZero a = isBelowZero b) (size : sizeChars a = sizeChars b) : (a == b) = true := by
  obtain ⟨x, decoded⟩ := finite
  obtain ⟨y, decoded'⟩ := finite'
  cases below : isBelowZero a with
  | true =>
      have negative : ∀ {c : Float} {z : Decimal.Binary}, Decimal.decode c = .finite z →
          isBelowZero c = true → z.negative = true := by
        intro c z found under
        rw [isBelowZero, found] at under
        exact (Bool.and_eq_true_iff.1 under).1
      have first := Decimal.neg_readUnsigned_sizeChars decoded (negative decoded below)
      have second :=
        Decimal.neg_readUnsigned_sizeChars decoded' (negative decoded' (sign ▸ below))
      rw [size, second] at first
      rw [first]
      exact Decimal.beq_self_of_decode decoded
  | false =>
      have first := Decimal.readUnsigned_sizeChars_of_not_below decoded below
      have second := Decimal.readUnsigned_sizeChars_of_not_below decoded' (sign ▸ below)
      rw [size, second] at first
      have equal := (sameConstant_iff a b).2 first.symm
      rw [sameConstant, Bool.or_eq_true, Bool.and_eq_true] at equal
      refine equal.resolve_right fun nan => ?_
      rw [Decimal.eq_nan_of_isNaN nan.1, Decimal.decode_nan] at decoded
      cases decoded

theorem constantText_of_beq {a b : Float} (equal : (a == b) = true) :
    Decimal.constantText a = Decimal.constantText b := by
  obtain ⟨-, -, rfl | ⟨rfl, rfl⟩ | ⟨rfl, rfl⟩⟩ := Float.beq_iff_ne_nan_and_eq.1 equal
  · rfl
  · decide +kernel
  · decide +kernel

/-! ### Lexemes -/

/-- Two rows of lexemes that start with those of two trees are the same only if the trees are the same,
and what follows them is. Nothing that follows a tree may turn its last name into a call. -/
def Decodes (e : Expr) : Prop :=
  ∀ (f : Expr) {ts us : List Lexeme}, f.Everywhere IsWritable → ts.head? ≠ some .leftParen →
    us.head? ≠ some .leftParen → e.written ++ ts = f.written ++ us → SameTree e f ∧ ts = us

theorem written_const_true {a : Float} (below : isBelowZero a = true) :
    (Expr.const a).written = [.operator .sub, .number (String.ofList (sizeChars a))] := by
  rw [written, if_pos below]

theorem written_const_false {a : Float} (above : isBelowZero a = false) :
    (Expr.const a).written = [.number (String.ofList (sizeChars a))] := by
  rw [written, above, if_neg Bool.false_ne_true]

/-- A tree does not start with a parenthesis that closes. -/
theorem head?_written_append (e : Expr) (ts : List Lexeme) :
    (e.written ++ ts).head? ≠ some .rightParen := by
  cases e with
  | const a =>
      cases below : isBelowZero a with
      | true => simp [written_const_true below]
      | false => simp [written_const_false below]
  | var name | bin op left right | neg operand | call name arguments => simp [written]

/-- The lexemes of a constant tell its sign and its size. -/
theorem const_of_written {a b : Float} {ts us : List Lexeme}
    (same : (Expr.const a).written ++ ts = (Expr.const b).written ++ us) :
    isBelowZero a = isBelowZero b ∧ sizeChars a = sizeChars b ∧ ts = us := by
  cases below : isBelowZero a with
  | true =>
      cases below' : isBelowZero b with
      | true =>
          simpa [written_const_true below, written_const_true below', String.ofList_inj] using same
      | false => simp [written_const_true below, written_const_false below'] at same
  | false =>
      cases below' : isBelowZero b with
      | true => simp [written_const_false below, written_const_true below'] at same
      | false =>
          simpa [written_const_false below, written_const_false below', String.ofList_inj]
            using same

theorem not_written_const {e : Expr} {ts us : List Lexeme} {b : Float}
    (other : ∀ a, e ≠ .const a) : e.written ++ ts ≠ (Expr.const b).written ++ us := by
  intro same
  cases below : isBelowZero b with
  | true =>
      rw [written_const_true below] at same
      cases e with
      | const a => exact other a rfl
      | var name | bin op left right | neg operand | call name arguments => simp [written] at same
  | false =>
      rw [written_const_false below] at same
      cases e with
      | const a => exact other a rfl
      | var name | bin op left right | neg operand | call name arguments => simp [written] at same

theorem decodes_const {a : Float} (finite : IsWritable (.const a)) : Decodes (.const a) := by
  intro f ts us writable _ _ same
  cases f with
  | const b =>
      obtain ⟨sign, size, rest⟩ := const_of_written same
      exact ⟨.const (beq_of_written finite writable.root sign size), rest⟩
  | var name | bin op left right | neg operand | call name arguments =>
      exact absurd same.symm (not_written_const fun a => by simp)

theorem decodes_var (name : String) : Decodes (.var name) := by
  intro f ts us _ uncalled uncalled' same
  cases f with
  | var name' =>
      simp only [written, List.cons_append, List.nil_append, List.cons.injEq,
        Lexeme.identifier.injEq] at same
      obtain ⟨rfl, rest⟩ := same
      exact ⟨.var name, rest⟩
  | call name' arguments =>
      simp only [written, List.cons_append, List.nil_append, List.cons.injEq] at same
      exact absurd (by rw [same.2]; rfl) uncalled
  | const b => exact absurd same (not_written_const fun a => by simp)
  | bin op left right | neg operand => simp [written] at same

theorem decodes_bin (op : BinaryOp) {left right : Expr} (first : Decodes left)
    (second : Decodes right) : Decodes (.bin op left right) := by
  intro f ts us writable _ _ same
  cases f with
  | bin op' left' right' =>
      simp only [written, List.cons_append, List.append_assoc, List.cons.injEq, true_and] at same
      obtain ⟨lefts, operators⟩ := first left' writable.left (by simp) (by simp) same
      simp only [List.cons.injEq, Lexeme.operator.injEq] at operators
      obtain ⟨rfl, behind⟩ := operators
      obtain ⟨rights, closing⟩ := second right' writable.right (by simp) (by simp) behind
      exact ⟨.bin op lefts rights, (List.cons.inj closing).2⟩
  | const b => exact absurd same (not_written_const fun a => by simp)
  | var name | neg operand | call name arguments => simp [written] at same

theorem decodes_neg {operand : Expr} (inside : Decodes operand) : Decodes (.neg operand) := by
  intro f ts us writable _ _ same
  cases f with
  | neg operand' =>
      simp only [written, List.cons_append, List.append_assoc, List.cons.injEq, true_and] at same
      obtain ⟨operands, closing⟩ := inside operand' writable.operand (by simp) (by simp) same
      exact ⟨.neg operands, (List.cons.inj closing).2⟩
  | const b => exact absurd same (not_written_const fun a => by simp)
  | var name | bin op left right | call name arguments => simp [written] at same

/-! ### Arguments -/

def writtenMore (es : List Expr) : List Lexeme := es.flatMap fun e => .comma :: e.written

theorem writtenArguments_cons (e : Expr) (rest : List Expr) :
    writtenArguments (e :: rest) = e.written ++ writtenMore rest := by
  induction rest generalizing e with
  | nil => rw [writtenArguments, writtenMore, List.flatMap_nil, List.append_nil]
  | cons f rest ih =>
      rw [writtenArguments, ih f, writtenMore, writtenMore, List.flatMap_cons, List.cons_append]
      exact List.cons_ne_nil f rest

/-- Behind an argument there is a comma or the parenthesis that closes. -/
theorem head?_writtenMore (es : List Expr) (ts : List Lexeme) :
    (writtenMore es ++ .rightParen :: ts).head? ≠ some .leftParen := by
  cases es <;> simp [writtenMore]

theorem more_of_written {es fs : List Expr} {ts us : List Lexeme} (each : ∀ e ∈ es, Decodes e)
    (writable : ∀ f ∈ fs, f.Everywhere IsWritable)
    (same : writtenMore es ++ .rightParen :: ts = writtenMore fs ++ .rightParen :: us) :
    List.Forall₂ SameTree es fs ∧ ts = us := by
  induction es generalizing fs with
  | nil =>
      cases fs with
      | nil => exact ⟨.nil, (List.cons.inj same).2⟩
      | cons f more => simp [writtenMore] at same
  | cons e rest ih =>
      cases fs with
      | nil => simp [writtenMore] at same
      | cons f more =>
          have behind : e.written ++ (writtenMore rest ++ .rightParen :: ts) =
              f.written ++ (writtenMore more ++ .rightParen :: us) := by
            simpa [writtenMore] using same
          obtain ⟨first, others⟩ := each e List.mem_cons_self f (writable f List.mem_cons_self)
            (head?_writtenMore rest ts) (head?_writtenMore more us) behind
          obtain ⟨all, closing⟩ := ih (fun a inside => each a (List.mem_cons_of_mem e inside))
            (fun b inside => writable b (List.mem_cons_of_mem f inside)) others
          exact ⟨.cons first all, closing⟩

/-- The arguments of a call, up to the parenthesis that closes it. -/
theorem arguments_of_written {es fs : List Expr} {ts us : List Lexeme}
    (each : ∀ e ∈ es, Decodes e) (writable : ∀ f ∈ fs, f.Everywhere IsWritable)
    (same : writtenArguments es ++ .rightParen :: ts = writtenArguments fs ++ .rightParen :: us) :
    List.Forall₂ SameTree es fs ∧ ts = us := by
  cases es with
  | nil =>
      cases fs with
      | nil => exact ⟨.nil, (List.cons.inj same).2⟩
      | cons f more =>
          rw [writtenArguments_cons, List.append_assoc] at same
          exact absurd (congrArg List.head? same).symm (head?_written_append f _)
  | cons e rest =>
      cases fs with
      | nil =>
          rw [writtenArguments_cons, List.append_assoc] at same
          exact absurd (congrArg List.head? same) (head?_written_append e _)
      | cons f more =>
          rw [writtenArguments_cons, writtenArguments_cons, List.append_assoc,
            List.append_assoc] at same
          obtain ⟨first, others⟩ := each e List.mem_cons_self f (writable f List.mem_cons_self)
            (head?_writtenMore rest ts) (head?_writtenMore more us) same
          obtain ⟨all, closing⟩ := more_of_written
            (fun a inside => each a (List.mem_cons_of_mem e inside))
            (fun b inside => writable b (List.mem_cons_of_mem f inside)) others
          exact ⟨.cons first all, closing⟩

theorem decodes_call (name : String) {arguments : List Expr}
    (each : ∀ a ∈ arguments, Decodes a) : Decodes (.call name arguments) := by
  intro f ts us writable uncalled uncalled' same
  cases f with
  | call name' arguments' =>
      simp only [written, List.cons_append, List.append_assoc, List.nil_append, List.cons.injEq,
        true_and, Lexeme.identifier.injEq] at same
      obtain ⟨rfl, behind⟩ := same
      obtain ⟨all, closing⟩ := arguments_of_written each
        (fun a inside => writable.argument inside) behind
      exact ⟨.call name all, closing⟩
  | var name' =>
      simp only [written, List.cons_append, List.nil_append, List.cons.injEq] at same
      exact absurd (by rw [← same.2]; rfl) uncalled'
  | const b => exact absurd same (not_written_const fun a => by simp)
  | bin op left right | neg operand => simp [written] at same

/-- A row of lexemes starts with those of no more than one tree. -/
theorem decodes (e : Expr) (writable : e.Everywhere IsWritable) : Decodes e := by
  induction e using Expr.induction with
  | const a => exact decodes_const writable.root
  | var name => exact decodes_var name
  | bin op left right first second =>
      exact decodes_bin op (first writable.left) (second writable.right)
  | neg operand ih => exact decodes_neg (ih writable.operand)
  | call name arguments ih =>
      exact decodes_call name fun a inside => ih a inside (writable.argument inside)

/-! ### Texts -/

theorem renderArguments_cons_cons (e f : Expr) (rest : List Expr) :
    renderArguments (e :: f :: rest) = e.render ++ ", " ++ renderArguments (f :: rest) := by
  rw [renderArguments]
  exact List.cons_ne_nil f rest

theorem renderArguments_of_each {es fs : List Expr}
    (each : List.Forall₂ (fun e f => e.render = f.render) es fs) :
    renderArguments es = renderArguments fs := by
  induction each with
  | nil => rfl
  | cons head rest ih =>
      cases rest with
      | nil => rw [renderArguments, renderArguments, head]
      | cons next more => rw [renderArguments_cons_cons, renderArguments_cons_cons, head, ih]

theorem render_of_sameTree (e f : Expr) (same : SameTree e f) : e.render = f.render := by
  induction e using Expr.induction generalizing f with
  | const a =>
      cases same with
      | const equal => exact constantText_of_beq equal
  | var name =>
      cases same
      rfl
  | bin op left right first second =>
      cases same with
      | bin _ lefts rights => rw [render, render, first _ lefts, second _ rights]
  | neg operand ih =>
      cases same with
      | neg operands => rw [render, render, ih _ operands]
  | call name arguments ih =>
      cases same with
      | call _ each =>
          rw [render, render, renderArguments_of_each]
          exact forall₂_of_members each fun a inside b _ => ih a inside b

/-- Expressions with finite constants and names that are identifiers have the same text exactly if they
are the same tree. -/
theorem render_eq_iff (e f : Expr) (writable : e.Everywhere IsWritable)
    (writable' : f.Everywhere IsWritable) : e.render = f.render ↔ SameTree e f := by
  refine ⟨fun same => ?_, render_of_sameTree e f⟩
  obtain ⟨tokens, scanned, lexemes⟩ := scan_render e writable
  obtain ⟨tokens', scanned', lexemes'⟩ := scan_render f writable'
  rw [same, scanned'] at scanned
  cases scanned
  have rows : e.written ++ [] = f.written ++ [] := by
    rw [List.append_nil, List.append_nil, ← lexemes, ← lexemes']
  exact (decodes e writable f writable' (by simp) (by simp) rows).1

/-- The difference of `f(-1, x)` and `-0`, and the negation of the call instead: the text of the first is
that of the same difference with a zero, and not that of the second. -/
theorem render_eq_iff_difference :
    let call : Expr := .call "f" [.const (-1.0), .var "x"]
    let e : Expr := .bin .sub call (.const (-0.0))
    let f : Expr := .bin .sub call (.const 0.0)
    let g : Expr := .bin .sub (.neg call) (.const 0.0)
    e.Everywhere IsWritable ∧ f.Everywhere IsWritable ∧ g.Everywhere IsWritable ∧
      e.render = f.render ∧ SameTree e f ∧ e.render ≠ g.render := by
  intro call e f g
  have name : Token.isIdentifier "f" = true := by decide +kernel
  have x : Token.isIdentifier "x" = true := by decide +kernel
  have one : ∃ b, Decimal.decode (-1.0) = .finite b := ⟨⟨true, 2 ^ 52, -52⟩, by decide +kernel⟩
  have zero : ∃ b, Decimal.decode 0.0 = .finite b := ⟨_, Decimal.decode_zero⟩
  have negative : ∃ b, Decimal.decode (-0.0) = .finite b := ⟨_, Decimal.decode_neg_zero⟩
  have writable : e.Everywhere IsWritable := by
    simp [e, call, IsWritable, name, x, one, negative]
  have writable' : f.Everywhere IsWritable := by
    simp [f, call, IsWritable, name, x, one, zero]
  have writable'' : g.Everywhere IsWritable := by
    simp [g, call, IsWritable, name, x, one, zero]
  have first : ((-1.0 : Float) == -1.0) = true := by decide +kernel
  have zeros : ((-0.0 : Float) == 0.0) = true := by decide +kernel
  have same : SameTree e f :=
    .bin .sub (.call "f" (.cons (.const first) (.cons (.var "x") .nil))) (.const zeros)
  refine ⟨writable, writable', writable'', (render_eq_iff e f writable writable').2 same, same, ?_⟩
  rw [ne_eq, render_eq_iff e g writable writable'']
  intro other
  simp only [e, g, call] at other
  cases other with
  | bin _ operand _ => cases operand

end Formula.Expr
