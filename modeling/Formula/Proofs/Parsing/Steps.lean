import Formula.Parsing.Parse
import Formula.Proofs.Lexis.Spelling

/-!
# `Formula.Proofs.Parsing.Steps` — the steps of the parser, one equation each

Running a step from a cursor gives a result and a cursor. The equations below say what each step of the standard
grammar gives from a cursor whose next token is known; everything about whole runs is proved from them.

## Contents
- `Parsing.run_bind` and the steps on single tokens.
- `startRule?_…`, `extensionRule?_…` — the rules of the standard grammar by the word of a token.
- `readOperand_succ_eq`, `climb_zero_eq`, `climb_succ_eq` — the two loops of the parser, with one way to stop each.
- `readOperand_run`, `climb_run_…` — the two loops where the next token is known.
- `parseAll_of_run…` — whole lists of tokens.
-/

namespace Formula

open Lexis

namespace Parsing

variable {α β : Type}

theorem reads_of_word {t : Token} {text : String} (h : t.word = (.symbol, text)) : t.reads text = true := by
  obtain ⟨hkind, htext⟩ := Prod.mk.inj h
  simp [Token.reads, hkind, htext]

theorem isKeyword_of_word {t : Token} {text : String} (h : t.word = (.keyword, text)) : t.isKeyword text = true := by
  obtain ⟨hkind, htext⟩ := Prod.mk.inj h
  simp [Token.isKeyword, sameLetters, hkind, htext]

theorem reads_of_isKeyword {t : Token} {text : String} (h : t.isKeyword text = true) : t.reads text = true := by
  rw [Token.isKeyword, Bool.and_eq_true, beq_iff_eq] at h
  rw [Token.reads, if_pos h.1]
  exact h.2

/-! ## Running steps -/

theorem run_bind (x : Parsing α) (f : α → Parsing β) (c : Cursor) :
    (x >>= f).run c = match x.run c with
      | .ok a c' => (f a).run c'
      | .error err c' => .error err c' := by
  show EStateM.bind x f c = _
  rw [EStateM.bind, EStateM.run]
  cases x c <;> rfl

theorem run_bind_ok {x : Parsing α} {f : α → Parsing β} {c c' : Cursor} {a : α} (h : x.run c = .ok a c') :
    (x >>= f).run c = (f a).run c' := by
  rw [run_bind, h]

theorem run_bind_error {x : Parsing α} {f : α → Parsing β} {c c' : Cursor} {err : ParseError}
    (h : x.run c = .error err c') : (x >>= f).run c = .error err c' := by
  rw [run_bind, h]

/-- What a sequence of steps that succeeds is made of. -/
theorem exists_of_run_bind {x : Parsing α} {f : α → Parsing β} {c c' : Cursor} {b : β}
    (h : (x >>= f).run c = .ok b c') : ∃ a c₁, x.run c = .ok a c₁ ∧ (f a).run c₁ = .ok b c' := by
  rw [run_bind] at h
  cases hx : x.run c with
  | ok a c₁ =>
    rw [hx] at h
    exact ⟨a, c₁, rfl, h⟩
  | error err c₁ =>
    rw [hx] at h
    cases h

/-- And what one that fails is made of. -/
theorem error_of_run_bind {x : Parsing α} {f : α → Parsing β} {c c' : Cursor} {err : ParseError}
    (h : (x >>= f).run c = .error err c') :
    x.run c = .error err c' ∨ ∃ a c₁, x.run c = .ok a c₁ ∧ (f a).run c₁ = .error err c' := by
  rw [run_bind] at h
  cases hx : x.run c with
  | ok a c₁ =>
    rw [hx] at h
    exact Or.inr ⟨a, c₁, rfl, h⟩
  | error err₁ c₁ =>
    rw [hx] at h
    cases h
    exact Or.inl rfl

theorem run_peek (k : Nat) (ts : List Token) : (peek? 0).run ⟨k, ts⟩ = .ok ts.head? ⟨k, ts⟩ := by
  cases ts <;> rfl

theorem run_current (k : Nat) (t : Token) (ts : List Token) : current.run ⟨k, t :: ts⟩ = .ok t ⟨k + 1, ts⟩ := rfl

theorem run_demand {text : String} {t : Token} (h : t.reads text = true) (k : Nat) (ts : List Token) :
    (demand text).run ⟨k, t :: ts⟩ = .ok t ⟨k + 1, ts⟩ := by
  show (if t.reads text then (pure t : Parsing Token) else throw _).run ⟨k + 1, ts⟩ = _
  rw [if_pos h]
  rfl

theorem run_expect {text : String} {t : Token} (h : t.reads text = true) (k : Nat) (ts : List Token) :
    (expect text).run ⟨k, t :: ts⟩ = .ok t ⟨k + 1, ts⟩ := by
  show (if t.reads text then current else complainHere (.expected text)).run ⟨k, t :: ts⟩ = _
  rw [if_pos h]
  rfl

theorem run_readVariable {t : Token} (h : t.kind = .name) (k : Nat) (ts : List Token) :
    readVariable.run ⟨k, t :: ts⟩ = .ok t ⟨k + 1, ts⟩ := by
  show (if t.kind = .name then (pure t : Parsing Token) else throw _).run ⟨k + 1, ts⟩ = _
  rw [if_pos h]
  rfl

/-- A derivative that names its variable. -/
theorem run_readDerivative_by {ν : Type} {tw tx : Token} (hw : tw.isKeyword "wrt" = true) (hx : tx.kind = .name)
    (keyword : Token) (e : Expr ν) (k : Nat) (ts : List Token) : (readDerivative keyword e).run ⟨k, tw :: tx :: ts⟩ =
      .ok (.derivative ((keyword.span.merge e.span).merge tx.span) e tx.text) ⟨k + 1 + 1, ts⟩ := by
  rw [readDerivative, run_bind_ok (run_peek k (tw :: tx :: ts))]
  simp only [List.head?_cons, hw, if_true]
  show ((readVariable >>= fun name => pure _ : Parsing (Expr ν))).run ⟨k + 1, tx :: ts⟩ = _
  rw [run_bind_ok (run_readVariable hx (k + 1) ts)]
  rfl

/-- A derivative that does not. -/
theorem run_readDerivative {ν : Type} {ts : List Token} (h : ∀ t ∈ ts.head?, t.isKeyword "wrt" = false)
    (keyword : Token) (e : Expr ν) (k : Nat) : (readDerivative keyword e).run ⟨k, ts⟩ =
      .ok (.derivative (keyword.span.merge e.span) e (e.primaryVariable?.getD "x")) ⟨k, ts⟩ := by
  rw [readDerivative, run_bind_ok (run_peek k ts)]
  cases ts with
  | nil => rfl
  | cons t ts =>
    simp only [List.head?_cons, h t rfl]
    rfl

/-! ## The rules of the standard grammar -/

theorem startRule?_name {t : Token} (h : t.kind = .name) :
    Grammar.standard.startRule? t = some ⟨.kind .name, .variable⟩ := by
  simp [Grammar.startRule?, Grammar.standard, TokenMatch.accepts, h]

theorem startRule?_number {t : Token} (h : t.kind = .number) :
    Grammar.standard.startRule? t = some ⟨.kind .number, .number⟩ := by
  simp [Grammar.startRule?, Grammar.standard, TokenMatch.accepts, h]

theorem startRule?_constant {t : Token} (h : t.kind = .constant) :
    Grammar.standard.startRule? t = some ⟨.kind .constant, .constant⟩ := by
  simp [Grammar.startRule?, Grammar.standard, TokenMatch.accepts, h]

theorem startRule?_open {t : Token} (h : t.word = (.symbol, "(")) :
    Grammar.standard.startRule? t = some ⟨.symbol "(", .group⟩ := by
  obtain ⟨kind, text, span⟩ := t
  obtain ⟨rfl, rfl⟩ := Prod.mk.inj h
  rfl

theorem startRule?_minus {t : Token} (h : t.word = (.symbol, "-")) :
    Grammar.standard.startRule? t = some ⟨.symbol "-", .negation⟩ := by
  obtain ⟨kind, text, span⟩ := t
  obtain ⟨rfl, rfl⟩ := Prod.mk.inj h
  rfl

theorem startRule?_derivative {t : Token} (h : t.isKeyword "derivative" = true) :
    Grammar.standard.startRule? t = some ⟨.keyword "derivative", .derivative⟩ := by
  have hkind : t.kind = .keyword := by
    rw [Token.isKeyword, Bool.and_eq_true, beq_iff_eq] at h
    exact h.1
  simp [Grammar.startRule?, Grammar.standard, TokenMatch.accepts, Token.isSymbol, h, hkind]

/-- **What a token has to be for an expression to begin at it.** -/
inductive Begins (t : Token) : Start → Prop where
  | name : t.kind = .name → Begins t .variable
  | number : t.kind = .number → Begins t .number
  | constant : t.kind = .constant → Begins t .constant
  | group : t.word = (.symbol, "(") → Begins t .group
  | negation : t.word = (.symbol, "-") → Begins t .negation
  | derivative : t.isKeyword "derivative" = true → Begins t .derivative
  | integral : t.isKeyword "integral" = true ∨ t.isKeyword "integrate" = true → Begins t .integral

theorem word_of_isSymbol {t : Token} {text : String} (h : t.isSymbol text = true) : t.word = (.symbol, text) := by
  rw [Token.isSymbol, Bool.and_eq_true, beq_iff_eq, beq_iff_eq] at h
  rw [Token.word, h.1, h.2]

theorem begins_of_startRule? {t : Token} {rule : StartRule} (h : Grammar.standard.startRule? t = some rule) :
    Begins t rule.start := by
  have haccepts := List.find?_some h
  have hmem := List.mem_of_find?_eq_some h
  simp only [Grammar.standard, List.mem_cons, List.not_mem_nil, or_false] at hmem
  rcases hmem with rfl | rfl | rfl | rfl | rfl | rfl | rfl | rfl
  · exact .name (beq_iff_eq.mp haccepts)
  · exact .number (beq_iff_eq.mp haccepts)
  · exact .constant (beq_iff_eq.mp haccepts)
  · exact .group (word_of_isSymbol haccepts)
  · exact .negation (word_of_isSymbol haccepts)
  · exact .derivative haccepts
  · exact .integral (Or.inl haccepts)
  · exact .integral (Or.inr haccepts)

/-- The words that a juxtaposed factor may begin with. -/
def BeginsFactor (w : Word) : Prop := w.1 = .name ∨ w.1 = .constant ∨ w.1 = .number ∨ w = (.symbol, "(")

/-- **What a token has to be for an expression to go on at it.** -/
inductive Continues (t : Token) : ExtensionRule → Prop where
  | binary {op} : op ≠ .juxtapose → t.word = (.symbol, op.symbol) → Continues t (.binary (.symbol op.symbol) op)
  | factorial : t.word = (.symbol, "!") → Continues t (.unary (.symbol "!") .factorial)
  | juxtaposed {m} : BeginsFactor t.word → Continues t (.juxtaposed m)

theorem continues_of_extensionRule? {t : Token} {rule : ExtensionRule}
    (h : Grammar.standard.extensionRule? t = some rule) : Continues t rule := by
  have haccepts := List.find?_some h
  have hmem := List.mem_of_find?_eq_some h
  simp only [Grammar.standard, List.mem_cons, List.not_mem_nil, or_false] at hmem
  rcases hmem with rfl | rfl | rfl | rfl | rfl | rfl | rfl | rfl | rfl | rfl
  · exact @Continues.binary t .add (by decide) (word_of_isSymbol haccepts)
  · exact @Continues.binary t .sub (by decide) (word_of_isSymbol haccepts)
  · exact @Continues.binary t .mul (by decide) (word_of_isSymbol haccepts)
  · exact @Continues.binary t .div (by decide) (word_of_isSymbol haccepts)
  · exact @Continues.binary t .pow (by decide) (word_of_isSymbol haccepts)
  · exact .factorial (word_of_isSymbol haccepts)
  · exact .juxtaposed (Or.inl (beq_iff_eq.mp haccepts))
  · exact .juxtaposed (Or.inr (Or.inl (beq_iff_eq.mp haccepts)))
  · exact .juxtaposed (Or.inr (Or.inr (Or.inl (beq_iff_eq.mp haccepts))))
  · exact .juxtaposed (Or.inr (Or.inr (Or.inr (word_of_isSymbol haccepts))))

theorem extensionRule?_binary {op : BinaryOp} (hop : op ≠ .juxtapose) {t : Token}
    (h : t.word = (.symbol, op.symbol)) :
    Grammar.standard.extensionRule? t = some (.binary (.symbol op.symbol) op) := by
  obtain ⟨kind, text, span⟩ := t
  obtain ⟨rfl, rfl⟩ := Prod.mk.inj h
  cases op <;> first | rfl | exact absurd rfl hop

theorem extensionRule?_factorial {t : Token} (h : t.word = (.symbol, "!")) :
    Grammar.standard.extensionRule? t = some (.unary (.symbol "!") .factorial) := by
  obtain ⟨kind, text, span⟩ := t
  obtain ⟨rfl, rfl⟩ := Prod.mk.inj h
  rfl

theorem extensionRule?_juxtaposed {t : Token} (h : BeginsFactor t.word) :
    ∃ m, Grammar.standard.extensionRule? t = some (.juxtaposed m) := by
  rcases h with h | h | h | h
  · exact ⟨.kind .name, by simp [Grammar.extensionRule?, Grammar.standard, TokenMatch.accepts, Token.isSymbol,
      ExtensionRule.binary, ExtensionRule.unary, ExtensionRule.juxtaposed, show t.kind = .name from h]⟩
  · exact ⟨.kind .constant, by simp [Grammar.extensionRule?, Grammar.standard, TokenMatch.accepts, Token.isSymbol,
      ExtensionRule.binary, ExtensionRule.unary, ExtensionRule.juxtaposed, show t.kind = .constant from h]⟩
  · exact ⟨.kind .number, by simp [Grammar.extensionRule?, Grammar.standard, TokenMatch.accepts, Token.isSymbol,
      ExtensionRule.binary, ExtensionRule.unary, ExtensionRule.juxtaposed, show t.kind = .number from h]⟩
  · obtain ⟨kind, text, span⟩ := t
    obtain ⟨rfl, rfl⟩ := Prod.mk.inj h
    exact ⟨.symbol "(", rfl⟩

/-- No expression goes on at a closing parenthesis. -/
theorem extensionRule?_close {t : Token} (h : t.word = (.symbol, ")")) :
    Grammar.standard.extensionRule? t = none := by
  obtain ⟨kind, text, span⟩ := t
  obtain ⟨rfl, rfl⟩ := Prod.mk.inj h
  rfl

/-- Nor at a keyword. -/
theorem extensionRule?_keyword {t : Token} (h : t.kind = .keyword) : Grammar.standard.extensionRule? t = none := by
  simp [Grammar.extensionRule?, Grammar.standard, TokenMatch.accepts, Token.isSymbol, ExtensionRule.binary,
    ExtensionRule.unary, ExtensionRule.juxtaposed, h]

/-! ## The two loops -/

variable {ν : Type} [Numeral ν] {g : Grammar}

/-- The start rule for the next token. -/
def nextStart? (g : Grammar) (next : Option Token) : Option StartRule := next.bind g.startRule?

/-- The extension rule for the next token, if it binds tighter than a threshold. -/
def nextExtension? (g : Grammar) (m : Nat) (next : Option Token) : Option ExtensionRule :=
  (next.bind g.extensionRule?).filter fun rule => m < rule.precedence

/-- Without a next token and without a rule for it the same is missing. -/
theorem match_nextStart? (next : Option Token) (missing : β) (go : StartRule → β) :
    (match next with
      | none => missing
      | some t => match g.startRule? t with
        | none => missing
        | some rule => go rule) =
      match nextStart? g next with
      | none => missing
      | some rule => go rule := by
  cases next <;> rfl

/-- Without a next token, without a rule for it and with one that binds no tighter the loop stops alike. -/
theorem match_nextExtension? {m : Nat} (next : Option Token) (stop : β) (go : ExtensionRule → β) :
    (match next with
      | none => stop
      | some t => match g.extensionRule? t with
        | none => stop
        | some rule => if rule.precedence ≤ m then stop else go rule) =
      match nextExtension? g m next with
      | none => stop
      | some rule => go rule := by
  cases next with
  | none => rfl
  | some t =>
    simp only [nextExtension?, Option.bind_some]
    cases g.extensionRule? t with
    | none => rfl
    | some rule =>
      rw [Option.filter]
      by_cases h : rule.precedence ≤ m
      · simp only [h, Nat.not_lt.mpr h, decide_false, if_true, Bool.false_eq_true, if_false]
      · simp only [h, Nat.lt_of_not_le h, decide_true, if_true, if_false]

/-- Reading an operand, with one way in which it is missing. -/
theorem readOperand_succ_eq (g : Grammar) (n m : Nat) : readOperand (ν := ν) g (n + 1) m = (do
    match nextStart? g (← peek? 0) with
    | none => complainHere .operandMissing
    | some rule => rule.start.build (readOperand g n) >>= climb g n m) := by
  rw [readOperand]
  exact bind_congr fun next => match_nextStart? next _ _

/-- The loop without levels, with one way in which it stops. -/
theorem climb_zero_eq (g : Grammar) (m : Nat) (lhs : Expr ν) : climb g 0 m lhs = (do
    match nextExtension? g m (← peek? 0) with
    | none => return lhs
    | some _ => complainHere fun _ => .nestedTooDeeply) := by
  rw [climb]
  exact bind_congr fun next => match_nextExtension? next _ _

/-- The loop with a level left, with one way in which it stops. -/
theorem climb_succ_eq (g : Grammar) (n m : Nat) (lhs : Expr ν) : climb g (n + 1) m lhs = (do
    match nextExtension? g m (← peek? 0) with
    | none => return lhs
    | some rule => rule.build (readOperand g n) lhs >>= climb g n m) := by
  rw [climb]
  exact bind_congr fun next => match_nextExtension? next _ _

/-- Reading an operand goes by the start rule of the next token. -/
theorem readOperand_run {t : Token} {rule : StartRule} (h : g.startRule? t = some rule) (n m k : Nat)
    (ts : List Token) : (readOperand (ν := ν) g (n + 1) m).run ⟨k, t :: ts⟩ =
      (rule.start.build (readOperand g n) >>= climb g n m).run ⟨k, t :: ts⟩ := by
  rw [readOperand, run_bind_ok (run_peek k (t :: ts)), List.head?_cons]
  simp only [h]

/-- Where no expression begins, an operand is missing. -/
theorem readOperand_run_missing {ts : List Token} (h : ∀ t ∈ ts.head?, g.startRule? t = none) (n m k : Nat) :
    (readOperand (ν := ν) g (n + 1) m).run ⟨k, ts⟩ = (complainHere .operandMissing).run ⟨k, ts⟩ := by
  rw [readOperand, run_bind_ok (run_peek k ts)]
  cases ts with
  | nil => rfl
  | cons t ts => simp only [List.head?_cons, h t rfl]

/-- Either no expression begins, or there is a token with a start rule. -/
theorem missing_or_exists_startRule (g : Grammar) (ts : List Token) :
    (∀ t ∈ ts.head?, g.startRule? t = none) ∨ ∃ t ts' rule, ts = t :: ts' ∧ g.startRule? t = some rule := by
  cases ts with
  | nil => exact Or.inl fun t ht => by cases ht
  | cons t ts =>
    cases hrule : g.startRule? t with
    | none =>
      refine Or.inl fun t' ht => ?_
      obtain rfl := Option.some.inj ht
      exact hrule
    | some rule => exact Or.inr ⟨t, ts, rule, rfl, hrule⟩

/-- The loop stops at the end of the input and at a token without an extension rule. -/
theorem climb_run_none {ts : List Token} (h : ∀ t ∈ ts.head?, g.extensionRule? t = none) (n m k : Nat)
    (lhs : Expr ν) : (climb g n m lhs).run ⟨k, ts⟩ = .ok lhs ⟨k, ts⟩ := by
  rw [climb, run_bind_ok (run_peek k ts)]
  cases ts with
  | nil => rfl
  | cons t ts =>
    simp only [List.head?_cons, h t rfl]
    rfl

/-- It stops before an operator that does not bind tighter than the threshold. -/
theorem climb_run_stop {t : Token} {rule : ExtensionRule} (h : g.extensionRule? t = some rule) {m : Nat}
    (hm : rule.precedence ≤ m) (n k : Nat) (ts : List Token) (lhs : Expr ν) :
    (climb g n m lhs).run ⟨k, t :: ts⟩ = .ok lhs ⟨k, t :: ts⟩ := by
  rw [climb, run_bind_ok (run_peek k (t :: ts))]
  simp only [List.head?_cons, h, if_pos hm]
  rfl

/-- It goes on at any other. -/
theorem climb_run_step {t : Token} {rule : ExtensionRule} (h : g.extensionRule? t = some rule) {m : Nat}
    (hm : m < rule.precedence) (n k : Nat) (ts : List Token) (lhs : Expr ν) :
    (climb g (n + 1) m lhs).run ⟨k, t :: ts⟩ =
      (rule.build (readOperand g n) lhs >>= climb g n m).run ⟨k, t :: ts⟩ := by
  rw [climb, run_bind_ok (run_peek k (t :: ts))]
  simp only [List.head?_cons, h, if_neg (Nat.not_le.mpr hm)]

/-- Where it would go on without levels, the expression is nested too deeply. -/
theorem climb_run_nested {t : Token} {rule : ExtensionRule} (h : g.extensionRule? t = some rule) {m : Nat}
    (hm : m < rule.precedence) (k : Nat) (ts : List Token) (lhs : Expr ν) :
    (climb g 0 m lhs).run ⟨k, t :: ts⟩ = (complainHere fun _ => .nestedTooDeeply).run ⟨k, t :: ts⟩ := by
  rw [climb, run_bind_ok (run_peek k (t :: ts))]
  simp only [List.head?_cons, h, if_neg (Nat.not_le.mpr hm)]

/-- The next token, if there is one, has no extension rule that binds tighter than a threshold. -/
def Stops (g : Grammar) (m : Nat) (rest : List Token) : Prop :=
  ∀ t ∈ rest.head?, ∀ rule, g.extensionRule? t = some rule → rule.precedence ≤ m

/-- Where the next token does not bind tighter, the loop stops. -/
theorem climb_run_of_stops {m : Nat} {rest : List Token} (h : Stops g m rest) (n k : Nat) (e : Expr ν) :
    (climb g n m e).run ⟨k, rest⟩ = .ok e ⟨k, rest⟩ := by
  cases rest with
  | nil => exact climb_run_none (fun t ht => by cases ht) n m k e
  | cons t rest =>
    cases hrule : g.extensionRule? t with
    | none =>
      refine climb_run_none (fun t' ht => ?_) n m k e
      obtain rfl := Option.some.inj ht
      exact hrule
    | some rule => exact climb_run_stop hrule (h t rfl rule hrule) n k rest e

/-- Where the loop does not stop, there is a token with an extension rule that binds tighter. -/
theorem exists_rule_of_not_stops {m : Nat} {rest : List Token} (h : ¬ Stops g m rest) :
    ∃ t ts rule, rest = t :: ts ∧ g.extensionRule? t = some rule ∧ m < rule.precedence := by
  simp only [Stops, not_forall, Nat.not_le] at h
  obtain ⟨t, ht, rule, hrule, hm⟩ := h
  cases rest with
  | nil => cases ht
  | cons t' ts =>
    obtain rfl := Option.some.inj ht
    exact ⟨t', ts, rule, rfl, hrule, hm⟩

/-! ## Whole lists of tokens -/

/-- Where an expression has been read, it is what the tokens are read as unless one comes after it. -/
theorem parseAll_of_run_ok {ts : List Token} {e : Expr ν} {c : Cursor}
    (h : (readOperand g maxNesting lowest).run ⟨0, ts⟩ = .ok e c) :
    parseAll g ts = ts[c.consumed]?.elim (.ok e) fun t => .error (.complain .extraneous t.span.start) := by
  rw [parseAll, parseFront, expression, Cursor.start, h]
  simp only [bind, Except.bind]
  cases ts[c.consumed]? <;> rfl

/-- An expression that takes all the tokens is what they are read as. -/
theorem parseAll_of_run {ts : List Token} {e : Expr ν}
    (h : (readOperand g maxNesting lowest).run ⟨0, ts⟩ = .ok e ⟨ts.length, []⟩) : parseAll g ts = .ok e := by
  rw [parseAll_of_run_ok h, List.getElem?_eq_none (Nat.le_refl ts.length), Option.elim_none]

/-- An error of the parser is what is wrong with the tokens. -/
theorem parseAll_of_run_error {ts : List Token} {err : ParseError} {c : Cursor}
    (h : (readOperand (ν := ν) g maxNesting lowest).run ⟨0, ts⟩ = .error err c) :
    parseAll (ν := ν) g ts = .error err := by
  rw [parseAll, parseFront, expression, Cursor.start, h]
  rfl

end Parsing

end Formula
