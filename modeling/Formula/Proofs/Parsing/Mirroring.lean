import Formula.Proofs.Expr.Spans
import Formula.Proofs.Parsing.Steps

/-!
# `Formula.Proofs.Parsing.Mirroring` — spans decide nothing

With any grammar, lists of tokens of the same words are parsed alike, whatever the spans of the tokens are: both are
read as trees that differ at most in their spans, or both are refused, with the same complaint about the token of the
same number. So a step of the parser on one list is mirrored by the same step on the other.

## Contents
- `Paired`, `SameError` — tokens of the same number, and errors about them.
- `Agree`, `Mirrors` — steps that do the same on both lists; closed under sequences.
- `mirrors_start`, `mirrors_extension` — the rules; `mirrors_loops` — the two loops.
- `parseAll_mirrors` — whole lists of tokens.
-/

namespace Formula

/-- Tokens of the same number in two lists. -/
def Paired (ts us : List Token) (t u : Token) : Prop := ∃ i : Nat, ts[i]? = some t ∧ us[i]? = some u

/-- **The same error on two lists of tokens**: the same fault, or the same complaint about the end of the input or about
    the token of the same number. -/
inductive ParseError.Same (ts us : List Token) : ParseError → ParseError → Prop where
  | fault (f : Fault) : Same ts us (.fault f) (.fault f)
  | atEnd (c : Complaint) : Same ts us (.complainAtEnd c) (.complainAtEnd c)
  | onToken (c : Complaint) {t u : Token} : Paired ts us t u →
      Same ts us (.complain c t.span.start) (.complain c u.span.start)

namespace Parsing

variable {α β γ δ : Type} {ts us : List Token}

/-! ## Mirrored steps -/

/-- **Results that agree**: values that are related, at the same place, or the same error. -/
def Agree (ts us : List Token) (R : α → β → Prop) :
    EStateM.Result ParseError Cursor α → EStateM.Result ParseError Cursor β → Prop
  | .ok a c, .ok b d => R a b ∧ ∃ i, c = ⟨i, ts.drop i⟩ ∧ d = ⟨i, us.drop i⟩
  | .error err _, .error err' _ => err.Same ts us err'
  | _, _ => False

/-- **A step that is mirrored by another one**, from whatever place they begin at. -/
def Mirrors (ts us : List Token) (R : α → β → Prop) (x : Parsing α) (y : Parsing β) : Prop :=
  ∀ i, Agree ts us R (x.run ⟨i, ts.drop i⟩) (y.run ⟨i, us.drop i⟩)

theorem Mirrors.pure {R : α → β → Prop} {a : α} {b : β} (h : R a b) :
    Mirrors ts us R (Pure.pure a) (Pure.pure b) := fun i => ⟨h, i, rfl, rfl⟩

theorem Mirrors.throw {R : α → β → Prop} {err err' : ParseError} (h : err.Same ts us err') :
    Mirrors ts us R (MonadExcept.throw err : Parsing α) (MonadExcept.throw err' : Parsing β) := fun _ => h

theorem Mirrors.bind {R : α → β → Prop} {S : γ → δ → Prop} {x : Parsing α} {y : Parsing β} {f : α → Parsing γ}
    {f' : β → Parsing δ} (h : Mirrors ts us R x y) (hf : ∀ a b, R a b → Mirrors ts us S (f a) (f' b)) :
    Mirrors ts us S (x >>= f) (y >>= f') := by
  intro i
  have hi := h i
  rw [run_bind, run_bind]
  cases hx : x.run ⟨i, ts.drop i⟩ with
  | ok a c =>
    cases hy : y.run ⟨i, us.drop i⟩ with
    | ok b d =>
      rw [hx, hy] at hi
      obtain ⟨hab, j, rfl, rfl⟩ := hi
      exact hf a b hab j
    | error err' d =>
      rw [hx, hy] at hi
      exact hi.elim
  | error err c =>
    cases hy : y.run ⟨i, us.drop i⟩ with
    | ok b d =>
      rw [hx, hy] at hi
      exact hi.elim
    | error err' d =>
      rw [hx, hy] at hi
      exact hi

/-! ## Steps on single tokens -/

section Tokens

variable (h : ts.map Token.word = us.map Token.word)
include h

/-- Tokens of the same number have the same word. -/
theorem word_of_paired {t u : Token} (ht : Paired ts us t u) : t.word = u.word := by
  obtain ⟨i, hti, hui⟩ := ht
  have hword : (ts.map Token.word)[i]? = (us.map Token.word)[i]? := by rw [h]
  rw [List.getElem?_map, List.getElem?_map, hti, hui] at hword
  exact Option.some.inj hword

theorem kind_of_paired {t u : Token} (ht : Paired ts us t u) : t.kind = u.kind :=
  (Prod.mk.inj (word_of_paired h ht)).1

theorem text_of_paired {t u : Token} (ht : Paired ts us t u) : t.text = u.text :=
  (Prod.mk.inj (word_of_paired h ht)).2

theorem reads_of_paired {t u : Token} (ht : Paired ts us t u) (text : String) : t.reads text = u.reads text := by
  rw [Token.reads, Token.reads, kind_of_paired h ht, text_of_paired h ht]

theorem isKeyword_of_paired {t u : Token} (ht : Paired ts us t u) (text : String) :
    t.isKeyword text = u.isKeyword text := by
  rw [Token.isKeyword, Token.isKeyword, kind_of_paired h ht, text_of_paired h ht]

theorem accepts_of_paired {t u : Token} (ht : Paired ts us t u) (m : TokenMatch) : m.accepts t = m.accepts u := by
  cases m with
  | kind k => rw [TokenMatch.accepts, TokenMatch.accepts, kind_of_paired h ht]
  | symbol text =>
    rw [TokenMatch.accepts, TokenMatch.accepts, Token.isSymbol, Token.isSymbol, kind_of_paired h ht,
      text_of_paired h ht]
  | keyword text => exact isKeyword_of_paired h ht text

/-- **What is ahead**: nothing in both lists, or tokens of the same number. -/
theorem ahead (i : Nat) : (ts.drop i = [] ∧ us.drop i = []) ∨
    ∃ t u, Paired ts us t u ∧ ts.drop i = t :: ts.drop (i + 1) ∧ us.drop i = u :: us.drop (i + 1) := by
  have hlen : ts.length = us.length := by simpa using congrArg List.length h
  by_cases hi : i < ts.length
  · exact Or.inr ⟨ts[i], us[i], ⟨i, List.getElem?_eq_getElem hi, List.getElem?_eq_getElem (hlen ▸ hi)⟩,
      List.drop_eq_getElem_cons hi, List.drop_eq_getElem_cons (hlen ▸ hi)⟩
  · exact Or.inl ⟨List.drop_eq_nil_of_le (Nat.not_lt.mp hi), List.drop_eq_nil_of_le (hlen ▸ Nat.not_lt.mp hi)⟩

theorem mirrors_peek : Mirrors ts us (Option.Rel (Paired ts us)) (peek? 0) (peek? 0) := by
  intro i
  rw [run_peek, run_peek]
  refine ⟨?_, i, rfl, rfl⟩
  rcases ahead h i with ⟨hts, hus⟩ | ⟨t, u, ht, hts, hus⟩
  · rw [hts, hus]
    exact .none
  · rw [hts, hus]
    exact .some ht

theorem mirrors_next : Mirrors ts us (Option.Rel (Paired ts us)) next? next? := by
  intro i
  rcases ahead h i with ⟨hts, hus⟩ | ⟨t, u, ht, hts, hus⟩
  · have hnil : ∀ vs : List Token, vs.drop i = [] → next?.run ⟨i, vs.drop i⟩ = .ok none ⟨i, vs.drop i⟩ := by
      intro vs hvs
      rw [hvs]
      rfl
    rw [hnil ts hts, hnil us hus]
    exact ⟨.none, i, rfl, rfl⟩
  · rw [hts, hus]
    exact ⟨.some ht, i + 1, rfl, rfl⟩

theorem mirrors_current : Mirrors ts us (Paired ts us) current current := by
  refine (mirrors_next h).bind fun a b hab => ?_
  cases hab with
  | none => exact .throw (.fault .atEnd)
  | some ht => exact .pure ht

theorem mirrors_demand (text : String) : Mirrors ts us (Paired ts us) (demand text) (demand text) := by
  refine (mirrors_next h).bind fun a b hab => ?_
  cases hab with
  | none => exact .throw (.fault _)
  | some ht =>
    simp only [reads_of_paired h ht, text_of_paired h ht]
    split
    · exact .pure ht
    · exact .throw (.fault _)

theorem mirrors_complainHere {R : α → β → Prop} (complaint : Option String → Complaint) :
    Mirrors ts us R (complainHere complaint) (complainHere complaint) := by
  refine (mirrors_peek h).bind fun a b hab => ?_
  cases hab with
  | none => exact .throw (.atEnd _)
  | some ht =>
    simp only [text_of_paired h ht]
    exact .throw (.onToken _ ht)

theorem mirrors_expect (text : String) : Mirrors ts us (Paired ts us) (expect text) (expect text) := by
  refine (mirrors_peek h).bind fun a b hab => ?_
  cases hab with
  | none => exact mirrors_complainHere h _
  | some ht =>
    simp only [reads_of_paired h ht]
    split
    · exact mirrors_current h
    · exact mirrors_complainHere h _

theorem mirrors_readVariable : Mirrors ts us (Paired ts us) readVariable readVariable := by
  refine (mirrors_next h).bind fun a b hab => ?_
  cases hab with
  | none => exact .throw (.atEnd _)
  | some ht =>
    simp only [kind_of_paired h ht, text_of_paired h ht]
    split
    · exact .pure ht
    · exact .throw (.onToken _ ht)

/-! ## Rules -/

variable {ν : Type}

/-- Trees that differ at most in their spans. -/
def SameTree (e e' : Expr ν) : Prop := e.unspanned = e'.unspanned

omit h in
theorem SameTree.primaryVariable? {e e' : Expr ν} (he : SameTree e e') : e.primaryVariable? = e'.primaryVariable? := by
  rw [← Expr.primaryVariable?_unspanned, he, Expr.primaryVariable?_unspanned]

theorem mirrors_readConstant {t u : Token} (ht : Paired ts us t u) :
    Mirrors ts us SameTree (readConstant t : Parsing (Expr ν)) (readConstant u) := by
  rw [readConstant, readConstant, text_of_paired h ht]
  split
  · exact .pure rfl
  · exact .throw (.onToken _ ht)

theorem mirrors_readDerivative {t u : Token} {e e' : Expr ν} (he : SameTree e e') :
    Mirrors ts us SameTree (readDerivative t e) (readDerivative u e') := by
  -- without the word for it, both trees have the same primary variable
  have hguess (s s' : Span) : SameTree (.derivative s e (e.primaryVariable?.getD "x"))
      (.derivative s' e' (e'.primaryVariable?.getD "x")) := by
    rw [SameTree, Expr.unspanned, Expr.unspanned, he, he.primaryVariable?]
  refine (mirrors_peek h).bind fun a b hab => ?_
  cases hab with
  | none => exact .pure (hguess _ _)
  | some ht =>
    simp only [isKeyword_of_paired h ht]
    split
    · refine (mirrors_next h).bind fun _ _ _ => (mirrors_readVariable h).bind fun name name' hname => .pure ?_
      rw [SameTree, Expr.unspanned, Expr.unspanned, he, text_of_paired h hname]
    · exact .pure (hguess _ _)

variable {operand operand' : Nat → Parsing (Expr ν)}

/-- An extension rule. -/
theorem mirrors_extension (hread : ∀ m, Mirrors ts us SameTree (operand m) (operand' m)) (rule : ExtensionRule)
    {lhs lhs' : Expr ν} (hlhs : SameTree lhs lhs') :
    Mirrors ts us SameTree (rule.build operand lhs) (rule.build operand' lhs') := by
  have hbinary {op : BinaryOp} {rhs rhs' : Expr ν} (hrhs : SameTree rhs rhs') (s s' : Span) :
      SameTree (.binary s op lhs rhs) (.binary s' op lhs' rhs') := by
    rw [SameTree, Expr.unspanned, Expr.unspanned, hlhs, hrhs]
  obtain ⟨token, operator, extension⟩ := rule
  cases extension with
  | binary =>
    cases operator with
    | binary op =>
      exact (mirrors_current h).bind fun _ _ _ => (hread _).bind fun rhs rhs' hrhs => .pure (hbinary hrhs _ _)
    | unary op => exact .throw (.fault _)
  | unary =>
    cases operator with
    | binary op => exact .throw (.fault _)
    | unary op =>
      refine (mirrors_current h).bind fun _ _ _ => .pure ?_
      rw [SameTree, Expr.unspanned, Expr.unspanned, hlhs]
  | juxtaposed => exact (hread _).bind fun rhs rhs' hrhs => .pure (hbinary hrhs _ _)

variable [Numeral ν]

theorem mirrors_readLiteral {t u : Token} (ht : Paired ts us t u) :
    Mirrors ts us SameTree (readLiteral t : Parsing (Expr ν)) (readLiteral u) := by
  rw [readLiteral, readLiteral, text_of_paired h ht]
  split
  · exact .throw (.fault _)
  · split
    · exact .pure rfl
    · exact .throw (.onToken _ ht)

/-- A start rule. -/
theorem mirrors_start (hread : ∀ m, Mirrors ts us SameTree (operand m) (operand' m)) (start : Start) :
    Mirrors ts us SameTree (start.build operand) (start.build operand') := by
  cases start with
  | «variable» =>
    refine (mirrors_current h).bind fun t u ht => .pure ?_
    rw [SameTree, Expr.unspanned, Expr.unspanned, text_of_paired h ht]
  | number => exact (mirrors_current h).bind fun t u ht => mirrors_readLiteral h ht
  | constant => exact (mirrors_current h).bind fun t u ht => mirrors_readConstant h ht
  | group =>
    refine (mirrors_demand h "(").bind fun _ _ _ => (hread _).bind fun e e' he => ?_
    refine (mirrors_expect h ")").bind fun _ _ _ => .pure ?_
    rw [SameTree, Expr.unspanned, Expr.unspanned, he]
  | negation =>
    refine (mirrors_demand h "-").bind fun _ _ _ => (hread _).bind fun e e' he => .pure ?_
    rw [SameTree, Expr.unspanned, Expr.unspanned, he]
  | derivative => exact (mirrors_demand h "derivative").bind fun _ _ _ => (hread _).bind fun e e' he =>
      mirrors_readDerivative h he
  | integral =>
    refine (mirrors_current h).bind fun t u ht => ?_
    rw [text_of_paired h ht]
    exact .throw (.onToken _ ht)

/-! ## The two loops -/

variable {g : Grammar}

/-- Paired tokens have the same start rule. -/
theorem nextStart?_of_paired {a b : Option Token} (hab : Option.Rel (Paired ts us) a b) :
    nextStart? g a = nextStart? g b := by
  cases hab with
  | none => rfl
  | some ht =>
    simp only [nextStart?, Option.bind_some, Grammar.startRule?, accepts_of_paired h ht]

/-- And the same extension rule. -/
theorem nextExtension?_of_paired {a b : Option Token} (hab : Option.Rel (Paired ts us) a b) (m : Nat) :
    nextExtension? g m a = nextExtension? g m b := by
  cases hab with
  | none => rfl
  | some ht =>
    simp only [nextExtension?, Option.bind_some, Grammar.extensionRule?, accepts_of_paired h ht]

/-- **The two loops are mirrored**, by induction on the levels that are left. -/
theorem mirrors_loops (n : Nat) :
    (∀ m, Mirrors ts us SameTree (readOperand (ν := ν) g n m) (readOperand g n m)) ∧
    ∀ m (lhs lhs' : Expr ν), SameTree lhs lhs' → Mirrors ts us SameTree (climb g n m lhs) (climb g n m lhs') := by
  induction n with
  | zero =>
    constructor
    · intro m
      rw [readOperand]
      exact mirrors_complainHere h _
    · intro m lhs lhs' hlhs
      rw [climb_zero_eq, climb_zero_eq]
      refine (mirrors_peek h).bind fun a b hab => ?_
      rw [nextExtension?_of_paired h hab]
      cases nextExtension? g m b with
      | none => exact .pure hlhs
      | some rule => exact mirrors_complainHere h _
  | succ n ih =>
    obtain ⟨hread, hclimb⟩ := ih
    constructor
    · intro m
      rw [readOperand_succ_eq]
      refine (mirrors_peek h).bind fun a b hab => ?_
      rw [nextStart?_of_paired h hab]
      cases nextStart? g b with
      | none => exact mirrors_complainHere h _
      | some rule => exact (mirrors_start h hread rule.start).bind (hclimb m)
    · intro m lhs lhs' hlhs
      rw [climb_succ_eq, climb_succ_eq]
      refine (mirrors_peek h).bind fun a b hab => ?_
      rw [nextExtension?_of_paired h hab]
      cases nextExtension? g m b with
      | none => exact .pure hlhs
      | some rule => exact (mirrors_extension h hread rule hlhs).bind (hclimb m)

/-! ## Whole lists of tokens -/

/-- **Tokens of the same words are parsed alike**, with any grammar: as trees that differ at most in their spans, or
    with the same error. -/
theorem parseAll_mirrors (g : Grammar) :
    (∃ e e' : Expr ν, parseAll g ts = .ok e ∧ parseAll g us = .ok e' ∧ e.unspanned = e'.unspanned) ∨
    ∃ err err', parseAll (ν := ν) g ts = .error err ∧ parseAll (ν := ν) g us = .error err' ∧ err.Same ts us err' := by
  have hread := (mirrors_loops (ν := ν) (g := g) h maxNesting).1 lowest 0
  simp only [List.drop_zero] at hread
  cases hts : (readOperand (ν := ν) g maxNesting lowest).run ⟨0, ts⟩ with
  | error err c =>
    cases hus : (readOperand (ν := ν) g maxNesting lowest).run ⟨0, us⟩ with
    | ok e' d =>
      rw [hts, hus] at hread
      exact hread.elim
    | error err' d =>
      rw [hts, hus] at hread
      exact Or.inr ⟨err, err', parseAll_of_run_error hts, parseAll_of_run_error hus, hread⟩
  | ok e c =>
    cases hus : (readOperand (ν := ν) g maxNesting lowest).run ⟨0, us⟩ with
    | error err' d =>
      rw [hts, hus] at hread
      exact hread.elim
    | ok e' d =>
      rw [hts, hus] at hread
      obtain ⟨he, i, rfl, rfl⟩ := hread
      -- whole lists have been read unless a token is left
      rw [parseAll_of_run_ok hts, parseAll_of_run_ok hus]
      simp only [← List.head?_drop]
      rcases ahead h i with ⟨hts, hus⟩ | ⟨t, u, ht, hts, hus⟩
      · rw [hts, hus]
        exact Or.inl ⟨e, e', rfl, rfl, he⟩
      · rw [hts, hus]
        exact Or.inr ⟨_, _, rfl, rfl, .onToken _ ht⟩

end Tokens

end Parsing

end Formula
