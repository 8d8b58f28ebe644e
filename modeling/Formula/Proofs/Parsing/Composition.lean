import Formula.Proofs.Parsing.Traces

/-!
# `Formula.Proofs.Parsing.Composition` — the tokens that an expression is composed of

An expression that has been read is composed of all of its tokens in their order: those of its operands and, around and
between them, the tokens of its own construct. `Composes` says so by the constructs alone; thresholds and levels, which
decide what is read, play no part in it any more.

## Contents
- `Composes` — the tokens of an expression, one constructor for each rule of the standard grammar.
- `Composes.covers` — the span of an expression is that of its tokens.
- `composes_of_run`, `composes_of_parseAll` — what is read is composed of the tokens that were taken.
-/

namespace Formula

namespace Parsing

variable {ν : Type} [Numeral ν]

/-- **Tokens compose an expression.** A derivative without a variable of its own is taken by the first one of its
    operand, or else by `x`. -/
inductive Composes : List Token → Expr ν → Prop where
  | name {t} : t.kind = .name → Composes [t] (.var t.span t.text)
  | number {t v} : t.kind = .number → (Numeral.read t.text : Except NumeralError ν) = .ok v →
      Composes [t] (.literal t.span v)
  | constant {t c} : t.kind = .constant → Constant.lookup? t.text = some c → Composes [t] (.constant t.span c)
  | group {t tc us inner} : t.word = (.symbol, "(") → Composes us inner → tc.reads ")" = true →
      Composes (t :: (us ++ [tc])) (.paren (t.span.merge tc.span) inner)
  | negation {t us inner} : t.word = (.symbol, "-") → Composes us inner →
      Composes (t :: us) (.unary (t.span.merge inner.span) .neg inner)
  | derivative {t us inner} : t.isKeyword "derivative" = true → Composes us inner →
      Composes (t :: us) (.derivative (t.span.merge inner.span) inner (inner.primaryVariable?.getD "x"))
  | derivativeBy {t us tw tx inner} : t.isKeyword "derivative" = true → Composes us inner →
      tw.isKeyword "wrt" = true → tx.kind = .name →
      Composes (t :: (us ++ [tw, tx])) (.derivative ((t.span.merge inner.span).merge tx.span) inner tx.text)
  | binary {us t vs op l r} : op ≠ .juxtapose → Composes us l → t.word = (.symbol, op.symbol) → Composes vs r →
      Composes (us ++ t :: vs) (.binary (l.span.merge r.span) op l r)
  | juxtaposed {us vs l r} : Composes us l → Composes vs r →
      Composes (us ++ vs) (.binary (l.span.merge r.span) .juxtapose l r)
  | factorial {us t inner} : Composes us inner → t.word = (.symbol, "!") →
      Composes (us ++ [t]) (.unary (inner.span.merge t.span) .factorial inner)

/-- **The span of an expression is that of its tokens.** -/
theorem Composes.covers {us : List Token} {e : Expr ν} (h : Composes us e) (hin : InOrder us) : Covers us e.span := by
  induction h with
  | name hkind => exact covers_token _
  | number hkind hread => exact covers_token _
  | constant hkind hlookup => exact covers_token _
  | @group t tc us inner hword hinner hclose ih => exact (covers_token t).merge (covers_token tc) hin
  | @negation t us inner hword hinner ih => exact (covers_token t).merge (m := []) (ih hin.tail) hin
  | @derivative t us inner hkeyword hinner ih => exact (covers_token t).merge (m := []) (ih hin.tail) hin
  | @derivativeBy t us tw tx inner hkeyword hinner hwrt hkind ih =>
    have hin' : InOrder ([t] ++ ([] ++ us) ++ ([tw] ++ [tx])) := by simpa using hin
    have hoperand := (covers_token t).merge (m := []) (ih hin.tail.left) hin'.left
    simpa [Expr.span] using hoperand.merge (m := [tw]) (covers_token tx) hin'
  | @binary us t vs op l r hop hl hword hr ihl ihr =>
    exact (ihl hin.left).merge (m := [t]) (ihr hin.right.tail) hin
  | @juxtaposed us vs l r hl hr ihl ihr => exact (ihl hin.left).merge (m := []) (ihr hin.right) hin
  | @factorial us t inner hinner hword ih => exact (ih hin.left).merge (m := []) (covers_token t) hin

/-! ## What a run reads -/

/-- What the tokens of a run compose: an expression, or what becomes of the one that stands before them. -/
def Composed (ts : List Token) (e : Expr ν) (rest : List Token) : Task ν → Prop
  | .operand _ _ => ∃ us, ts = us ++ rest ∧ Composes us e
  | .loop _ _ lhs => ∀ ws, Composes ws lhs → ∃ us, ts = us ++ rest ∧ Composes (ws ++ us) e

/-- An expression with what goes on from it. -/
theorem Composed.start {n m : Nat} {ts rest : List Token} {lhs e : Expr ν} (hgo : Composed ts e rest (.loop n m lhs))
    (us : List Token) (hus : Composes us lhs) : ∃ vs, us ++ ts = vs ++ rest ∧ Composes vs e := by
  obtain ⟨vs, rfl, hvs⟩ := hgo us hus
  exact ⟨us ++ vs, (List.append_assoc us vs rest).symm, hvs⟩

/-- A round of the loop with what goes on from it. -/
theorem Composed.round {n m : Nat} {ts rest : List Token} {lhs e : Expr ν} (hgo : Composed ts e rest (.loop n m lhs))
    {ws : List Token} (vs : List Token) (hvs : Composes (ws ++ vs) lhs) :
    ∃ us, vs ++ ts = us ++ rest ∧ Composes (ws ++ us) e := by
  obtain ⟨us, rfl, hus⟩ := hgo (ws ++ vs) hvs
  exact ⟨vs ++ us, (List.append_assoc vs us rest).symm, by rwa [← List.append_assoc]⟩

/-- **What a run reads is composed of the tokens that it takes**, by induction on the run. -/
theorem composes_of_run {task : Task ν} {ts rest : List Token} {e : Expr ν} (h : Run task ts e rest) :
    Composed ts e rest task := by
  induction h with
  | @name t ts n m e rest hkind hrun ih => exact ih.start [t] (.name hkind)
  | @number t ts n m v e rest hkind hread hfinite hrun ih => exact ih.start [t] (.number hkind hread)
  | @constant t ts n m c e rest hkind hlookup hrun ih => exact ih.start [t] (.constant hkind hlookup)
  | @group t tc ts ts' n m inner e rest hword hinner hclose hrun ihinner ih =>
    obtain ⟨us, rfl, hus⟩ := ihinner
    simpa [Composed] using ih.start _ (.group hword hus hclose)
  | @negation t ts ts' n m inner e rest hword hinner hrun ihinner ih =>
    obtain ⟨us, rfl, hus⟩ := ihinner
    exact ih.start (t :: us) (.negation hword hus)
  | @derivative t ts ts' n m inner e rest hkeyword hinner hwrt hrun ihinner ih =>
    obtain ⟨us, rfl, hus⟩ := ihinner
    exact ih.start (t :: us) (.derivative hkeyword hus)
  | @derivativeBy t tw tx ts ts' n m inner e rest hkeyword hinner hwrt hkind hrun ihinner ih =>
    obtain ⟨us, rfl, hus⟩ := ihinner
    simpa [Composed] using ih.start _ (.derivativeBy hkeyword hus hwrt hkind)
  | @stop ts n m lhs hstops => exact fun ws hws => ⟨[], rfl, by rwa [List.append_nil]⟩
  | @binary t ts ts' n m op lhs rhs e rest hop hword hm hrhs hrun ihrhs ih =>
    intro ws hws
    obtain ⟨us, rfl, hus⟩ := ihrhs
    exact ih.round (t :: us) (.binary hop hws hword hus)
  | @juxtaposed t ts ts' n m lhs rhs e rest hfactor hm hrhs hrun ihrhs ih =>
    intro ws hws
    obtain ⟨us, hts, hus⟩ := ihrhs
    rw [hts]
    exact ih.round _ (.juxtaposed hws hus)
  | @factorial t ts n m lhs e rest hword hm hrun ih =>
    intro ws hws
    exact ih.round [t] (.factorial hws hword)

/-- **A list of tokens that is read as an expression composes it.** -/
theorem composes_of_parseAll {ts : List Token} {e : Expr ν} (h : parseAll Grammar.standard ts = .ok e) :
    Composes ts e := by
  obtain ⟨us, rfl, hus⟩ := composes_of_run (run_of_parseAll h)
  rwa [List.append_nil]

end Parsing

end Formula
