import Formula.Number.Double
import Formula.Proofs.Parsing.Runs

/-!
# `Formula.Proofs.Parsing.Extending` — grammars with further rules

Rules that are added behind those of a grammar are taken only for tokens that have none. What begins an expression has
a rule wherever the parser succeeds, so nothing changes there. But an expression also ends where the next token has no
extension rule, and there a further rule could go on. If the whole list of tokens is read, then such a token is taken in
the end by what has been waiting for it: by a group, whose parenthesis it closes, or by a derivative, for whose variable
it is the word. With rules that leave these two kinds of tokens alone, every expression is read as it was.

## Contents
- `Grammar.Extends`, `extends_append` — a grammar with further rules.
- `Settled`, `LooksBack` — tokens at which nothing changes, and what is known of those before a step that succeeds.
- `Carries` — a step that succeeds does so with further rules; the rules and the two loops.
- `parseAll_append` — whole lists of tokens.
-/

namespace Formula

open Parsing

/-- Symbols and keywords that read as a closing parenthesis are written as one. -/
theorem text_of_reads_close {t : Token} (h : t.reads ")" = true) : t.text = ")" := by
  rw [Token.reads] at h
  split at h
  · have hletters : t.text.toList.map Char.toLower = [')'] := beq_iff_eq.mp h
    obtain ⟨c, htext, hc⟩ := List.map_eq_singleton_iff.mp hletters
    have hcode : c.toLower.toNat = 41 := congrArg Char.toNat hc
    rw [toNat_toLower] at hcode
    split at hcode
    · next hupper =>
      rw [isUpper_iff] at hupper
      omega
    · rw [← String.toList_inj, htext, Char.toNat_inj.mp (hcode.trans (show 41 = ')'.toNat from rfl))]
      rfl
  · exact beq_iff_eq.mp h

/-- **A grammar with further rules**, which yield to those of another one and leave alone the tokens that close a group
    or name a variable. -/
structure Grammar.Extends (g' g : Grammar) : Prop where
  start : ∀ {t rule}, g.startRule? t = some rule → g'.startRule? t = some rule
  extension : ∀ {t rule}, g.extensionRule? t = some rule → g'.extensionRule? t = some rule
  closing : ∀ {t}, t.reads ")" = true → g.extensionRule? t = none → g'.extensionRule? t = none
  naming : ∀ {t}, t.isKeyword "wrt" = true → g.extensionRule? t = none → g'.extensionRule? t = none

/-- Rules are found behind those of the grammar if none of these accepts the token. -/
theorem extends_append {g : Grammar} {starts : List StartRule} {extensions : List ExtensionRule}
    (h : ∀ rule ∈ extensions, ∀ t : Token, t.text = ")" ∨ t.isKeyword "wrt" = true → rule.token.accepts t = false) :
    (g.append starts extensions).Extends g := by
  have hnone {t : Token} (ht : t.text = ")" ∨ t.isKeyword "wrt" = true) (hg : g.extensionRule? t = none) :
      (g.append starts extensions).extensionRule? t = none := by
    rw [Grammar.extensionRule?] at hg ⊢
    rw [Grammar.append, List.find?_append, hg, Option.none_or, List.find?_eq_none]
    intro rule hrule
    rw [h rule hrule t ht]
    exact Bool.false_ne_true
  constructor
  · intro t rule hrule
    rw [Grammar.startRule?] at hrule ⊢
    rw [Grammar.append, List.find?_append, hrule, Option.some_or]
  · intro t rule hrule
    rw [Grammar.extensionRule?] at hrule ⊢
    rw [Grammar.append, List.find?_append, hrule, Option.some_or]
  · exact fun ht => hnone (Or.inl (text_of_reads_close ht))
  · exact fun ht => hnone (Or.inr ht)

namespace Parsing

variable {α β : Type} {g g' : Grammar}

/-! ## Where nothing changes -/

/-- **Tokens at which nothing changes**: a further rule does not go on where there was none. -/
def Settled (g g' : Grammar) (rest : List Token) : Prop :=
  ∀ t ∈ rest.head?, g.extensionRule? t = none → g'.extensionRule? t = none

theorem settled_nil (g g' : Grammar) : Settled g g' [] := fun _ ht => by cases ht

theorem settled_cons {t : Token} {rest : List Token} (h : g.extensionRule? t = none → g'.extensionRule? t = none) :
    Settled g g' (t :: rest) := by
  intro t' ht
  obtain rfl := Option.some.inj ht
  exact h

/-- Where the loop stops, it stops with further rules as well. -/
theorem Settled.stops {m : Nat} {rest : List Token} (h : Settled g g' rest) (hg : g'.Extends g) (hstops : Stops g m rest) :
    Stops g' m rest := by
  intro t ht rule hrule
  cases hold : g.extensionRule? t with
  | none =>
    rw [h t ht hold] at hrule
    cases hrule
  | some rule' =>
    obtain rfl := Option.some.inj ((hg.extension hold).symm.trans hrule)
    exact hstops t ht rule' hold

/-- **A step before which nothing changes**, if nothing does where it ends. -/
def LooksBack (g g' : Grammar) (x : Parsing α) : Prop :=
  ∀ c a c', x.run c = .ok a c' → Settled g g' c'.rest → Settled g g' c.rest

theorem LooksBack.pure (a : α) : LooksBack g g' (Pure.pure a : Parsing α) := by
  intro c a' c' h hc
  cases h
  exact hc

theorem LooksBack.bind {x : Parsing α} {f : α → Parsing β} (hx : LooksBack g g' x) (hf : ∀ a, LooksBack g g' (f a)) :
    LooksBack g g' (x >>= f) := by
  intro c b c' h hc
  obtain ⟨a, c₁, hxrun, hfrun⟩ := exists_of_run_bind h
  exact hx c a c₁ hxrun (hf a c₁ b c' hfrun hc)

/-- A parenthesis that is closed has no further rule. -/
theorem looksBack_expect (hg : g'.Extends g) : LooksBack g g' (expect ")") := by
  rintro ⟨k, ts⟩ t c' h -
  obtain ⟨ts', rfl, -, hreads⟩ := expect_ok h
  exact settled_cons (hg.closing hreads)

variable {ν : Type}

/-- Nor has the word for a variable. -/
theorem looksBack_readDerivative (hg : g'.Extends g) (keyword : Token) (e : Expr ν) :
    LooksBack g g' (readDerivative keyword e) := by
  rintro ⟨k, ts⟩ d c' h hc
  rcases readDerivative_ok h with ⟨-, rfl, -⟩ | ⟨tw, tx, ts', rfl, hwrt, -, -, -⟩
  · exact hc
  · exact settled_cons (hg.naming hwrt)

/-- The loop stops where it begins, or has a rule there. -/
theorem looksBack_climb [Numeral ν] (n m : Nat) (lhs : Expr ν) : LooksBack g g' (climb g n m lhs) := by
  rintro ⟨k, ts⟩ e c' h hc
  rcases climb_ok h with ⟨-, -, rfl⟩ | ⟨n', t, ts', rule, -, rfl, hrule, -, -⟩
  · exact hc
  · refine settled_cons fun hnone => ?_
    rw [hrule] at hnone
    cases hnone

/-! ## Succeeding with further rules -/

/-- **A step whose success carries over** to the one with further rules, if nothing changes where it ends. -/
def Carries (g g' : Grammar) (x x' : Parsing α) : Prop :=
  ∀ c a c', x.run c = .ok a c' → Settled g g' c'.rest → x'.run c = .ok a c'

theorem Carries.bind {x x' : Parsing α} {f f' : α → Parsing β} (hx : Carries g g' x x')
    (hback : ∀ a, LooksBack g g' (f a)) (hf : ∀ a, Carries g g' (f a) (f' a)) :
    Carries g g' (x >>= f) (x' >>= f') := by
  intro c b c' h hc
  obtain ⟨a, c₁, hxrun, hfrun⟩ := exists_of_run_bind h
  rw [run_bind_ok (hx c a c₁ hxrun (hback a c₁ b c' hfrun hc))]
  exact hf a c₁ b c' hfrun hc

/-- A first step that goes by the tokens alone. -/
theorem Carries.after {x : Parsing α} {f f' : α → Parsing β} (hf : ∀ a, Carries g g' (f a) (f' a)) :
    Carries g g' (x >>= f) (x >>= f') := by
  intro c b c' h hc
  obtain ⟨a, c₁, hxrun, hfrun⟩ := exists_of_run_bind h
  rw [run_bind_ok hxrun]
  exact hf a c₁ b c' hfrun hc

theorem Carries.refl (x : Parsing α) : Carries g g' x x := fun _ _ _ h _ => h

section Rules

variable {operand operand' : Nat → Parsing (Expr ν)}

theorem carries_start_build [Numeral ν] (hg : g'.Extends g) (h : ∀ m, Carries g g' (operand m) (operand' m))
    (start : Start) : Carries g g' (start.build operand) (start.build operand') := by
  cases start with
  | group =>
    refine .after fun opening => (h lowest).bind (fun inner => ?_) fun inner => .refl _
    exact (looksBack_expect hg).bind fun closing => .pure _
  | negation => exact .after fun minus => (h _).bind (fun e => .pure _) fun e => .refl _
  | derivative =>
    exact .after fun keyword => (h lowest).bind (looksBack_readDerivative hg keyword) fun e => .refl _
  | _ => exact .refl _

theorem carries_extension_build (h : ∀ m, Carries g g' (operand m) (operand' m)) (rule : ExtensionRule)
    (lhs : Expr ν) : Carries g g' (rule.build operand lhs) (rule.build operand' lhs) := by
  obtain ⟨token, operator, extension⟩ := rule
  cases extension with
  | binary =>
    cases operator with
    | binary op => exact .after fun _ => (h _).bind (fun rhs => .pure _) fun rhs => .refl _
    | unary op => exact .refl _
  | unary => cases operator <;> exact .refl _
  | juxtaposed => exact (h _).bind (fun rhs => .pure _) fun rhs => .refl _

end Rules

variable [Numeral ν]

/-- The loop with one more level. -/
theorem carries_climb_of (hg : g'.Extends g) {n : Nat}
    (h : ∀ n', n = n' + 1 → (∀ m, Carries g g' (readOperand (ν := ν) g n' m) (readOperand g' n' m)) ∧
      ∀ m (lhs : Expr ν), Carries g g' (climb g n' m lhs) (climb g' n' m lhs)) (m : Nat) (lhs : Expr ν) :
    Carries g g' (climb g n m lhs) (climb g' n m lhs) := by
  rintro ⟨k, ts⟩ e c' hclimb hc
  rcases climb_ok hclimb with ⟨hstops, rfl, rfl⟩ | ⟨n', t, ts', rule, rfl, rfl, hrule, hm, hrun⟩
  · exact climb_run_of_stops (hc.stops hg hstops) n k e
  · obtain ⟨hread, hgo⟩ := h n' rfl
    rw [climb_run_step (hg.extension hrule) hm]
    exact (carries_extension_build hread rule lhs).bind (looksBack_climb n' m) (hgo m) _ _ _ hrun hc

/-- **The two loops succeed with further rules**, by induction on the levels that are left. -/
theorem carries_loops (hg : g'.Extends g) (n : Nat) :
    (∀ m, Carries g g' (readOperand (ν := ν) g n m) (readOperand g' n m)) ∧
      ∀ m (lhs : Expr ν), Carries g g' (climb g n m lhs) (climb g' n m lhs) := by
  induction n with
  | zero =>
    constructor
    · rintro m ⟨k, ts⟩ e c' h -
      obtain ⟨n', -, -, -, hn, -⟩ := readOperand_ok h
      cases hn
    · exact carries_climb_of hg fun n' hn => by cases hn
  | succ n ih =>
    obtain ⟨hread, hgo⟩ := ih
    constructor
    · rintro m ⟨k, ts⟩ e c' h hc
      obtain ⟨n', t, ts', rule, hn, rfl, hrule, hrun⟩ := readOperand_ok h
      obtain rfl := Nat.succ.inj hn
      rw [readOperand_run (hg.start hrule)]
      exact (carries_start_build hg hread rule.start).bind (looksBack_climb n m) (hgo m) _ _ _ hrun hc
    · refine carries_climb_of hg fun n' hn => ?_
      obtain rfl := Nat.succ.inj hn
      exact ⟨hread, hgo⟩

/-! ## Whole lists of tokens -/

/-- **Further rules are conservative**: where no extension rule among them accepts a closing parenthesis or the word for
    the variable of a derivative, a list of tokens that is read as an expression is read as the same one, spans
    included. -/
theorem parseAll_append {starts : List StartRule} {extensions : List ExtensionRule}
    (hextensions : ∀ rule ∈ extensions, ∀ t : Token, t.text = ")" ∨ t.isKeyword "wrt" = true →
      rule.token.accepts t = false)
    {ts : List Token} {e : Expr ν} (h : parseAll g ts = .ok e) :
    parseAll (g.append starts extensions) ts = .ok e := by
  have hrun := exists_run_of_parseAll h
  exact parseAll_of_run ((carries_loops (extends_append hextensions) maxNesting).1 lowest _ _ _ hrun (settled_nil _ _))

/-- Remainders and squares, for which there are no words in a derivative by `y`. -/
theorem parseAll_append_derivative :
    let starts : List StartRule := [⟨.symbol "[", .group⟩]
    let extensions : List ExtensionRule := [.binary (.symbol "%") .div, .unary (.keyword "squared") .factorial]
    let ts : List Token := [⟨.keyword, "derivative", ⟨0, 10⟩⟩, ⟨.symbol, "(", ⟨11, 12⟩⟩, ⟨.name, "x", ⟨12, 13⟩⟩,
      ⟨.symbol, "+", ⟨14, 15⟩⟩, ⟨.name, "y", ⟨16, 17⟩⟩, ⟨.symbol, ")", ⟨17, 18⟩⟩, ⟨.keyword, "WRT", ⟨19, 22⟩⟩,
      ⟨.name, "y", ⟨23, 24⟩⟩]
    let e : Expr Float := .derivative ⟨0, 24⟩ (.paren ⟨11, 18⟩
      (.binary ⟨12, 17⟩ .add (.var ⟨12, 13⟩ "x") (.var ⟨16, 17⟩ "y"))) "y"
    (∀ rule ∈ extensions, ∀ t : Token, t.text = ")" ∨ t.isKeyword "wrt" = true → rule.token.accepts t = false) ∧
      parseAll .standard ts = .ok e ∧ parseAll (Grammar.standard.append starts extensions) ts = .ok e := by
  intro starts extensions ts e
  have hextensions : ∀ rule ∈ extensions, ∀ t : Token, t.text = ")" ∨ t.isKeyword "wrt" = true →
      rule.token.accepts t = false := by
    intro rule hrule t ht
    simp only [extensions, List.mem_cons, List.not_mem_nil, or_false] at hrule
    rcases hrule with rfl | rfl <;> rcases ht with htext | hwrt
    · simp [ExtensionRule.binary, TokenMatch.accepts, Token.isSymbol, htext]
    · have hkind : t.kind = .keyword := beq_iff_eq.mp (Bool.and_eq_true_iff.mp hwrt).1
      simp [ExtensionRule.binary, TokenMatch.accepts, Token.isSymbol, hkind]
    · simp [ExtensionRule.unary, TokenMatch.accepts, Token.isKeyword, sameLetters, htext]
    · have hletters : t.text.toList.map Char.toLower = "wrt".toList.map Char.toLower :=
        beq_iff_eq.mp (Bool.and_eq_true_iff.mp hwrt).2
      simp [ExtensionRule.unary, TokenMatch.accepts, Token.isKeyword, sameLetters, hletters]
  have hparse : parseAll .standard ts = .ok e := by decide +kernel
  exact ⟨hextensions, hparse, parseAll_append hextensions hparse⟩

end Parsing

end Formula
