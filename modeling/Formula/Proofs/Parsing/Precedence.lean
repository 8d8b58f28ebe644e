import Formula.Proofs.Expr.Operands
import Formula.Proofs.Parsing.Runs

/-!
# `Formula.Proofs.Parsing.Precedence` — what is read groups by precedence, whatever the grammar

The rules of a grammar may accept any tokens, in any order, and still the operators of what is read are nested by
their precedences. The reason is one invariant of the loop: the next token has no rule that binds tighter than the
last operand was read at, because the reading of that operand would have gone on there. The rule that it stopped at
is the rule that the loop takes next, as both look it up in the same grammar.

## Contents
- `ExtensionRule.Regular` — the rules that are made from an operator of their own kind.
- `Awaits`, `Ready` — the invariant, and one lemma for each way in which an expression is built.
- `ready_of_start`, `ready_of_extension` — what the rules build; `operandsBare_and_growsBare` — what the loops do.
- `standsBare_of_expression` — operands of what is read stand bare, at every node.
-/

namespace Formula

open Formula.Expr

/-- **The rules that are made from an operator of their own kind**, for any tokens. The only operator after an operand
    is the factorial. -/
inductive ExtensionRule.Regular : ExtensionRule → Prop where
  | binary (token : TokenMatch) (op : BinaryOp) : Regular (.binary token op)
  | factorial (token : TokenMatch) : Regular (.unary token .factorial)
  | juxtaposed (token : TokenMatch) : Regular (.juxtaposed token)

namespace Parsing

variable {ν : Type} [Numeral ν] {g : Grammar}

/-- What follows an expression does not bind tighter than the expression's last operand was read at. -/
def Awaits (g : Grammar) (rest : List Token) (e : Expr ν) : Prop :=
  ∀ b ∈ e.binding?, b.fixity = .after ∨ Stops g b.threshold rest

/-- **What is known of an expression that the loop goes on from**, above a threshold and before some tokens. -/
structure Ready (g : Grammar) (m : Nat) (rest : List Token) (e : Expr ν) : Prop where
  bare : ∀ t ∈ e.subtrees, t.StandsBare
  fits : Fits m e
  awaits : Awaits g rest e

/-- What is known of an expression that has been read as an operand. -/
structure ReadBare (g : Grammar) (m : Nat) (rest : List Token) (e : Expr ν) : Prop where
  bare : ∀ t ∈ e.subtrees, t.StandsBare
  fits : Fits m e
  stops : Stops g m rest

/-! ## What is built from expressions that have been read -/

/-- A tree whose root is no operator. -/
theorem Ready.of_closed {m : Nat} {rest : List Token} {e : Expr ν} (hb : e.binding? = none)
    (hbelow : ∀ t ∈ e.subtrees, t = e ∨ t.StandsBare) : Ready g m rest e where
  bare := by
    intro t ht
    rcases hbelow t ht with rfl | hbare
    · exact standsBare_of_binding? hb
    · exact hbare
  fits := by
    intro b h
    rw [hb] at h
    cases h
  awaits := by
    intro b h
    rw [hb] at h
    cases h

theorem Ready.leaf {m : Nat} {rest : List Token} {e : Expr ν} (hb : e.binding? = none) (he : e.subtrees = [e]) :
    Ready g m rest e := by
  refine .of_closed hb fun t ht => Or.inl ?_
  rw [he] at ht
  exact List.mem_singleton.mp ht

theorem ReadBare.paren {m m' : Nat} {rest rest' : List Token} {e : Expr ν} (h : ReadBare g m rest e) (s : Span) :
    Ready g m' rest' (.paren s e) :=
  .of_closed rfl fun t ht => (List.mem_cons.mp ht).imp_right (h.bare t)

theorem ReadBare.derivative {m m' : Nat} {rest rest' : List Token} {e : Expr ν} (h : ReadBare g m rest e) (s : Span)
    (x : String) : Ready g m' rest' (.derivative s e x) :=
  .of_closed rfl fun t ht => (List.mem_cons.mp ht).imp_right (h.bare t)

/-- A negation, whose operand was read at its own threshold. -/
theorem ReadBare.neg {m : Nat} {rest : List Token} {e : Expr ν} (h : ReadBare g UnaryOp.neg.binding.threshold rest e)
    (s : Span) : Ready g m rest (.unary s .neg e) where
  bare := by
    have hneg : Operator.unary .neg ≠ .unary .factorial := by decide
    refine List.forall_mem_cons.mpr ⟨standsBare_unary fun hlit => ?_, h.bare⟩
    refine (needsParens_right_iff hneg e).mpr ?_
    rw [writtenBinding?_of_literal? hlit]
    exact h.fits
  fits := fits_neg m s e
  awaits := by
    intro b hb
    obtain rfl := Option.some.inj hb
    exact Or.inr h.stops

/-- **An operand on the left stands bare before a rule that the loop goes on with**: the rule binds no tighter than
    the operand's own last operand was read at. -/
theorem Ready.needsParens_left {m : Nat} {t : Token} {ts : List Token} {rule : ExtensionRule} {parent : Operator}
    {e : Expr ν} (h : Ready g m (t :: ts) e) (hrule : g.extensionRule? t = some rule) (hparent : parent ≠ .unary .neg)
    (hprec : rule.precedence = parent.binding.precedence) (hlit : e.literal? = none) :
    needsParens parent.binding e .left = false := by
  rw [needsParens_left_iff hparent, writtenBinding?_of_literal? hlit]
  intro b hb
  rcases h.awaits b hb with hafter | hstops
  · exact Or.inl hafter
  · have hle : rule.precedence ≤ b.threshold := hstops t rfl rule hrule
    rw [hprec] at hle
    exact Or.inr hle

theorem Ready.factorial {m : Nat} {t : Token} {ts rest : List Token} {rule : ExtensionRule} {e : Expr ν}
    (h : Ready g m (t :: ts) e) (hrule : g.extensionRule? t = some rule)
    (hprec : rule.precedence = UnaryOp.factorial.binding.precedence) (hm : m < rule.precedence) (s : Span) :
    Ready g m rest (.unary s .factorial e) where
  bare := by
    have hfactorial : Operator.unary .factorial ≠ .unary .neg := by decide
    exact List.forall_mem_cons.mpr ⟨standsBare_unary (h.needsParens_left hrule hfactorial hprec), h.bare⟩
  fits := by
    rw [hprec] at hm
    exact fits_factorial.mpr hm
  awaits := by
    intro b hb
    obtain rfl := Option.some.inj hb
    exact Or.inl rfl

/-- An operation between an expression that the loop goes on from and an operand that was read at the operator's
    threshold. -/
theorem Ready.binary {m : Nat} {op : BinaryOp} {t : Token} {ts rest : List Token} {rule : ExtensionRule} {l r : Expr ν}
    (hl : Ready g m (t :: ts) l) (hrule : g.extensionRule? t = some rule)
    (hprec : rule.precedence = op.binding.precedence) (hm : m < rule.precedence)
    (hr : ReadBare g op.binding.threshold rest r) (s : Span) : Ready g m rest (.binary s op l r) where
  bare := by
    have hright : r.literal? = none → needsParens op.binding r .right = false := by
      intro hlit
      have hop : Operator.binary op ≠ .unary .factorial := nofun
      refine (needsParens_right_iff hop r).mpr ?_
      rw [writtenBinding?_of_literal? hlit]
      exact hr.fits
    have hop : Operator.binary op ≠ .unary .neg := nofun
    have hleft := hl.needsParens_left hrule hop hprec
    refine List.forall_mem_cons.mpr ⟨standsBare_binary hleft hright, ?_⟩
    exact List.forall_mem_append.mpr ⟨hl.bare, hr.bare⟩
  fits := by
    rw [hprec] at hm
    exact fits_binary.mpr hm
  awaits := by
    intro b hb
    obtain rfl := Option.some.inj hb
    exact Or.inr hr.stops

/-! ## What the rules build -/

/-- A step reads operands that stand bare. -/
def OperandsBare (g : Grammar) (operand : Nat → Parsing (Expr ν)) : Prop :=
  ∀ {m : Nat} {c c' : Cursor} {e : Expr ν}, (operand m).run c = .ok e c' → ReadBare g m c'.rest e

/-- Whatever begins an expression is one that the loop can go on from. -/
theorem ready_of_start {operand : Nat → Parsing (Expr ν)} (hread : OperandsBare g operand) {start : Start}
    {c c' : Cursor} {e : Expr ν} (h : (start.build operand).run c = .ok e c') (m : Nat) : Ready g m c'.rest e := by
  cases start with
  | «variable» =>
    obtain ⟨t, c₁, -, h⟩ := exists_of_run_bind h
    cases h
    exact .leaf rfl rfl
  | number =>
    obtain ⟨t, c₁, -, h⟩ := exists_of_run_bind h
    obtain ⟨v, -, -, rfl, rfl⟩ := readLiteral_ok h
    exact .leaf rfl rfl
  | constant =>
    obtain ⟨t, c₁, -, h⟩ := exists_of_run_bind h
    obtain ⟨v, -, rfl, rfl⟩ := readConstant_ok h
    exact .leaf rfl rfl
  | group =>
    obtain ⟨opening, c₁, -, h⟩ := exists_of_run_bind h
    obtain ⟨inner, c₂, hinner, h⟩ := exists_of_run_bind h
    obtain ⟨closing, c₃, -, h⟩ := exists_of_run_bind h
    cases h
    exact (hread hinner).paren _
  | negation =>
    obtain ⟨minus, c₁, -, h⟩ := exists_of_run_bind h
    obtain ⟨inner, c₂, hinner, h⟩ := exists_of_run_bind h
    cases h
    exact (hread hinner).neg _
  | derivative =>
    obtain ⟨keyword, c₁, -, h⟩ := exists_of_run_bind h
    obtain ⟨inner, c₂, hinner, h⟩ := exists_of_run_bind h
    rcases readDerivative_ok h with ⟨-, rfl, rfl⟩ | ⟨tw, tx, ts, -, -, -, rfl, rfl⟩
    · exact (hread hinner).derivative _ _
    · exact (hread hinner).derivative _ _
  | integral =>
    obtain ⟨t, c₁, -, h⟩ := exists_of_run_bind h
    cases h

/-- So is whatever a rule makes of such an expression. -/
theorem ready_of_extension {operand : Nat → Parsing (Expr ν)} (hread : OperandsBare g operand) {rule : ExtensionRule}
    (hregular : rule.Regular) {t : Token} {ts : List Token} (hrule : g.extensionRule? t = some rule) {m k : Nat}
    (hm : m < rule.precedence) {lhs e : Expr ν} {c' : Cursor} (hlhs : Ready g m (t :: ts) lhs)
    (h : (rule.build operand lhs).run ⟨k, t :: ts⟩ = .ok e c') : Ready g m c'.rest e := by
  cases hregular with
  | binary token op =>
    obtain ⟨t', c₁, -, h⟩ := exists_of_run_bind (x := current) h
    obtain ⟨rhs, c₂, hrhs, h⟩ := exists_of_run_bind h
    cases h
    exact hlhs.binary hrule rfl hm (hread hrhs) _
  | factorial token =>
    obtain ⟨t', c₁, -, h⟩ := exists_of_run_bind (x := current) h
    cases h
    exact hlhs.factorial hrule rfl hm _
  | juxtaposed token =>
    obtain ⟨rhs, c₂, hrhs, h⟩ := exists_of_run_bind (x := operand _) h
    cases h
    exact hlhs.binary hrule rfl hm (hread hrhs) _

/-! ## The two loops -/

/-- Going on with so many levels keeps operands bare. -/
def GrowsBare (ν : Type) [Numeral ν] (g : Grammar) (n : Nat) : Prop :=
  ∀ {m : Nat} {lhs e : Expr ν} {c c' : Cursor},
    (climb g n m lhs).run c = .ok e c' → Ready g m c.rest lhs → ReadBare g m c'.rest e

/-- The loop with one more level. -/
theorem growsBare_of (hg : ∀ rule ∈ g.extensions, rule.Regular) {n : Nat}
    (h : ∀ n', n = n' + 1 → OperandsBare g (readOperand (ν := ν) g n') ∧ GrowsBare ν g n') : GrowsBare ν g n := by
  intro m lhs e c c' hclimb hlhs
  obtain ⟨k, ts⟩ := c
  rcases climb_ok hclimb with ⟨hstops, rfl, rfl⟩ | ⟨n', t, ts', rule, rfl, rfl, hrule, hm, hrun⟩
  · exact ⟨hlhs.bare, hlhs.fits, hstops⟩
  · obtain ⟨lhs', c₁, hbuild, hrun⟩ := exists_of_run_bind hrun
    obtain ⟨hread, hgrow⟩ := h n' rfl
    have hregular : rule.Regular := hg rule (List.mem_of_find?_eq_some hrule)
    exact hgrow hrun (ready_of_extension hread hregular hrule hm hlhs hbuild)

/-- **The two loops keep operands bare**, by induction on the levels that are left. -/
theorem operandsBare_and_growsBare (hg : ∀ rule ∈ g.extensions, rule.Regular) (n : Nat) :
    OperandsBare g (readOperand (ν := ν) g n) ∧ GrowsBare ν g n := by
  induction n with
  | zero =>
    constructor
    · rintro m ⟨k, ts⟩ c' e h
      obtain ⟨n', -, -, -, hn, -⟩ := readOperand_ok h
      cases hn
    · exact growsBare_of hg fun n' hn => by cases hn
  | succ n ih =>
    obtain ⟨hread, hgrow⟩ := ih
    constructor
    · rintro m ⟨k, ts⟩ c' e h
      obtain ⟨n', t, ts', rule, hn, rfl, -, hrun⟩ := readOperand_ok h
      obtain rfl := Nat.succ.inj hn
      obtain ⟨lhs, c₁, hbuild, hrun⟩ := exists_of_run_bind hrun
      exact hgrow hrun (ready_of_start hread hbuild m)
    · intro m lhs e c c' hclimb hlhs
      refine growsBare_of hg (fun n' hn => ?_) hclimb hlhs
      obtain rfl := Nat.succ.inj hn
      exact ⟨hread, hgrow⟩

/-- **What is read groups by precedence**, whatever tokens the rules of the grammar accept: at no node would an operand
    be written in parentheses, literals apart; the root binds tighter than the threshold; and so operators are nested
    by precedence and grouping throughout. -/
theorem standsBare_of_expression (hg : ∀ rule ∈ g.extensions, rule.Regular) {m : Nat} {c c' : Cursor} {e : Expr ν}
    (h : (expression g m).run c = .ok e c') :
    (∀ t ∈ e.subtrees, t.StandsBare) ∧ (∀ s op l r, e = .binary s op l r → m < op.binding.precedence) ∧
      ∀ t ∈ e.subtrees, t.GroupsByPrecedence := by
  obtain ⟨hbare, hfits, -⟩ := (operandsBare_and_growsBare (ν := ν) hg maxNesting).1 h
  refine ⟨hbare, ?_, fun t ht => (hbare t ht).groupsByPrecedence⟩
  rintro s op l r rfl
  exact fits_binary.mp hfits

/-- Three operators with words of their own, the tightest first. -/
theorem standsBare_of_expression_words :
    let g : Grammar := ⟨[⟨.symbol "-", .negation⟩, ⟨.kind .name, .variable⟩],
      [.binary (.keyword "to") .pow, .binary (.keyword "less") .sub, .unary (.keyword "fully") .factorial]⟩
    let x : Token := ⟨.name, "x", .nowhere⟩
    let less : Token := ⟨.keyword, "less", .nowhere⟩
    let c : Cursor := .start [x, less, x, less, ⟨.symbol, "-", .nowhere⟩, x, ⟨.keyword, "to", .nowhere⟩, x,
      ⟨.keyword, "fully", .nowhere⟩]
    let v : Expr Float := .var .nowhere "x"
    let e : Expr Float := .binary .nowhere .sub (.binary .nowhere .sub v v)
      (.unary .nowhere .neg (.binary .nowhere .pow v (.unary .nowhere .factorial v)))
    (∀ rule ∈ g.extensions, rule.Regular) ∧ (expression g lowest).run c = .ok e ⟨9, []⟩ ∧
      (∀ t ∈ e.subtrees, t.StandsBare) ∧ ∀ t ∈ e.subtrees, t.GroupsByPrecedence := by
  intro g x less c v e
  have hg : ∀ rule ∈ g.extensions, rule.Regular := by
    intro rule hrule
    simp only [g, List.mem_cons, List.not_mem_nil, or_false] at hrule
    rcases hrule with rfl | rfl | rfl
    · exact .binary _ _
    · exact .binary _ _
    · exact .factorial _
  have hrun : (expression g lowest).run c = .ok e ⟨9, []⟩ := by cbv
  obtain ⟨hbare, -, hgroups⟩ := standsBare_of_expression hg hrun
  exact ⟨hg, hrun, hbare, hgroups⟩

end Parsing

end Formula
