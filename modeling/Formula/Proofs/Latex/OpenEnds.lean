import Formula.Number.Double
import Formula.Parsing.Parse
import Formula.Proofs.Expr.Grouping
import Formula.Proofs.Expr.Operands
import Formula.Proofs.Expr.Spans
import Mathlib.Data.List.Infix

/-!
# `Formula.Proofs.Latex.OpenEnds` — what follows a derivative or an integral

The LaTeX of a derivative or an integral runs on to the right without an end of its own. Where an operator follows that
would take it in, it is put in parentheses; but that is decided by looking at the root of an operand only, and a
negation is no open end although its operand may be one. So a product may follow right behind a derivative that is
negated. Nothing else that binds tighter than a sum may.

## Contents
- `ChildIn` — where a child stands in the LaTeX of an expression; `ChildIn.latex_eq`.
- `StandsIn` — where a node does.
- `Behind`, `ChildIn.behind`, `ChildIn.last` — what is behind a child, and what an expression ends with.
- `Followed`, `followed_of_standsIn` — what follows an open end.
- `open_end_followed` — no power and no factorial, and a product only behind a negation.
-/

namespace Formula.Expr

variable {ν : Type}

/-! ## The children within the LaTeX -/

/-- What is put before a text in parentheses, where they are wanted. -/
def opening (wanted : Bool) : String := if wanted then "\\left(" else ""

/-- What is put behind it. -/
def closing (wanted : Bool) : String := if wanted then "\\right)" else ""

theorem latexParenthesized_eq (wanted : Bool) (text : String) :
    latexParenthesized wanted text = opening wanted ++ text ++ closing wanted := by
  cases wanted <;> simp [latexParenthesized, opening, closing]

variable [Numeral ν]

/-- **A child stands between two texts** in the LaTeX of an expression. -/
inductive ChildIn : Expr ν → String → Expr ν → String → Prop where
  | paren {s e} : ChildIn (paren s e) "\\left(" e "\\right)"
  | numerator {s l r} : ChildIn (binary s .div l r) "\\frac\x7b" l ("\x7d\x7b" ++ r.latex ++ "\x7d")
  | denominator {s l r} : ChildIn (binary s .div l r) ("\\frac\x7b" ++ l.latex ++ "\x7d\x7b") r "\x7d"
  | base {s l r} : ChildIn (binary s .pow l r) (opening (latexOperandNeedsParens .pow l .left)) l
      (closing (latexOperandNeedsParens .pow l .left) ++ ("^\x7b" ++ r.latex ++ "\x7d"))
  | exponent {s l r} : ChildIn (binary s .pow l r)
      (latexParenthesized (latexOperandNeedsParens .pow l .left) l.latex ++ "^\x7b") r "\x7d"
  | left {s op l r} : op ≠ .div → op ≠ .pow → ChildIn (binary s op l r) (opening (latexOperandNeedsParens op l .left)) l
      (closing (latexOperandNeedsParens op l .left) ++
        (latexSeparator op ++ latexParenthesized (latexOperandNeedsParens op r .right) r.latex))
  | right {s op l r} : op ≠ .div → op ≠ .pow → ChildIn (binary s op l r)
      (latexParenthesized (latexOperandNeedsParens op l .left) l.latex ++ latexSeparator op ++
        opening (latexOperandNeedsParens op r .right)) r (closing (latexOperandNeedsParens op r .right))
  | negated {s e} : ChildIn (unary s .neg e) ("-" ++ opening (needsParens UnaryOp.neg.binding e .right)) e
      (closing (needsParens UnaryOp.neg.binding e .right))
  | factorial {s e} : ChildIn (unary s .factorial e)
      (opening (needsParens UnaryOp.factorial.binding e .left || e.isOpenEnded)) e
      (closing (needsParens UnaryOp.factorial.binding e .left || e.isOpenEnded) ++ "!")
  | differentiated {s e x} : ChildIn (derivative s e x)
      ("\\frac\x7b\\mathrm\x7bd\x7d\x7d\x7b\\mathrm\x7bd\x7d" ++ latexName x ++ "\x7d\\," ++ "\\left(") e
      "\\right)"
  | integrand {s e x} : ChildIn (integral s e x) "\\int\x7b\x7d" e ("\\,\\mathrm\x7bd\x7d" ++ x.latex)
  | wrt {s e x} : ChildIn (integral s e x) ("\\int\x7b\x7d" ++ e.latex ++ "\\,\\mathrm\x7bd\x7d") x ""
  | definiteIntegrand {s e x a b} : ChildIn (definiteIntegral s e x a b)
      ("\\int_\x7b" ++ a.latex ++ "\x7d^\x7b" ++ b.latex ++ "\x7d") e ("\\,\\mathrm\x7bd\x7d" ++ x.latex)
  | definiteWrt {s e x a b} : ChildIn (definiteIntegral s e x a b)
      ("\\int_\x7b" ++ a.latex ++ "\x7d^\x7b" ++ b.latex ++ "\x7d" ++ e.latex ++ "\\,\\mathrm\x7bd\x7d") x ""
  | lower {s e x a b} : ChildIn (definiteIntegral s e x a b) "\\int_\x7b" a
      ("\x7d^\x7b" ++ b.latex ++ "\x7d" ++ e.latex ++ "\\,\\mathrm\x7bd\x7d" ++ x.latex)
  | upper {s e x a b} : ChildIn (definiteIntegral s e x a b) ("\\int_\x7b" ++ a.latex ++ "\x7d^\x7b") b
      ("\x7d" ++ e.latex ++ "\\,\\mathrm\x7bd\x7d" ++ x.latex)

/-- Each child stands where it is said to. -/
theorem ChildIn.latex_eq {e c : Expr ν} {before after : String} (h : ChildIn e before c after) :
    e.latex = before ++ c.latex ++ after := by
  cases h with
  | paren => exact latex_paren _ _
  | numerator => simp only [latex_div, String.append_assoc]
  | denominator => exact latex_div _ _ _
  | base => simp only [latex_pow, latexParenthesized_eq, String.append_assoc]
  | exponent => exact latex_pow _ _ _
  | left hdiv hpow =>
    rw [latex_binary _ hdiv hpow]
    simp only [latexParenthesized_eq, String.append_assoc]
  | right hdiv hpow =>
    rw [latex_binary _ hdiv hpow]
    simp only [latexParenthesized_eq, String.append_assoc]
  | negated => simp only [latex_neg, latexParenthesized_eq, String.append_assoc]
  | factorial => simp only [latex_factorial, latexParenthesized_eq, String.append_assoc]
  | differentiated =>
    simp only [latex_derivative, latexParenthesized, String.append_assoc]
    rfl
  | integrand => simp only [latex_integral, String.append_assoc]
  | wrt => simp only [latex_integral, String.append_assoc, String.append_empty]
  | definiteIntegrand => simp only [latex_definiteIntegral, String.append_assoc]
  | definiteWrt => simp only [latex_definiteIntegral, String.append_assoc, String.append_empty]
  | lower => simp only [latex_definiteIntegral, String.append_assoc]
  | upper => simp only [latex_definiteIntegral, String.append_assoc]

/-- Each child stands somewhere. -/
theorem exists_childIn {e c : Expr ν} (hc : c ∈ e.children) : ∃ before after, ChildIn e before c after := by
  cases e with
  | binary s op l r =>
    simp only [children, List.mem_cons, List.not_mem_nil, or_false] at hc
    by_cases hdiv : op = .div
    · subst hdiv
      rcases hc with rfl | rfl
      · exact ⟨_, _, .numerator⟩
      · exact ⟨_, _, .denominator⟩
    · by_cases hpow : op = .pow
      · subst hpow
        rcases hc with rfl | rfl
        · exact ⟨_, _, .base⟩
        · exact ⟨_, _, .exponent⟩
      · rcases hc with rfl | rfl
        · exact ⟨_, _, .left hdiv hpow⟩
        · exact ⟨_, _, .right hdiv hpow⟩
  | paren s e =>
    obtain rfl := List.mem_singleton.mp hc
    exact ⟨_, _, .paren⟩
  | unary s op e =>
    obtain rfl := List.mem_singleton.mp hc
    cases op with
    | neg => exact ⟨_, _, .negated⟩
    | factorial => exact ⟨_, _, .factorial⟩
  | derivative s e x =>
    obtain rfl := List.mem_singleton.mp hc
    exact ⟨_, _, .differentiated⟩
  | integral s e x =>
    simp only [children, List.mem_cons, List.not_mem_nil, or_false] at hc
    rcases hc with rfl | rfl
    · exact ⟨_, _, .integrand⟩
    · exact ⟨_, _, .wrt⟩
  | definiteIntegral s e x a b =>
    simp only [children, List.mem_cons, List.not_mem_nil, or_false] at hc
    rcases hc with rfl | rfl | rfl | rfl
    · exact ⟨_, _, .definiteIntegrand⟩
    · exact ⟨_, _, .definiteWrt⟩
    · exact ⟨_, _, .lower⟩
    · exact ⟨_, _, .upper⟩
  | _ => cases hc

/-! ## The nodes within the LaTeX -/

/-- **A node of an expression stands between two texts** in the expression's LaTeX. -/
inductive StandsIn : Expr ν → String → Expr ν → String → Prop where
  | self (e) : StandsIn e "" e ""
  | child {e c n before after before' after'} : ChildIn e before c after → StandsIn c before' n after' →
      StandsIn e (before ++ before') n (after' ++ after)

theorem StandsIn.latex_eq {e n : Expr ν} {before after : String} (h : StandsIn e before n after) :
    e.latex = before ++ n.latex ++ after := by
  induction h with
  | self e => rw [String.empty_append, String.append_empty]
  | child hc _ ih =>
    rw [hc.latex_eq, ih]
    simp only [String.append_assoc]

/-- Every node stands somewhere. -/
theorem exists_standsIn {e n : Expr ν} (hn : n ∈ e.subtrees) : ∃ before after, StandsIn e before n after := by
  induction e using induction_on_children with
  | step e ih =>
    rcases mem_subtrees_iff.mp hn with rfl | ⟨c, hc, hn⟩
    · exact ⟨_, _, .self n⟩
    · obtain ⟨before, after, hchild⟩ := exists_childIn hc
      obtain ⟨before', after', hstands⟩ := ih c hc hn
      exact ⟨_, _, .child hchild hstands⟩

/-! ## What is behind a child -/

/-- A text begins with another one. -/
def BeginsWith (text front : String) : Prop := front.toList <+: text.toList

instance (text front : String) : Decidable (BeginsWith text front) := inferInstanceAs (Decidable (_ <+: _))

theorem BeginsWith.append {text front : String} (h : BeginsWith text front) (more : String) :
    BeginsWith (text ++ more) front := by
  rw [BeginsWith, String.toList_append]
  exact h.trans (List.prefix_append _ _)

/-- What delimits an open end, or binds too loosely to take it in. -/
def delimiters : List String := ["\\right)", "\x7d", " + ", " - ", "\\,\\mathrm\x7bd\x7d"]

/-- A child stands bare before an operator: it is neither open-ended nor put in parentheses as its left operand. -/
structure BareBefore (op : Operator) (child : Expr ν) : Prop where
  closed : child.isOpenEnded = false
  bare : needsParens op.binding child .left = false

theorem bareBefore_of_latexOperandNeedsParens {op : BinaryOp} {child : Expr ν} (hop : delimits op .left = true)
    (h : latexOperandNeedsParens op child .left = false) : BareBefore (.binary op) child := by
  rw [latexOperandNeedsParens, hop, Bool.and_true, Bool.or_eq_false_iff, operandNeedsParens, Bool.or_eq_false_iff] at h
  exact ⟨h.2, h.1.1⟩

/-- **What is behind a child**: nothing, a delimiter, or an operator that it stands bare before. -/
inductive Behind (child : Expr ν) (after : String) : Prop where
  | nothing : after = "" → Behind child after
  | delimiter {t} : t ∈ delimiters → BeginsWith after t → Behind child after
  | product {op} : op = .mul ∨ op = .juxtapose → BeginsWith after (latexSeparator op) → BareBefore (.binary op) child →
      Behind child after
  | tighter {op} : op = .binary .pow ∨ op = .unary .factorial → BareBefore op child → Behind child after

theorem behind_closing {wanted : Bool} {e : Expr ν} {after : String} (h : wanted = false → Behind e after) :
    Behind e (closing wanted ++ after) := by
  cases wanted with
  | false =>
    rw [show closing false = "" from rfl, String.empty_append]
    exact h rfl
  | true => exact .delimiter (t := "\\right)") (by decide) (.append (by decide) _)

theorem behind_closing_only (wanted : Bool) (e : Expr ν) : Behind e (closing wanted) := by
  rw [← String.append_empty (s := closing wanted)]
  exact behind_closing fun _ => .nothing rfl

theorem ChildIn.behind {e c : Expr ν} {before after : String} (h : ChildIn e before c after) : Behind c after := by
  cases h with
  | paren => exact .delimiter (t := "\\right)") (by decide) (by decide)
  | numerator => exact .delimiter (t := "\x7d") (by decide) (.append (.append (by decide) _) _)
  | denominator => exact .delimiter (t := "\x7d") (by decide) (by decide)
  | base => exact behind_closing fun h => .tighter (Or.inl rfl) (bareBefore_of_latexOperandNeedsParens rfl h)
  | exponent => exact .delimiter (t := "\x7d") (by decide) (by decide)
  | @left s op l r hdiv hpow =>
    refine behind_closing fun h => ?_
    cases op with
    | add => exact .delimiter (t := " + ") (by decide) (.append (by decide) _)
    | sub => exact .delimiter (t := " - ") (by decide) (.append (by decide) _)
    | mul => exact .product (Or.inl rfl) (.append (by decide) _) (bareBefore_of_latexOperandNeedsParens rfl h)
    | juxtapose => exact .product (Or.inr rfl) (.append (by decide) _) (bareBefore_of_latexOperandNeedsParens rfl h)
    | div => exact absurd rfl hdiv
    | pow => exact absurd rfl hpow
  | right => exact behind_closing_only _ _
  | negated => exact behind_closing_only _ _
  | factorial =>
    refine behind_closing fun h => .tighter (Or.inr rfl) ?_
    rw [Bool.or_eq_false_iff] at h
    exact ⟨h.2, h.1⟩
  | differentiated => exact .delimiter (t := "\\right)") (by decide) (by decide)
  | integrand => exact .delimiter (t := "\\,\\mathrm\x7bd\x7d") (by decide) (.append (by decide) _)
  | wrt => exact .nothing rfl
  | definiteIntegrand => exact .delimiter (t := "\\,\\mathrm\x7bd\x7d") (by decide) (.append (by decide) _)
  | definiteWrt => exact .nothing rfl
  | lower =>
    exact .delimiter (t := "\x7d") (by decide)
      (.append (.append (.append (.append (.append (by decide) _) _) _) _) _)
  | upper => exact .delimiter (t := "\x7d") (by decide) (.append (.append (.append (by decide) _) _) _)

/-! ## What an expression ends with -/

theorem eq_false_of_closing {wanted : Bool} (h : closing wanted = "") : wanted = false := by
  cases wanted with
  | false => rfl
  | true => exact absurd h (by decide)

/-- An expression that ends with a child is open-ended itself, a negation, or an operation on the line whose right
    operand stands without parentheses. -/
theorem ChildIn.last {e c : Expr ν} {before after : String} (h : ChildIn e before c after) (hafter : after = "") :
    e.isOpenEnded = true ∨ (∃ s, e = unary s .neg c) ∨
      ∃ s op l, e = binary s op l c ∧ op ≠ .div ∧ op ≠ .pow ∧ latexOperandNeedsParens op c .right = false := by
  cases h with
  | paren => exact absurd hafter (by decide)
  | numerator => exact absurd hafter (by simp)
  | denominator => exact absurd hafter (by decide)
  | base => exact absurd hafter (by simp)
  | exponent => exact absurd hafter (by decide)
  | @left s op l r hdiv hpow =>
    have hseparator : latexSeparator op ≠ "" := by cases op <;> decide
    exact absurd hafter (by simp [hseparator])
  | @right s op l r hdiv hpow => exact Or.inr (Or.inr ⟨s, op, l, rfl, hdiv, hpow, eq_false_of_closing hafter⟩)
  | @negated s e => exact Or.inr (Or.inl ⟨s, rfl⟩)
  | factorial => exact absurd hafter (by simp)
  | _ => exact Or.inl rfl

/-- An expression that ends with an open end does not stand bare before a power or a factorial: all that it can be binds
    looser. -/
theorem StandsIn.not_bareBefore {e n : Expr ν} {before after : String} (h : StandsIn e before n after)
    (hafter : after = "") (hn : n.isOpenEnded = true) {op : Operator}
    (hop : op = .binary .pow ∨ op = .unary .factorial) : ¬ BareBefore op e := by
  intro hbare
  cases h with
  | self =>
    rw [hbare.closed] at hn
    cases hn
  | child hc _ =>
    rcases hc.last (String.append_eq_empty_iff.mp hafter).2 with hopen | ⟨s, rfl⟩ | ⟨s, op', l, rfl, -⟩
    · rw [hbare.closed] at hopen
      cases hopen
    · rcases hop with rfl | rfl <;> cases hbare.bare
    · rcases hop with rfl | rfl <;> cases op' <;> cases hbare.bare

/-- Neither open-ended nor a sum or a difference. -/
structure IsFactor (e : Expr ν) : Prop where
  closed : e.isOpenEnded = false
  tight : ∀ s op l r, e = binary s op l r → op ≠ .add ∧ op ≠ .sub

theorem BareBefore.isFactor {op : BinaryOp} (hop : op = .mul ∨ op = .juxtapose) {e : Expr ν}
    (h : BareBefore (.binary op) e) : IsFactor e := by
  refine ⟨h.closed, ?_⟩
  rintro s op' l r rfl
  have hbare := h.bare
  rcases hop with rfl | rfl <;> cases op' <;> first | decide | cases hbare

theorem isFactor_of_right {op : BinaryOp} (hop : op = .mul ∨ op = .juxtapose) {e : Expr ν}
    (h : latexOperandNeedsParens op e .right = false) : IsFactor e := by
  rw [latexOperandNeedsParens, Bool.or_eq_false_iff, operandNeedsParens, Bool.or_eq_false_iff] at h
  obtain ⟨⟨hbare, -⟩, hclosed⟩ := h
  have hdelimits : delimits op .right = true := by rcases hop with rfl | rfl <;> rfl
  rw [hdelimits, Bool.and_true] at hclosed
  refine ⟨hclosed, ?_⟩
  rintro s op' l r rfl
  rcases hop with rfl | rfl <;> cases op' <;> first | decide | cases hbare

/-- **A factor that ends with an open end ends with a negation of it**, since right operands of products are looked at
    themselves. The induction goes down along the right edge. -/
theorem StandsIn.exists_negation {e n : Expr ν} {before after : String} (h : StandsIn e before n after)
    (hafter : after = "") (hn : n.isOpenEnded = true) (he : IsFactor e) :
    ∃ s c b b', StandsIn e b (unary s .neg c) "" ∧ StandsIn (unary s .neg c) b' n "" := by
  induction h with
  | self e =>
    rw [he.closed] at hn
    cases hn
  | @child e c n _ _ _ _ hc hin ih =>
    obtain ⟨hinner, houter⟩ := String.append_eq_empty_iff.mp hafter
    rcases hc.last houter with hopen | ⟨s, rfl⟩ | ⟨s, op, l, rfl, hdiv, hpow, hright⟩
    · rw [he.closed] at hopen
      cases hopen
    · have hwhole := StandsIn.child hc hin
      rw [hafter] at hwhole
      exact ⟨s, c, "", _, .self _, hwhole⟩
    · obtain ⟨hadd, hsub⟩ := he.tight s op l c rfl
      have hop : op = .mul ∨ op = .juxtapose := by cases op <;> simp_all
      obtain ⟨s', c', b, b', hlast, hnode⟩ := ih hinner hn (isFactor_of_right hop hright)
      have hwhole := StandsIn.child hc hlast
      rw [houter, String.append_empty] at hwhole
      exact ⟨s', c', _, b', hwhole, hnode⟩

/-! ## What follows an open end -/

/-- **What follows an open end**: nothing, a delimiter, or a product that a negation of it is a factor of. -/
inductive Followed (e n : Expr ν) (after : String) : Prop where
  | nothing : after = "" → Followed e n after
  | delimiter {t} : t ∈ delimiters → BeginsWith after t → Followed e n after
  | product {op s c b b'} : op = .mul ∨ op = .juxtapose → BeginsWith after (latexSeparator op) →
      StandsIn e b (unary s .neg c) after → StandsIn (unary s .neg c) b' n "" → Followed e n after

/-- The induction follows the node outwards: as long as it is the last thing written, what is behind the child on the
    way decides; once something follows, that stays. -/
theorem followed_of_standsIn {e n : Expr ν} {before after : String} (h : StandsIn e before n after)
    (hn : n.isOpenEnded = true) : Followed e n after := by
  induction h with
  | self e => exact .nothing rfl
  | child hc hin ih =>
    rcases ih hn with hafter | ⟨ht, hbegins⟩ | ⟨hop, hbegins, hnegation, hnode⟩
    · rw [hafter, String.empty_append]
      rcases hc.behind with hnil | ⟨ht, hbegins⟩ | ⟨hop, hbegins, hbare⟩ | ⟨hop, hbare⟩
      · exact .nothing hnil
      · exact .delimiter ht hbegins
      · obtain ⟨s, c, b, b', hlast, hnode⟩ := hin.exists_negation hafter hn (hbare.isFactor hop)
        have hwhole := StandsIn.child hc hlast
        rw [String.empty_append] at hwhole
        exact .product hop hbegins hwhole hnode
      · exact absurd hbare (hin.not_bareBefore hafter hn hop)
    · exact .delimiter ht (hbegins.append _)
    · exact .product hop (hbegins.append _) (.child hc hnegation) hnode

/-- A text does not begin with two texts of which neither begins with the other. -/
theorem BeginsWith.not_beginsWith {text front other : String} (h : BeginsWith text front)
    (hne : ¬ BeginsWith front other ∧ ¬ BeginsWith other front) : ¬ BeginsWith text other := by
  intro hother
  rcases List.prefix_or_prefix_of_prefix h hother with hpre | hpre
  · exact hne.2 hpre
  · exact hne.1 hpre

/-- **Neither a power nor a factorial follows an open end, and a product only behind a negation of it.** Every node of
    an expression stands in its LaTeX. Behind a derivative or an integral there is no exponent and no exclamation mark;
    and where there is the sign of a product, the node is the last thing written in a negation, which is a factor
    without parentheses. -/
theorem open_end_followed (e : Expr ν) : (∀ n ∈ e.subtrees, ∃ before after, StandsIn e before n after) ∧
    ∀ n before after, StandsIn e before n after → n.isOpenEnded = true → e.latex = before ++ n.latex ++ after ∧
      ¬ BeginsWith after "^\x7b" ∧ ¬ BeginsWith after "!" ∧
      (BeginsWith after " \\cdot\x7b\x7d " ∨ BeginsWith after "\\,\x7b\x7d" →
        ∃ s c b b', StandsIn e b (unary s .neg c) after ∧ StandsIn (unary s .neg c) b' n "") := by
  refine ⟨fun n hn => exists_standsIn hn, ?_⟩
  intro n before after h hn
  refine ⟨h.latex_eq, ?_⟩
  rcases followed_of_standsIn h hn with rfl | @⟨t, ht, hbegins⟩ | @⟨op, s, c, b, b', hop, hbegins, hnegation, hnode⟩
  · refine ⟨by decide, by decide, ?_⟩
    rintro (hmul | hbeside)
    · exact absurd hmul (by decide)
    · exact absurd hbeside (by decide)
  · -- no delimiter begins as one of the operators does
    have hapart : ∀ t ∈ delimiters, ∀ other ∈ ["^\x7b", "!", " \\cdot\x7b\x7d ", "\\,\x7b\x7d"],
        ¬ BeginsWith t other ∧ ¬ BeginsWith other t := by decide
    refine ⟨hbegins.not_beginsWith (hapart t ht _ (by decide)), hbegins.not_beginsWith (hapart t ht _ (by decide)), ?_⟩
    rintro (hmul | hbeside)
    · exact absurd hmul (hbegins.not_beginsWith (hapart t ht _ (by decide)))
    · exact absurd hbeside (hbegins.not_beginsWith (hapart t ht _ (by decide)))
  · have hapart : ∀ other ∈ ["^\x7b", "!"],
        ¬ BeginsWith (latexSeparator op) other ∧ ¬ BeginsWith other (latexSeparator op) := by
      rcases hop with rfl | rfl <;> decide
    exact ⟨hbegins.not_beginsWith (hapart _ (by decide)), hbegins.not_beginsWith (hapart _ (by decide)),
      fun _ => ⟨s, c, b, b', hnegation, hnode⟩⟩

/-- A negated integral between two factors. -/
theorem open_end_followed_integral :
    let n : Expr Float := .integral .nowhere (.var .nowhere "x") (.var .nowhere "x")
    let m : Expr Float := .unary .nowhere .neg n
    let e : Expr Float := .binary .nowhere .mul (.binary .nowhere .mul (.var .nowhere "x") m) (.var .nowhere "y")
    StandsIn e "x \\cdot\x7b\x7d -" n " \\cdot\x7b\x7d y" ∧ n.isOpenEnded = true ∧
      BeginsWith " \\cdot\x7b\x7d y" " \\cdot\x7b\x7d " ∧
      ∃ s c b b', StandsIn e b (unary s .neg c) " \\cdot\x7b\x7d y" ∧ StandsIn (unary s .neg c) b' n "" := by
  intro n m e
  obtain ⟨before, after, h, rfl, rfl⟩ : ∃ before after, StandsIn e before n after ∧
      before = "x \\cdot\x7b\x7d -" ∧ after = " \\cdot\x7b\x7d y" :=
    ⟨_, _, .child (e := e) (.left (by decide) (by decide)) (.child (.right (by decide) (by decide))
      (.child .negated (.self n))), by decide +kernel, by decide +kernel⟩
  have hbegins : BeginsWith " \\cdot\x7b\x7d y" " \\cdot\x7b\x7d " := by decide
  obtain ⟨-, -, -, hproduct⟩ := (open_end_followed e).2 n _ _ h rfl
  exact ⟨h, rfl, hbegins, hproduct (Or.inl hbegins)⟩

/-- It is not so that no operator at all follows: only the root of an operand is looked at, and the open end below the
    negation is missed. -/
theorem product_follows_open_end :
    let d : Expr Float := .derivative ⟨1, 19⟩ (.var ⟨12, 13⟩ "x") "x"
    let e : Expr Float := .binary ⟨0, 23⟩ .mul (.unary ⟨0, 19⟩ .neg d) (.var ⟨22, 23⟩ "y")
    parseText "-derivative x wrt x * y" = .ok e ∧ ¬ ∀ n before after, StandsIn e before n after →
      n.isOpenEnded = true → ¬ BeginsWith after "^\x7b" ∧ ¬ BeginsWith after "!" ∧
        ¬ BeginsWith after " \\cdot\x7b\x7d " ∧ ¬ BeginsWith after "\\,\x7b\x7d" := by
  intro d e
  refine ⟨by decide +kernel, ?_⟩
  intro hall
  obtain ⟨before, after, h, rfl⟩ : ∃ before after, StandsIn e before d after ∧ after = " \\cdot\x7b\x7d y" :=
    ⟨_, _, .child (e := e) (.left (by decide) (by decide)) (.child .negated (.self d)), by decide +kernel⟩
  exact (hall d _ _ h rfl).2.2.1 (by decide)

end Formula.Expr
