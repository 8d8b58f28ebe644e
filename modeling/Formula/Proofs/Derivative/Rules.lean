import Mathlib.Data.Prod.Lex
import Mathlib.Order.WellFounded
import Formula.Expr.Derivative
import Formula.Proofs.Expr.Spans

/-!
# `Formula.Proofs.Derivative.Rules` — the rules of differentiation

Differentiation as rules: what the derivative of an expression is, and where no rule applies, each told for a construct
by its operands. A derivative within an expression is differentiated twice, the second time what came of the first; that
is a tree which is no part of the expression and may well be larger. It has no more levels of derivatives than the
operand, though, and so every call is for a tree with fewer levels, or as many and fewer nodes. The rules are thus
followed to an end for every expression, and what they end in is what `derive` computes.

## Contents
- `Derives`, `Refuses` — the rules; `Concludes` — either, as an outcome.
- `DeriveCall` — the calls that following the rules makes of itself.
- `rank`, `DeriveCall.rank_lt`, `wellFounded_deriveCall` — the measure that every call makes smaller.
- `concludes_derive`, `concludes_iff` — the rules and `derive` agree.
-/

namespace Formula.Expr

variable {ν : Type}

/-! ## The measure -/

/-- **How far an expression is from being differentiated**: first its levels of derivatives, then its nodes. -/
def rank (e : Expr ν) : ℕ ×ₗ ℕ := toLex (e.derivativeDepth, e.nodes)

theorem rank_lt_of_depth {a b : Expr ν} (h : a.derivativeDepth < b.derivativeDepth) : a.rank < b.rank :=
  Prod.Lex.toLex_lt_toLex.mpr (Or.inl h)

theorem rank_lt_of_nodes {a b : Expr ν} (hdepth : a.derivativeDepth ≤ b.derivativeDepth) (hnodes : a.nodes < b.nodes) :
    a.rank < b.rank := by
  rcases hdepth.lt_or_eq with h | h
  · exact rank_lt_of_depth h
  · exact Prod.Lex.toLex_lt_toLex.mpr (Or.inr ⟨h, hnodes⟩)

theorem derivativeDepth_le_of_mem_children {c e : Expr ν} (h : c ∈ e.children) :
    c.derivativeDepth ≤ e.derivativeDepth := by
  cases e <;> grind [children, derivativeDepth]

theorem nodes_lt_of_mem_children {c e : Expr ν} (h : c ∈ e.children) : c.nodes < e.nodes := by
  cases e <;> grind [children, nodes]

/-- What is below a node is of lower rank. -/
theorem rank_lt_of_mem_children {c e : Expr ν} (h : c ∈ e.children) : c.rank < e.rank :=
  rank_lt_of_nodes (derivativeDepth_le_of_mem_children h) (nodes_lt_of_mem_children h)

variable [Arithmetic ν]

/-! ## The rules -/

/-- **The rules of differentiation**: what the derivative of an expression by a variable is. -/
inductive Derives : Expr ν → String → Expr ν → Prop where
  | paren (s : Span) {e d : Expr ν} {x : String} (he : Derives e x d) : Derives (paren s e) x d
  | constant (s : Span) (c : Constant) (x : String) : Derives (constant s c) x (literal s Arithmetic.zero)
  | imaginary (s : Span) (x : String) : Derives (imaginary s) x (literal s Arithmetic.zero)
  | var (s : Span) (y x : String) :
      Derives (var s y) x (literal s (if y = x then Arithmetic.one else Arithmetic.zero))
  | literal (s : Span) (v : ν) (x : String) : Derives (literal s v) x (literal s Arithmetic.zero)
  | sum (s : Span) {op : BinaryOp} {l r dl dr : Expr ν} {x : String} (hop : op = .add ∨ op = .sub)
      (hl : Derives l x dl) (hr : Derives r x dr) : Derives (binary s op l r) x (binary s op dl dr)
  | product (s : Span) {op : BinaryOp} {l r dl dr : Expr ν} {x : String} (hop : op = .mul ∨ op = .juxtapose)
      (hl : Derives l x dl) (hr : Derives r x dr) : Derives (binary s op l r) x (productRule s l r dl dr)
  | quotient (s : Span) {l r dl dr : Expr ν} {x : String} (hl : Derives l x dl) (hr : Derives r x dr) :
      Derives (binary s .div l r) x (quotientRule s l r dl dr)
  | negation (s : Span) {e d : Expr ν} {x : String} (he : Derives e x d) : Derives (unary s .neg e) x (unary s .neg d)
  /-- A derivative is carried out, and what comes of it is differentiated. -/
  | derivative (s : Span) {e de d : Expr ν} {y x : String} (inner : Derives e y de) (outer : Derives de x d) :
      Derives (derivative s e y) x d

/-- **Where no rule applies**: the first construct without one, where operands are taken from left to right. -/
inductive Refuses : Expr ν → String → Unsupported → Prop where
  | paren (s : Span) {e : Expr ν} {x : String} {u : Unsupported} (he : Refuses e x u) : Refuses (paren s e) x u
  | power (s : Span) (l r : Expr ν) (x : String) : Refuses (binary s .pow l r) x .power
  | left (s : Span) {op : BinaryOp} {l : Expr ν} {x : String} {u : Unsupported} (hop : op ≠ .pow) (r : Expr ν)
      (hl : Refuses l x u) : Refuses (binary s op l r) x u
  | right (s : Span) {op : BinaryOp} {l r dl : Expr ν} {x : String} {u : Unsupported} (hop : op ≠ .pow)
      (hl : Derives l x dl) (hr : Refuses r x u) : Refuses (binary s op l r) x u
  | factorial (s : Span) (e : Expr ν) (x : String) : Refuses (unary s .factorial e) x .factorial
  | negation (s : Span) {e : Expr ν} {x : String} {u : Unsupported} (he : Refuses e x u) : Refuses (unary s .neg e) x u
  | inner (s : Span) {e : Expr ν} {y : String} {u : Unsupported} (x : String) (he : Refuses e y u) :
      Refuses (derivative s e y) x u
  | outer (s : Span) {e de : Expr ν} {y x : String} {u : Unsupported} (he : Derives e y de) (hde : Refuses de x u) :
      Refuses (derivative s e y) x u
  | integral (s : Span) (e y : Expr ν) (x : String) : Refuses (integral s e y) x .integral
  | definiteIntegral (s : Span) (e y a b : Expr ν) (x : String) : Refuses (definiteIntegral s e y a b) x .integral

/-- Following the rules ends in an outcome. -/
def Concludes (e : Expr ν) (x : String) : Except Unsupported (Expr ν) → Prop
  | .ok d => Derives e x d
  | .error u => Refuses e x u

/-- **The calls of differentiation**: `DeriveCall c k` when differentiating the tree of `k` by its variable asks for the
    derivative of the tree of `c` by its own. -/
inductive DeriveCall : Expr ν × String → Expr ν × String → Prop where
  | paren (s : Span) (e : Expr ν) (x : String) : DeriveCall (e, x) (paren s e, x)
  | left (s : Span) {op : BinaryOp} (hop : op ≠ .pow) (l r : Expr ν) (x : String) : DeriveCall (l, x) (binary s op l r, x)
  | right (s : Span) {op : BinaryOp} {l dl : Expr ν} {x : String} (hop : op ≠ .pow) (r : Expr ν)
      (hl : l.derive x = .ok dl) : DeriveCall (r, x) (binary s op l r, x)
  | negation (s : Span) (e : Expr ν) (x : String) : DeriveCall (e, x) (unary s .neg e, x)
  | inner (s : Span) (e : Expr ν) (y x : String) : DeriveCall (e, y) (derivative s e y, x)
  | outer (s : Span) {e de : Expr ν} {y : String} (x : String) (he : e.derive y = .ok de) :
      DeriveCall (de, x) (derivative s e y, x)

variable {e d : Expr ν} {x : String} {u : Unsupported}

/-- **Every call is for a tree of lower rank.** What comes of the inner of two derivatives may be a large tree, but it
    has no more levels of derivatives than the operand. -/
theorem DeriveCall.rank_lt {c k : Expr ν × String} (h : DeriveCall c k) : c.1.rank < k.1.rank := by
  cases h with
  | paren s e x => exact rank_lt_of_mem_children (by simp [children])
  | left s hop l r x => exact rank_lt_of_mem_children (by simp [children])
  | right s hop r hl => exact rank_lt_of_mem_children (by simp [children])
  | negation s e x => exact rank_lt_of_mem_children (by simp [children])
  | inner s e y x => exact rank_lt_of_mem_children (by simp [children])
  | outer s x he => exact rank_lt_of_depth (Nat.lt_succ_of_le (derivativeDepth_derive he))

/-- There is no endless chain of calls. -/
theorem wellFounded_deriveCall : WellFounded (DeriveCall (ν := ν)) :=
  Subrelation.wf DeriveCall.rank_lt (InvImage.wf (fun k : Expr ν × String => k.1.rank) wellFounded_lt)

/-! ## The rules and the function -/

theorem concludes_paren (s : Span) (h : Concludes e x (e.derive x)) :
    Concludes (paren s e) x ((paren s e).derive x) := by
  rw [derive_paren]
  cases hd : e.derive x with
  | error u =>
    rw [hd] at h
    exact .paren s h
  | ok d =>
    rw [hd] at h
    exact .paren s h

theorem concludes_neg (s : Span) (h : Concludes e x (e.derive x)) :
    Concludes (unary s .neg e) x ((unary s .neg e).derive x) := by
  rw [derive_neg]
  cases hd : e.derive x with
  | error u =>
    rw [hd] at h
    exact .negation s h
  | ok d =>
    rw [hd] at h
    exact .negation s h

/-- The right operand is looked at only if the left one has a derivative. -/
theorem concludes_binary (s : Span) {op : BinaryOp} (hop : op ≠ .pow) {l r : Expr ν} (hl : Concludes l x (l.derive x))
    (hr : ∀ dl, l.derive x = .ok dl → Concludes r x (r.derive x)) :
    Concludes (binary s op l r) x ((binary s op l r).derive x) := by
  rw [derive_binary s hop]
  cases hdl : l.derive x with
  | error u =>
    rw [hdl] at hl
    exact .left s hop r hl
  | ok dl =>
    have hr := hr dl hdl
    rw [hdl] at hl
    cases hdr : r.derive x with
    | error u =>
      rw [hdr] at hr
      exact .right s hop hl hr
    | ok dr =>
      rw [hdr] at hr
      cases op with
      | add => exact .sum s (Or.inl rfl) hl hr
      | sub => exact .sum s (Or.inr rfl) hl hr
      | mul => exact .product s (Or.inl rfl) hl hr
      | juxtapose => exact .product s (Or.inr rfl) hl hr
      | div => exact .quotient s hl hr
      | pow => exact absurd rfl hop

/-- The second derivative is asked for only if there is a first one. -/
theorem concludes_derivative (s : Span) {y : String} (he : Concludes e y (e.derive y))
    (hde : ∀ de, e.derive y = .ok de → Concludes de x (de.derive x)) :
    Concludes (derivative s e y) x ((derivative s e y).derive x) := by
  rw [derive_derivative]
  cases hd : e.derive y with
  | error u =>
    rw [hd] at he
    exact .inner s x he
  | ok de =>
    have hde := hde de hd
    rw [hd] at he
    change Concludes _ _ (de.derive x)
    cases hdd : de.derive x with
    | error u =>
      rw [hdd] at hde
      exact .outer s he hde
    | ok d =>
      rw [hdd] at hde
      exact .derivative s he hde

/-- **For every expression the rules are followed to an end**, which is what `derive` computes, by induction along the
    calls. -/
theorem concludes_derive (e : Expr ν) (x : String) : Concludes e x (e.derive x) := by
  refine wellFounded_deriveCall.induction (C := fun k => Concludes k.1 k.2 (k.1.derive k.2)) (e, x) ?_
  rintro ⟨e, x⟩ ih
  cases e with
  | paren s e => exact concludes_paren s (ih _ (.paren s e x))
  | constant s c => exact .constant s c x
  | imaginary s => exact .imaginary s x
  | var s y => exact .var s y x
  | literal s v => exact .literal s v x
  | binary s op l r =>
    by_cases hop : op = .pow
    · rw [hop, derive_pow]
      exact .power s l r x
    · exact concludes_binary s hop (ih _ (.left s hop l r x)) fun dl hdl => ih _ (.right s hop r hdl)
  | unary s op e =>
    cases op with
    | neg => exact concludes_neg s (ih _ (.negation s e x))
    | factorial =>
      rw [derive_factorial]
      exact .factorial s e x
  | derivative s e y => exact concludes_derivative s (ih _ (.inner s e y x)) fun de hde => ih _ (.outer s x hde)
  | integral s e y =>
    rw [derive_integral]
    exact .integral s e y x
  | definiteIntegral s e y a b =>
    rw [derive_definiteIntegral]
    exact .definiteIntegral s e y a b x

/-- What the rules give is computed. -/
theorem Derives.derive (h : Derives e x d) : e.derive x = .ok d := by
  induction h with
  | paren s he ih => rw [derive_paren, ih]
  | constant s c x => rfl
  | imaginary s x => rfl
  | var s y x => rfl
  | literal s v x => rfl
  | sum s hop hl hr ihl ihr =>
    rcases hop with rfl | rfl
    all_goals
      rw [derive_binary _ (by decide), ihl, ihr]
      rfl
  | product s hop hl hr ihl ihr =>
    rcases hop with rfl | rfl
    all_goals
      rw [derive_binary _ (by decide), ihl, ihr]
      rfl
  | quotient s hl hr ihl ihr =>
    rw [derive_binary _ (by decide), ihl, ihr]
    rfl
  | negation s he ih =>
    rw [derive_neg, ih]
    rfl
  | derivative s inner outer ihinner ihouter =>
    rw [derive_derivative, ihinner]
    exact ihouter

/-- What the rules refuse is refused, for the same reason. -/
theorem Refuses.derive (h : Refuses e x u) : e.derive x = .error u := by
  induction h with
  | paren s he ih => rw [derive_paren, ih]
  | power s l r x => rw [derive_pow]
  | left s hop r hl ih =>
    rw [derive_binary _ hop, ih]
    rfl
  | right s hop hl hr ih =>
    rw [derive_binary _ hop, hl.derive, ih]
    rfl
  | factorial s e x => rw [derive_factorial]
  | negation s he ih =>
    rw [derive_neg, ih]
    rfl
  | inner s x he ih =>
    rw [derive_derivative, ih]
    rfl
  | outer s he hde ih =>
    rw [derive_derivative, he.derive]
    exact ih
  | integral s e y x => rw [derive_integral]
  | definiteIntegral s e y a b x => rw [derive_definiteIntegral]

/-- **The rules end in the outcome that is computed**, and in no other. -/
theorem concludes_iff {r : Except Unsupported (Expr ν)} : Concludes e x r ↔ e.derive x = r := by
  refine ⟨fun h => ?_, fun h => h ▸ concludes_derive e x⟩
  cases r with
  | error u => exact Refuses.derive h
  | ok d => exact Derives.derive h

theorem derives_iff : Derives e x d ↔ e.derive x = .ok d := concludes_iff (r := .ok d)

theorem refuses_iff : Refuses e x u ↔ e.derive x = .error u := concludes_iff (r := .error u)

end Formula.Expr
