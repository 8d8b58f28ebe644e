import Formula.Proofs.Expr.Grouping
import Formula.Proofs.Expr.Spans
import Formula.Proofs.Lexis.Spelling
import Formula.Proofs.Number.Lawful

/-!
# `Formula.Proofs.Expr.Written` — the tree that a written form stands for

The input form of a tree says more than the tree: it has parentheses where operands need them, and writes literals
that have no digits of their own as operations. `written` is the tree with all this in it, so that the input form
spells the tree's words one after the other, and the tree groups as it is written.

## Contents
- `Writable` — the expressions over the constructs of the input language.
- `written`, `words`; `spells_inputForm` — the input form spells the words of the written tree.
- `grouped_written`, `written_eq_self` — the written tree is grouped, and a grouped tree is its own.
- `withoutParens_written`, `simplify_written` — what writing does not change.
- `levels_written` — how deeply the written tree is nested.
-/

namespace Formula.Expr

open Lexis

variable {ν : Type}

/-- **An expression over the constructs of the input language**, with literals that have a property. -/
def Writable (P : ν → Prop) : Expr ν → Prop
  | paren _ e => Writable P e
  | constant _ c => c = .pi ∨ c = .e
  | imaginary _ => False
  | var _ x => IsName x
  | literal _ v => P v
  | binary _ _ l r => Writable P l ∧ Writable P r
  | unary _ _ e => Writable P e
  | derivative _ e x => Writable P e ∧ IsName x
  | integral _ _ _ => False
  | definiteIntegral _ _ _ _ _ => False

theorem Writable.mono {P Q : ν → Prop} (h : ∀ v, P v → Q v) {e : Expr ν} (he : Writable P e) : Writable Q e := by
  induction e with
  | paren s e ih => exact ih he
  | literal s v => exact h v he
  | binary s op l r ihl ihr => exact ⟨ihl he.1, ihr he.2⟩
  | unary s op e ih => exact ih he
  | derivative s e x ih => exact ⟨ih he.1, he.2⟩
  | _ => exact he

theorem Writable.withoutParens {P : ν → Prop} {e : Expr ν} (h : Writable P e) : Writable P e.withoutParens := by
  induction e with
  | paren s e ih => exact ih h
  | binary s op l r ihl ihr => exact ⟨ihl h.1, ihr h.2⟩
  | unary s op e ih => exact ih h
  | derivative s e x ih => exact ⟨ih h.1, h.2⟩
  | _ => exact h

/-- A literal that is written with digits alone. -/
def IsPlain [Numeral ν] (v : ν) : Prop := Numeral.shape v = .finite false

/-! ## Words -/

/-- The word of a symbol. -/
def mark (c : Char) : Word := (.symbol, String.singleton c)

/-- The words between the operands of a binary operator. -/
def operatorWords : BinaryOp → List Word
  | .juxtapose => []
  | op => [(.symbol, op.symbol)]

/-- The words of a tree, as it is written without further parentheses. -/
def words [Numeral ν] : Expr ν → List Word
  | paren _ e => mark '(' :: (e.words ++ [mark ')'])
  | constant _ c => [(.constant, c.name)]
  | imaginary _ => []
  | var _ x => [(.name, x)]
  | literal _ v => [(.number, Numeral.digits v)]
  | binary _ op l r => l.words ++ (operatorWords op ++ r.words)
  | unary _ .neg e => mark '-' :: e.words
  | unary _ .factorial e => e.words ++ [mark '!']
  | derivative _ e x => (.keyword, "derivative") :: (e.words ++ [(.keyword, "wrt"), (.name, x)])
  | integral _ _ _ => []
  | definiteIntegral _ _ _ _ _ => []

/-! ## The written tree -/

/-- The literal that the digits of another one are read as. -/
def magnitude [Numeral ν] (v : ν) : ν :=
  match (Numeral.read (Numeral.digits v) : Except NumeralError ν) with
  | .ok w => w
  | .error _ => v

/-- A literal as the operation that it is written as. -/
def writtenLiteral [Arithmetic ν] [Numeral ν] (s : Span) (v : ν) : Expr ν :=
  match Numeral.shape v with
  | .undefined => binary s .div (literal s Arithmetic.zero) (literal s Arithmetic.zero)
  | .infinite true =>
    unary s .neg (paren s (binary s .div (literal s Arithmetic.one) (literal s Arithmetic.zero)))
  | .infinite false => binary s .div (literal s Arithmetic.one) (literal s Arithmetic.zero)
  | .finite true => unary s .neg (literal s (magnitude v))
  | .finite false => literal s v

/-- A tree in parentheses, where they are wanted. -/
def wrap (wanted : Bool) (e : Expr ν) : Expr ν := if wanted then paren e.span e else e

/-- The tree with the parentheses and the operations that its input form has. -/
def written [Arithmetic ν] [Numeral ν] : Expr ν → Expr ν
  | paren s e => paren s e.written
  | constant s c => constant s c
  | imaginary s => imaginary s
  | var s x => var s x
  | literal s v => writtenLiteral s v
  | binary s op l r =>
    binary s op (wrap (operandNeedsParens op l .left) l.written) (wrap (operandNeedsParens op r .right) r.written)
  | unary s op e => unary s op (wrap (needsParens op.binding e (unarySide op)) e.written)
  | derivative s e x => derivative s e.written x
  | integral s e x => integral s e.written x.written
  | definiteIntegral s e x a b => definiteIntegral s e.written x.written a.written b.written

/-! ### Wrapping -/

theorem grouped_wrap {e : Expr ν} (h : Grouped e) (wanted : Bool) : Grouped (wrap wanted e) := by
  cases wanted with
  | false => exact h
  | true => exact h

theorem writable_wrap {P : ν → Prop} {e : Expr ν} (h : Writable P e) (wanted : Bool) : Writable P (wrap wanted e) := by
  cases wanted with
  | false => exact h
  | true => exact h

theorem startsTight_wrap {wanted : Bool} {e : Expr ν} (h : wanted = false → StartsTight e) :
    StartsTight (wrap wanted e) := by
  cases wanted with
  | true => trivial
  | false => exact h rfl

theorem withoutParens_wrap (wanted : Bool) (e : Expr ν) : (wrap wanted e).withoutParens = e.withoutParens := by
  cases wanted <;> rfl

theorem levels_wrap (wanted : Bool) (e : Expr ν) : (wrap wanted e).levels ≤ e.levels + 1 := by
  cases wanted with
  | false => exact Nat.le_succ _
  | true => exact Nat.le_refl _

theorem spine_wrap (wanted : Bool) (e : Expr ν) : (wrap wanted e).spine ≤ e.spine := by
  cases wanted with
  | false => exact Nat.le_refl _
  | true => exact Nat.zero_le _

theorem simplifyWith_wrap [Arithmetic ν] (again : Expr ν → Expr ν) (wanted : Bool) (e : Expr ν) :
    simplifyWith again (wrap wanted e) = simplifyWith again e := by
  cases wanted <;> rfl

section Numeral

variable [Numeral ν]

theorem spells_parenthesized {text : String} {e : Expr ν} (h : Spells text.toList e.words) (wanted : Bool) :
    Spells (parenthesized wanted text).toList (wrap wanted e).words := by
  cases wanted with
  | false => exact h
  | true =>
    have hclosed := h.append (delimited_close []) (Spells.symbol (c := ')') (by decide) .nil)
    rw [parenthesized, if_pos rfl, String.toList_append, String.toList_append, List.append_assoc]
    exact Spells.symbol (by decide) hclosed

theorem operandNeedsParens_left (op : BinaryOp) (l : Expr ν) :
    operandNeedsParens op l .left = needsParens op.binding l .left := by
  cases op <;> simp [operandNeedsParens]

/-- A literal that is written with digits alone binds as nothing. -/
theorem writtenBinding?_of_plain {e : Expr ν} (h : Writable IsPlain e) : e.writtenBinding? = e.binding? := by
  cases e with
  | literal s v =>
    rw [writtenBinding?, literalBinding?, show Numeral.shape v = .finite false from h]
    rfl
  | _ => rfl

theorem startsLoose_eq_false {e : Expr ν} (h : Writable IsPlain e) (ht : StartsTight e) : e.startsLoose = false := by
  induction e with
  | literal s v =>
    rw [startsLoose, show Numeral.shape v = .finite false from h]
    rfl
  | binary s op l r ihl ihr => rw [startsLoose, ihl h.1 ht, Bool.and_false]
  | unary s op e ih =>
    cases op with
    | neg => cases ht
    | factorial => rw [startsLoose, ih h ht, Bool.and_false]
  | derivative s e x ih => cases ht
  | integral s e x ihe ihx => cases ht
  | definiteIntegral s e x a b ihe ihx iha ihb => cases ht
  | _ => rfl

/-- A left operand that is put in parentheses where it needs them is closed to its parent. -/
theorem closes_wrap_left (parent : Operator) (hparent : parent ≠ .unary .neg) {l t : Expr ν} (hg : Grouped t)
    (hbinding : t.binding? = l.writtenBinding?) {wanted : Bool}
    (hwanted : wanted = false → needsParens parent.binding l .left = false)
    (hp : parent.binding.precedence ≤ 60 ∨ 80 ≤ parent.binding.precedence) :
    Closes parent.binding.precedence (wrap wanted t) := by
  cases wanted with
  | true => trivial
  | false =>
    have hn := hwanted rfl
    rw [needsParens_left_iff hparent, ← hbinding] at hn
    exact hg.closes hn hp

/-- A right operand that is put in parentheses where it needs them fits. -/
theorem fits_wrap_right (parent : Operator) (hparent : parent ≠ .unary .factorial) {r t : Expr ν}
    (hbinding : t.binding? = r.writtenBinding?) {wanted : Bool}
    (hwanted : wanted = false → needsParens parent.binding r .right = false) :
    Fits parent.binding.threshold (wrap wanted t) := by
  cases wanted with
  | true => exact fun b hb => by cases hb
  | false =>
    have hn := hwanted rfl
    rw [needsParens_right_iff hparent, ← hbinding] at hn
    exact hn

end Numeral

section Arithmetic

variable [Arithmetic ν] [Numeral ν]

/-! ### The written tree is grouped -/

theorem binding?_written (e : Expr ν) : e.written.binding? = e.writtenBinding? := by
  cases e with
  | literal s v =>
    rw [writtenBinding?, literalBinding?, written, writtenLiteral]
    cases Numeral.shape v with
    | undefined => rfl
    | infinite negative => cases negative <;> rfl
    | finite negative => cases negative <;> rfl
  | _ => rfl

theorem grouped_writtenLiteral (s : Span) (v : ν) : Grouped (writtenLiteral s v) := by
  unfold writtenLiteral
  split <;> simp [Grouped, Closes, Fits, binding?]

theorem startsTight_written {e : Expr ν} (h : e.startsLoose = false) : StartsTight e.written := by
  induction e with
  | literal s v =>
    rw [startsLoose] at h
    rw [written, writtenLiteral]
    cases hv : Numeral.shape v with
    | undefined => trivial
    | infinite negative =>
      rw [hv] at h
      cases negative with
      | false => trivial
      | true => cases h
    | finite negative =>
      rw [hv] at h
      cases negative with
      | false => trivial
      | true => cases h
  | binary s op l r ihl ihr =>
    rw [startsLoose, Bool.and_eq_false_iff, Bool.not_eq_false'] at h
    refine startsTight_wrap fun hn => ihl (h.resolve_left ?_)
    rw [operandNeedsParens, Bool.or_eq_false_iff] at hn
    simp [hn.1]
  | unary s op e ih =>
    cases op with
    | neg => cases h
    | factorial =>
      rw [startsLoose, Bool.and_eq_false_iff, Bool.not_eq_false'] at h
      refine startsTight_wrap fun hn => ih (h.resolve_left ?_)
      change needsParens UnaryOp.factorial.binding e .left = false at hn
      simp [hn]
  | paren s e ih => trivial
  | constant s c => trivial
  | imaginary s => trivial
  | var s x => trivial
  | derivative s e x ih => cases h
  | integral s e x ihe ihx => cases h
  | definiteIntegral s e x a b ihe ihx iha ihb => cases h

/-- **The written tree is grouped.** -/
theorem grouped_written (e : Expr ν) : Grouped e.written := by
  induction e with
  | paren s e ih => exact ih
  | constant s c => trivial
  | imaginary s => trivial
  | var s x => trivial
  | literal s v => exact grouped_writtenLiteral s v
  | binary s op l r ihl ihr =>
    refine ⟨⟨grouped_wrap ihl _, ?_⟩, grouped_wrap ihr _, ?_, ?_⟩
    · rw [operandNeedsParens_left]
      exact closes_wrap_left (.binary op) (by simp) ihl (binding?_written l) (fun h => h) (by cases op <;> decide)
    · refine fits_wrap_right (.binary op) (by simp) (binding?_written r) fun h => ?_
      rw [operandNeedsParens, Bool.or_eq_false_iff] at h
      exact h.1
    · rintro rfl
      cases hn : operandNeedsParens .juxtapose r .right with
      | true => trivial
      | false =>
        rw [operandNeedsParens, Bool.or_eq_false_iff] at hn
        exact startsTight_written hn.2
  | unary s op e ih =>
    cases op with
    | neg => exact ⟨grouped_wrap ih _, fits_wrap_right (.unary .neg) (by simp) (binding?_written e) fun h => h⟩
    | factorial =>
      exact ⟨grouped_wrap ih _,
        closes_wrap_left (.unary .factorial) (by simp) ih (binding?_written e) (fun h => h) (by decide)⟩
  | derivative s e x ih => exact ih
  | integral s e x ihe ihx => exact ⟨ihe, ihx⟩
  | definiteIntegral s e x a b ihe ihx iha ihb => exact ⟨ihe, ihx, iha, ihb⟩

/-- **A grouped tree is written as it is.** -/
theorem written_eq_self {e : Expr ν} (h : Writable IsPlain e) (hg : Grouped e) : e.written = e := by
  induction e with
  | paren s e ih => rw [written, ih h hg]
  | literal s v => rw [written, writtenLiteral, show Numeral.shape v = .finite false from h]
  | binary s op l r ihl ihr =>
    -- what keeps the groups apart on either side is just what the rule for parentheses asks for
    obtain ⟨⟨hgl, hcl⟩, hgr, hfr, htr⟩ := hg
    have hl : operandNeedsParens op l .left = false := by
      rw [operandNeedsParens_left, show op.binding = (Operator.binary op).binding from rfl,
        needsParens_left_iff (by simp), writtenBinding?_of_plain h.1]
      exact hcl.root
    have hr : operandNeedsParens op r .right = false := by
      rw [operandNeedsParens, show op.binding = (Operator.binary op).binding from rfl, Bool.or_eq_false_iff,
        needsParens_right_iff (by simp), writtenBinding?_of_plain h.2]
      refine ⟨hfr, ?_⟩
      by_cases hop : op = .juxtapose
      · rw [startsLoose_eq_false h.2 (htr hop), Bool.and_false]
      · simp [hop]
    rw [written, hl, hr, ihl h.1 hgl, ihr h.2 hgr]
    rfl
  | unary s op e ih =>
    cases op with
    | neg =>
      have hn : needsParens UnaryOp.neg.binding e (unarySide .neg) = false := by
        rw [show UnaryOp.neg.binding = (Operator.unary .neg).binding from rfl, show unarySide .neg = .right from rfl,
          needsParens_right_iff (by simp), writtenBinding?_of_plain (e := e) h]
        exact hg.2
      rw [written, hn, ih h hg.1]
      rfl
    | factorial =>
      have hn : needsParens UnaryOp.factorial.binding e (unarySide .factorial) = false := by
        rw [show UnaryOp.factorial.binding = (Operator.unary .factorial).binding from rfl,
          show unarySide .factorial = .left from rfl, needsParens_left_iff (by simp),
          writtenBinding?_of_plain (e := e) h]
        exact hg.2.root
      rw [written, hn, ih h hg.1]
      rfl
  | derivative s e x ih => rw [written, ih h.1 hg]
  | integral s e x ihe ihx => cases h
  | definiteIntegral s e x a b ihe ihx iha ihb => cases h
  | _ => rfl

/-- Where literals are written with digits alone, only parentheses are put in. -/
theorem withoutParens_written {e : Expr ν} (h : Writable IsPlain e) : e.written.withoutParens = e.withoutParens := by
  induction e with
  | paren s e ih => exact ih h
  | literal s v => rw [written, writtenLiteral, show Numeral.shape v = .finite false from h]
  | binary s op l r ihl ihr =>
    rw [written, withoutParens, withoutParens, withoutParens_wrap, withoutParens_wrap, ihl h.1, ihr h.2]
  | unary s op e ih => rw [written, withoutParens, withoutParens, withoutParens_wrap, ih h]
  | derivative s e x ih => rw [written, withoutParens, withoutParens, ih h.1]
  | integral s e x ihe ihx => cases h
  | definiteIntegral s e x a b ihe ihx iha ihb => cases h
  | _ => rfl

/-! ### Nesting -/

theorem spine_written (e : Expr ν) : e.written.spine ≤ e.nodes := by
  induction e with
  | literal s v =>
    rw [written, writtenLiteral]
    split <;> simp [spine, nodes]
  | binary s op l r ihl ihr =>
    have hl := spine_wrap (operandNeedsParens op l .left) l.written
    simp only [written, spine, nodes]
    omega
  | unary s op e ih =>
    cases op with
    | neg => exact Nat.zero_le _
    | factorial =>
      have he := spine_wrap (needsParens UnaryOp.factorial.binding e (unarySide .factorial)) e.written
      simp only [written, spine, nodes]
      omega
  | _ => exact Nat.zero_le _

/-- **How deeply a written tree is nested**, if each of its literals takes up at most `k` levels: an operand brings in
    one level for itself, one for its parentheses and one for the operation. -/
theorem levels_written {k : Nat} (hk : 3 ≤ k) {e : Expr ν}
    (h : Writable (fun v => ∀ s, (writtenLiteral s v).levels < k) e) : e.written.levels < k * e.nodes := by
  induction e with
  | paren s e ih =>
    have := ih h
    simp only [written, levels, nodes, Nat.mul_add]
    omega
  | literal s v =>
    have := h s
    simp only [written, nodes]
    omega
  | binary s op l r ihl ihr =>
    have hl := ihl h.1
    have hr := ihr h.2
    have hwl := levels_wrap (operandNeedsParens op l .left) l.written
    have hwr := levels_wrap (operandNeedsParens op r .right) r.written
    have hsl := spine_wrap (operandNeedsParens op l .left) l.written
    have hspine := spine_written l
    have hnodes : l.nodes ≤ k * l.nodes := Nat.le_mul_of_pos_left _ (by omega)
    -- the left edge of an operand is no longer than the tree has nodes, so one level more is paid for
    simp only [written, levels, nodes, Nat.mul_add]
    omega
  | unary s op e ih =>
    have he := ih h
    have hw := levels_wrap (needsParens op.binding e (unarySide op)) e.written
    have hs := spine_wrap (needsParens op.binding e (unarySide op)) e.written
    have hspine := spine_written e
    have hnodes : e.nodes ≤ k * e.nodes := Nat.le_mul_of_pos_left _ (by omega)
    cases op <;> simp only [written, levels, nodes, Nat.mul_add] <;> omega
  | derivative s e x ih =>
    have := ih h.1
    simp only [written, levels, nodes, Nat.mul_add]
    omega
  | integral s e x ihe ihx => cases h
  | definiteIntegral s e x a b ihe ihx iha ihb => cases h
  | _ =>
    simp only [written, levels, nodes]
    omega

/-- No literal takes up more than four further levels. -/
theorem levels_writtenLiteral (s : Span) (v : ν) : (writtenLiteral s v).levels < 5 := by
  rw [writtenLiteral]
  split <;> simp [levels, spine]

theorem levels_writtenLiteral_of_plain {v : ν} (h : IsPlain v) (s : Span) : (writtenLiteral s v).levels < 3 := by
  rw [writtenLiteral, show Numeral.shape v = .finite false from h]
  simp [levels]

end Arithmetic

/-! ### The input form spells the written tree -/

variable [Arithmetic ν] [Numeral ν] [LawfulNumeral ν]

/-- What is known of the digits of a negative literal. -/
theorem magnitude_spec {v : ν} (h : Numeral.shape v = .finite true) : IsPlain (magnitude v) ∧
    Numeral.digits (magnitude v) = Numeral.digits v ∧ Arithmetic.unary .neg (magnitude v) = some v := by
  obtain ⟨w, hw, hdigits, hneg⟩ := LawfulNumeral.exists_neg h
  have hmag : magnitude v = w := by
    rw [magnitude, ← hdigits, LawfulNumeral.read_digits hw]
  rw [hmag]
  exact ⟨hw, hdigits, hneg⟩

theorem spells_number {v : ν} {negative : Bool} (h : Numeral.shape v = .finite negative) :
    Spells (Numeral.digits v).toList [(.number, Numeral.digits v)] :=
  (isWord_number (LawfulNumeral.numberText_digits h)).spells

/-- A quotient of two literals, as it is written. -/
theorem spells_quotient {s : Span} {v w : ν} (hv : IsPlain v) (hw : IsPlain w) :
    Spells ((Numeral.digits v).toList ++ " / ".toList ++ (Numeral.digits w).toList)
      (binary s .div (literal s v) (literal s w)).words := by
  rw [List.append_assoc]
  exact (spells_number hv).append (delimited_blank _)
    (Spells.blank (Spells.symbol (by decide) (Spells.blank (spells_number hw))))

theorem spells_literal (s : Span) (v : ν) : Spells (literalInput v).toList (writtenLiteral s v).words := by
  have hquotient := spells_quotient (s := s) (LawfulNumeral.shape_one (ν := ν)) LawfulNumeral.shape_zero
  have hzero := spells_quotient (s := s) (LawfulNumeral.shape_zero (ν := ν)) LawfulNumeral.shape_zero
  rw [LawfulNumeral.digits_zero] at hquotient hzero
  rw [LawfulNumeral.digits_one] at hquotient
  rw [literalInput, writtenLiteral]
  cases hv : Numeral.shape v with
  | undefined =>
    have htext : "0 / 0".toList = "0".toList ++ " / ".toList ++ "0".toList := by decide
    rw [htext]
    exact hzero
  | infinite negative =>
    cases negative with
    | false =>
      have htext : "1 / 0".toList = "1".toList ++ " / ".toList ++ "0".toList := by decide
      rw [htext]
      exact hquotient
    | true =>
      have htext : "-(1 / 0)".toList = '-' :: '(' :: ("1".toList ++ " / ".toList ++ "0".toList ++ [')']) := by decide
      have hclosed := hquotient.append (delimited_close []) (Spells.symbol (c := ')') (by decide) .nil)
      rw [htext]
      exact Spells.symbol (by decide) (Spells.symbol (by decide) hclosed)
  | finite negative =>
    rw [String.toList_append]
    cases negative with
    | false => exact spells_number hv
    | true =>
      obtain ⟨-, hdigits, -⟩ := magnitude_spec hv
      show Spells _ [mark '-', (.number, Numeral.digits (magnitude v))]
      rw [hdigits]
      exact Spells.symbol (by decide) (spells_number hv)

/-- What stands between operands spells the operator. -/
theorem spells_separator (op : BinaryOp) {cs : List Char} {ws : List Word} (h : Spells cs ws) :
    Spells ((separator op).toList ++ cs) (operatorWords op ++ ws) := by
  cases op with
  | juxtapose => exact Spells.blank h
  | _ => exact Spells.blank (Spells.symbol (by decide) (Spells.blank h))

theorem delimited_separator (op : BinaryOp) (cs : List Char) : Delimited ((separator op).toList ++ cs) := by
  cases op <;> exact delimited_blank _

/-- **The input form spells the words of the written tree.** -/
theorem spells_inputForm {e : Expr ν} (h : Writable (fun _ => True) e) :
    Spells e.inputForm.toList e.written.words := by
  induction e with
  | paren s e ih =>
    have hclosed := (ih h).append (delimited_close []) (Spells.symbol (c := ')') (by decide) .nil)
    show Spells ("(" ++ e.inputForm ++ ")").toList (mark '(' :: (e.written.words ++ [mark ')']))
    rw [String.toList_append, String.toList_append, List.append_assoc]
    exact Spells.symbol (by decide) hclosed
  | constant s c =>
    refine (isWord_constant ?_).spells
    rcases h with rfl | rfl
    · exact Or.inl rfl
    · exact Or.inr rfl
  | imaginary s => cases h
  | var s x => exact ((isName_iff x).mp h).spells
  | literal s v => exact spells_literal s v
  | binary s op l r ihl ihr =>
    have hl := spells_parenthesized (ihl h.1) (operandNeedsParens op l .left)
    have hr := spells_parenthesized (ihr h.2) (operandNeedsParens op r .right)
    rw [inputForm_binary, String.toList_append, String.toList_append, List.append_assoc]
    exact hl.append (delimited_separator op _) (spells_separator op hr)
  | unary s op e ih =>
    cases op with
    | neg =>
      rw [inputForm_neg, String.toList_append]
      exact Spells.symbol (by decide) (spells_parenthesized (ih h) _)
    | factorial =>
      rw [inputForm_factorial, String.toList_append]
      exact (spells_parenthesized (ih h) _).append (delimited_bang []) (Spells.symbol (by decide) .nil)
  | derivative s e x ih =>
    have hname := ((isName_iff x).mp h.2).spells
    have hwrt : IsWord .keyword "wrt" := rfl
    have hderivative : IsWord .keyword "derivative" := rfl
    have htail := (ih h.1).append (delimited_blank _) (Spells.blank (hwrt.spells.append (delimited_blank _)
      (Spells.blank hname)))
    have hall := hderivative.spells.append (delimited_blank _) (Spells.blank htail)
    show Spells ("derivative " ++ e.inputForm ++ " wrt " ++ x).toList _
    rw [String.toList_append, String.toList_append, String.toList_append, List.append_assoc, List.append_assoc]
    exact hall
  | integral s e x ihe ihx => cases h
  | definiteIntegral s e x a b ihe ihx iha ihb => cases h

/-- The literals of a written tree are written with digits alone. -/
theorem writable_written {e : Expr ν} (h : Writable (fun _ => True) e) : Writable IsPlain e.written := by
  induction e with
  | literal s v =>
    rw [written, writtenLiteral]
    cases hv : Numeral.shape v with
    | undefined => exact ⟨LawfulNumeral.shape_zero, LawfulNumeral.shape_zero⟩
    | infinite negative =>
      cases negative with
      | false => exact ⟨LawfulNumeral.shape_one, LawfulNumeral.shape_zero⟩
      | true => exact ⟨LawfulNumeral.shape_one, LawfulNumeral.shape_zero⟩
    | finite negative =>
      cases negative with
      | false => exact hv
      | true => exact (magnitude_spec hv).1
  | binary s op l r ihl ihr => exact ⟨writable_wrap (ihl h.1) _, writable_wrap (ihr h.2) _⟩
  | unary s op e ih => exact writable_wrap (ih h) _
  | paren s e ih => exact ih h
  | derivative s e x ih => exact ⟨ih h.1, h.2⟩
  | _ => exact h

/-! ### Simplifying -/

/-- The operation that a literal is written as has the literal for its value. -/
theorem simplifyWith_writtenLiteral (again : Expr ν → Expr ν) (s : Span) (v : ν) :
    simplifyWith again (writtenLiteral s v) = literal s v := by
  have hdiv : ∀ a b : ν, simplifyWith again (binary s .div (literal s a) (literal s b)) =
      literal s (Arithmetic.binary .div a b) := fun _ _ => rfl
  have hneg : ∀ {e : Expr ν} {a : ν}, simplifyWith again e = literal s a → Arithmetic.unary .neg a = some v →
      simplifyWith again (unary s .neg e) = literal s v := by
    intro e a he ha
    simp [simplifyWith, he, simplifyUnary, literal?, ha]
  rw [writtenLiteral]
  cases hv : Numeral.shape v with
  | undefined =>
    show simplifyWith again (binary s .div _ _) = _
    rw [hdiv, LawfulNumeral.zero_div_zero hv]
  | infinite negative =>
    cases negative with
    | false =>
      show simplifyWith again (binary s .div _ _) = _
      rw [hdiv, LawfulNumeral.div_zero hv]
    | true => exact hneg (hdiv _ _) (LawfulNumeral.neg_div_zero hv)
  | finite negative =>
    cases negative with
    | false => rfl
    | true => exact hneg rfl (magnitude_spec hv).2.2

/-- **Simplifying takes back what writing puts in.** -/
theorem simplifyWith_written (again : Expr ν → Expr ν) (e : Expr ν) :
    simplifyWith again e.written = simplifyWith again e := by
  induction e with
  | paren s e ih => exact ih
  | literal s v => exact simplifyWith_writtenLiteral again s v
  | binary s op l r ihl ihr =>
    rw [written, simplifyWith, simplifyWith, simplifyWith_wrap, simplifyWith_wrap, ihl, ihr]
  | unary s op e ih => rw [written, simplifyWith, simplifyWith, simplifyWith_wrap, ih]
  | derivative s e x ih => simp only [written, simplifyWith, ih]
  | integral s e x ihe ihx => rw [written, simplifyWith, simplifyWith, ihe, ihx]
  | definiteIntegral s e x a b ihe ihx iha ihb => rw [written, simplifyWith, simplifyWith, ihe, ihx, iha, ihb]
  | _ => rfl

theorem simplify_written (e : Expr ν) : e.written.simplify = e.simplify := simplifyWith_written _ e

end Formula.Expr
