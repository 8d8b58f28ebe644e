import Formula.Proofs.Expr.Naming
import Formula.Proofs.Expr.Operands
import Formula.Proofs.Expr.Spans
import Formula.Proofs.Latex.Names
import Formula.Proofs.Number.Lawful
import Formula.Report

/-!
# `Formula.Proofs.Expr.Listing` — the outline of a tree determines the tree

A line of an outline tells the kind of a node and what the node has besides its children: the kind in letters, the rest
behind a blank. The kind says how many children there are, so that the lines of each child can be told from those that
follow them, and the tree is recovered from its root down.

## Contents
- `Numeral.describe_inj` — literals are told apart by how they are shown.
- `Kind` — what a node is besides its detail and its children; `unspanned_eq_of_kind` — these three make up a node.
- `outlineLine_inj` — a line is read back as kind and detail.
- `readsBack` — a tree is read back from its lines, whatever lines follow.
- `lines_inj` — texts without line feeds are read back from their lines.
- `unspanned_eq_of_outline` — a tree is recovered from the text of its outline.
-/

namespace Formula

/-! ## Literals -/

/-- What a literal of some shape begins with, its sign apart. -/
def Shape.Begins : Shape → Char → Prop
  | undefined, c => c = 'N'
  | infinite _, c => c = 'i'
  | finite _, c => c.isDigit = true

theorem Shape.Begins.ne_minus {s : Shape} {c : Char} (h : s.Begins c) : c ≠ '-' := by
  rintro rfl
  cases s <;> cases h

/-- The sign and the first character behind it tell the shape. -/
theorem Shape.Begins.eq {s t : Shape} {c : Char} (hs : s.Begins c) (ht : t.Begins c)
    (h : s.isNegative = t.isNegative) : s = t := by
  cases s <;> cases t <;> simp_all [Begins, isNegative]

namespace Numeral

variable {ν : Type} [Numeral ν]

/-- A literal as it is shown, without its sign. -/
def describeUnsigned (v : ν) : String :=
  match shape v with
  | .undefined => "NaN"
  | .infinite _ => "inf"
  | .finite _ => digits v

theorem describe_eq (v : ν) : describe v = sign (shape v).isNegative ++ describeUnsigned v := by
  unfold describe describeUnsigned
  cases shape v <;> rfl

variable [Arithmetic ν] [LawfulNumeral ν]

theorem exists_describeUnsigned_cons (v : ν) :
    ∃ c cs, (describeUnsigned v).toList = c :: cs ∧ (shape v).Begins c := by
  unfold describeUnsigned
  split
  · next h =>
    rw [h]
    exact ⟨'N', ['a', 'N'], rfl, rfl⟩
  · next negative h =>
    rw [h]
    exact ⟨'i', ['n', 'f'], rfl, rfl⟩
  · next negative h =>
    rw [h]
    exact (LawfulNumeral.numberText_digits h).exists_cons

/-- Literals of one shape and with the same digits are the same. -/
theorem eq_of_shape {v w : ν} (hshape : shape v = shape w) (hdigits : (shape v).isFinite = true → digits v = digits w) :
    v = w := by
  have hplain : ∀ {v w : ν}, shape v = .finite false → shape w = .finite false → digits v = digits w → v = w := by
    intro v w hv hw h
    have hread := LawfulNumeral.read_digits hv
    rw [h, LawfulNumeral.read_digits hw] at hread
    exact (Except.ok.inj hread).symm
  cases hv : shape v with
  | undefined =>
    rw [hv] at hshape
    rw [← LawfulNumeral.zero_div_zero hv, LawfulNumeral.zero_div_zero hshape.symm]
  | infinite negative =>
    rw [hv] at hshape
    cases negative with
    | false => rw [← LawfulNumeral.div_zero hv, LawfulNumeral.div_zero hshape.symm]
    | true =>
      have hneg := LawfulNumeral.neg_div_zero hv
      rw [LawfulNumeral.neg_div_zero hshape.symm] at hneg
      exact (Option.some.inj hneg).symm
  | finite negative =>
    have hvw : digits v = digits w := hdigits (by rw [hv]; rfl)
    rw [hv] at hshape
    cases negative with
    | false => exact hplain hv hshape.symm hvw
    | true =>
      obtain ⟨v', hv', hdv, hnv⟩ := LawfulNumeral.exists_neg hv
      obtain ⟨w', hw', hdw, hnw⟩ := LawfulNumeral.exists_neg hshape.symm
      rw [hplain hv' hw' (by rw [hdv, hdw, hvw]), hnw] at hnv
      exact (Option.some.inj hnv).symm

/-- **Literals are told apart by how they are shown.** -/
theorem describe_inj {v w : ν} (h : describe v = describe w) : v = w := by
  obtain ⟨c, cs, hv, hc⟩ := exists_describeUnsigned_cons v
  obtain ⟨d, ds, hw, hd⟩ := exists_describeUnsigned_cons w
  have htext : (sign (shape v).isNegative).toList ++ c :: cs = (sign (shape w).isNegative).toList ++ d :: ds := by
    rw [← hv, ← hw, ← String.toList_append, ← String.toList_append, ← describe_eq, ← describe_eq, h]
  obtain ⟨hsign, htail⟩ : (shape v).isNegative = (shape w).isNegative ∧ c :: cs = d :: ds := by
    cases hnv : (shape v).isNegative <;> cases hnw : (shape w).isNegative <;> rw [hnv, hnw] at htext
    · exact ⟨rfl, htext⟩
    · exact absurd (List.cons.inj htext).1 hc.ne_minus
    · exact absurd (List.cons.inj htext).1.symm hd.ne_minus
    · exact ⟨rfl, (List.cons.inj htext).2⟩
  obtain ⟨rfl, rfl⟩ := List.cons.inj htail
  have hunsigned : describeUnsigned v = describeUnsigned w := String.toList_inj.mp (hv.trans hw.symm)
  have hshape := hc.eq hd hsign
  refine eq_of_shape hshape fun hfinite => ?_
  unfold describeUnsigned at hunsigned
  rw [← hshape] at hunsigned
  cases hs : shape v with
  | finite negative =>
    rw [hs] at hunsigned
    exact hunsigned
  | _ =>
    rw [hs] at hfinite
    cases hfinite

end Numeral

namespace Expr

variable {ν : Type}

/-! ## Kinds of nodes -/

/-- What a node is, besides what it shows of itself and its children. -/
inductive Kind where
  | paren
  | constant
  | imaginary
  | var
  | literal
  | binary (op : BinaryOp)
  | unary (op : UnaryOp)
  | derivative
  | integral
  | definiteIntegral
deriving DecidableEq

namespace Kind

/-- The name of a kind, as the lines of an outline show it. -/
def name : Kind → String
  | paren => "Paren"
  | constant => "SymbolicConstant"
  | imaginary => "ImaginaryUnit"
  | var => "Var"
  | literal => "NumericLiteral"
  | binary op => binaryName op
  | unary op => unaryName op
  | derivative => "Derivative"
  | integral => "IndefiniteIntegral"
  | definiteIntegral => "DefiniteIntegral"

/-- All kinds. -/
def all : List Kind := [paren, constant, imaginary, var, literal, binary .add, binary .sub, binary .mul,
  binary .juxtapose, binary .div, binary .pow, unary .neg, unary .factorial, derivative, integral, definiteIntegral]

theorem mem_all (k : Kind) : k ∈ all := by
  cases k with
  | binary op => cases op <;> decide
  | unary op => cases op <;> decide
  | _ => decide

theorem nodup_names : (all.map name).Nodup := by
  decide +kernel

/-- **Kinds have different names.** -/
theorem name_inj {k k' : Kind} (h : k.name = k'.name) : k = k' :=
  List.inj_on_of_nodup_map nodup_names (mem_all k) (mem_all k') h

/-- The names consist of letters. -/
theorem isAlpha_of_mem_name (k : Kind) : ∀ c ∈ k.name.toList, c.isAlpha = true := by
  cases k with
  | binary op => cases op <;> exact List.all_eq_true.mp rfl
  | unary op => cases op <;> exact List.all_eq_true.mp rfl
  | _ => exact List.all_eq_true.mp rfl

end Kind

/-- The kind of the root. -/
def kind : Expr ν → Kind
  | paren _ _ => .paren
  | constant _ _ => .constant
  | imaginary _ => .imaginary
  | var _ _ => .var
  | literal _ _ => .literal
  | binary _ op _ _ => .binary op
  | unary _ op _ => .unary op
  | derivative _ _ _ => .derivative
  | integral _ _ _ => .integral
  | definiteIntegral _ _ _ _ _ => .definiteIntegral

theorem name_kind (e : Expr ν) : e.kind.name = e.nodeName := by
  cases e <;> rfl

/-- Nodes of one kind have equally many children. -/
theorem length_children_of_kind {a b : Expr ν} (h : a.kind = b.kind) : a.children.length = b.children.length := by
  cases a <;> cases b <;> first | rfl | cases h

theorem namesKnown_of_mem_children {e c : Expr ν} (h : e.NamesKnown) (hc : c ∈ e.children) : c.NamesKnown := by
  cases e <;> grind [children, NamesKnown]

/-! ## Lines -/

variable [Numeral ν]

theorem outline_eq (d : Nat) (e : Expr ν) :
    e.outline d = outlineLine d e :: e.children.flatMap (outline (d + 1)) := by
  cases e <;> simp [outline, children]

/-- What a node shows behind its kind begins with a blank, if there is anything. -/
theorem head?_detail (e : Expr ν) : ∀ c ∈ e.detail.toList.head?, c.isAlpha = false := by
  cases e <;> simp [detail]

/-- **A line is read back as a kind and what is shown behind it.** -/
theorem outlineLine_inj {d : Nat} {a b : Expr ν} (h : outlineLine d a = outlineLine d b) :
    a.kind = b.kind ∧ a.detail = b.detail := by
  have htext := congrArg String.toList h
  simp only [outlineLine, String.toList_append, String.toList_ofList, List.append_assoc, ← name_kind] at htext
  obtain ⟨hname, hdetail⟩ := append_inj_of_all a.kind.isAlpha_of_mem_name b.kind.isAlpha_of_mem_name
    (head?_detail a) (head?_detail b) (List.append_cancel_left htext)
  exact ⟨Kind.name_inj (String.toList_inj.mp hname), String.toList_inj.mp hdetail⟩

/-- A tree that is read back from its lines, whatever lines follow. -/
def ReadsBack (a : Expr ν) : Prop :=
  ∀ (d : Nat) (b : Expr ν) (rest rest' : List String), a.NamesKnown → b.NamesKnown →
    a.outline d ++ rest = b.outline d ++ rest' → a.unspanned = b.unspanned ∧ rest = rest'

/-- If every one of some trees is read back, so are as many of them one after the other. -/
theorem flatMap_outline_inj {as : List (Expr ν)} (hread : ∀ a ∈ as, a.ReadsBack) {bs : List (Expr ν)}
    (hlength : as.length = bs.length) (has : ∀ a ∈ as, a.NamesKnown) (hbs : ∀ b ∈ bs, b.NamesKnown) {d : Nat}
    {rest rest' : List String} (h : as.flatMap (outline d) ++ rest = bs.flatMap (outline d) ++ rest') :
    as.map unspanned = bs.map unspanned ∧ rest = rest' := by
  induction as generalizing bs with
  | nil =>
    obtain rfl := List.eq_nil_of_length_eq_zero hlength.symm
    exact ⟨rfl, h⟩
  | cons a as ih =>
    obtain ⟨b, bs, rfl⟩ := List.exists_cons_of_length_eq_add_one hlength.symm
    rw [List.forall_mem_cons] at hread has hbs
    rw [List.flatMap_cons, List.flatMap_cons, List.append_assoc, List.append_assoc] at h
    obtain ⟨hab, htail⟩ := hread.1 d b _ _ has.1 hbs.1 h
    obtain ⟨hrest, hend⟩ := ih hread.2 (Nat.succ.inj hlength) has.2 hbs.2 htail
    exact ⟨by rw [List.map_cons, List.map_cons, hab, hrest], hend⟩

variable [Arithmetic ν] [LawfulNumeral ν]

/-- **A node is made up of its kind, what it shows behind it, and its children.** -/
theorem unspanned_eq_of_kind {a b : Expr ν} (ha : a.NamesKnown) (hb : b.NamesKnown) (hkind : a.kind = b.kind)
    (hdetail : a.detail = b.detail) (hchildren : a.children.map unspanned = b.children.map unspanned) :
    a.unspanned = b.unspanned := by
  cases a <;> cases b <;> try cases hkind
  case constant.constant s c s' c' =>
    obtain ⟨_, hc⟩ := ha
    obtain ⟨_, hc'⟩ := hb
    have hname : c.name = c'.name := by simpa [detail] using hdetail
    rw [unspanned, unspanned,
      Constant.eq_of_name (Constant.mem_all_of_lookup? hc) (Constant.mem_all_of_lookup? hc') hname]
  case literal.literal s v s' v' =>
    have hshown : Numeral.describe v = Numeral.describe v' := by simpa [detail] using hdetail
    rw [unspanned, unspanned, Numeral.describe_inj hshown]
  all_goals simp_all [children, detail]

/-- **Every tree is read back from its lines**: the first line gives the kind of the root, hence the number of its
    children, each of which is read back from the lines that follow. -/
theorem readsBack (a : Expr ν) : a.ReadsBack := by
  refine induction_on_children (P := ReadsBack) (fun a ih => ?_) a
  intro d b rest rest' ha hb h
  rw [outline_eq, outline_eq, List.cons_append, List.cons_append, List.cons.injEq] at h
  obtain ⟨hkind, hdetail⟩ := outlineLine_inj h.1
  obtain ⟨hchildren, hrest⟩ := flatMap_outline_inj ih (length_children_of_kind hkind)
    (fun c => namesKnown_of_mem_children ha) (fun c => namesKnown_of_mem_children hb) h.2
  exact ⟨unspanned_eq_of_kind ha hb hkind hdetail hchildren, hrest⟩

/-! ## The text of the lines -/

/-- **A text that fits into a line**: it has no line feed. -/
def FitsLine (text : String) : Prop := ∀ c ∈ text.toList, (c != '\n') = true

theorem FitsLine.append {s t : String} (hs : FitsLine s) (ht : FitsLine t) : FitsLine (s ++ t) := by
  unfold FitsLine at *
  rw [String.toList_append]
  exact List.forall_mem_append.mpr ⟨hs, ht⟩

theorem ne_lineFeed_of_isAlphanum {c : Char} (h : c.isAlphanum = true) : (c != '\n') = true := by
  rw [bne_iff_ne]
  rintro rfl
  cases h

theorem fitsLine_name {x : String} (h : IsName x) : FitsLine x := by
  obtain ⟨c, hc, hx⟩ := exists_letter_or_subscript h
  have hletter : (c != '\n') = true := ne_lineFeed_of_isAlphanum (by rw [Char.isAlphanum, hc, Bool.true_or])
  unfold FitsLine
  rcases hx with hx | ⟨w, hw, hx⟩ <;> rw [hx]
  · exact List.forall_mem_singleton.mpr hletter
  · simp only [List.forall_mem_cons]
    exact ⟨hletter, rfl, fun c hc => ne_lineFeed_of_isAlphanum (hw.2 c hc)⟩

theorem fitsLine_number {x : String} (h : NumberText x.toList) : FitsLine x := by
  intro c hc
  rcases Bool.or_eq_true_iff.mp (h.isDigit_or_point c hc) with hdigit | hpoint
  · exact ne_lineFeed_of_isAlphanum (by rw [Char.isAlphanum, hdigit, Bool.or_true])
  · rw [beq_iff_eq.mp hpoint]
    rfl

theorem fitsLine_constant {c : Constant} (h : c ∈ Constant.all) : FitsLine c.name := by
  simp only [Constant.all, List.mem_cons, List.not_mem_nil, or_false] at h
  rcases h with rfl | rfl | rfl <;> exact List.all_eq_true.mp rfl

theorem fitsLine_describe (v : ν) : FitsLine (Numeral.describe v) := by
  have hsign : ∀ negative, FitsLine (Numeral.sign negative) := by
    intro negative
    cases negative <;> exact List.all_eq_true.mp rfl
  unfold Numeral.describe
  split
  · exact List.all_eq_true.mp rfl
  · exact (hsign _).append (List.all_eq_true.mp rfl)
  · next negative h => exact (hsign _).append (fitsLine_number (LawfulNumeral.numberText_digits h))

theorem fitsLine_detail {e : Expr ν} (h : e.NamesKnown) : FitsLine e.detail := by
  have hblank : FitsLine " " := List.all_eq_true.mp rfl
  cases e with
  | constant s c =>
    obtain ⟨_, hc⟩ := h
    exact hblank.append (fitsLine_constant (Constant.mem_all_of_lookup? hc))
  | var s x => exact hblank.append (fitsLine_name h)
  | literal s v => exact hblank.append (fitsLine_describe v)
  | derivative s e x => exact FitsLine.append (List.all_eq_true.mp rfl) (fitsLine_name h.2)
  | _ => exact List.all_eq_true.mp rfl

/-- Every line of an outline is one line. -/
theorem fitsLine_outlineLine {e : Expr ν} (h : e.NamesKnown) (d : Nat) : FitsLine (outlineLine d e) := by
  have hindent : FitsLine (String.ofList (List.replicate (2 * d) ' ')) := by
    intro c hc
    rw [String.toList_ofList] at hc
    rw [List.eq_of_mem_replicate hc]
    rfl
  have hname : FitsLine e.nodeName := by
    intro c hc
    rw [← name_kind] at hc
    exact ne_lineFeed_of_isAlphanum (by rw [Char.isAlphanum, e.kind.isAlpha_of_mem_name c hc, Bool.true_or])
  exact (hindent.append hname).append (fitsLine_detail h)

theorem fitsLine_of_mem_outline {e : Expr ν} (h : e.NamesKnown) (d : Nat) : ∀ line ∈ e.outline d, FitsLine line := by
  revert d h
  refine induction_on_children (P := fun e => e.NamesKnown → ∀ d, ∀ line ∈ e.outline d, FitsLine line)
    (fun e ih => ?_) e
  intro h d line hline
  rw [outline_eq, List.mem_cons, List.mem_flatMap] at hline
  rcases hline with rfl | ⟨c, hc, hline⟩
  · exact fitsLine_outlineLine h d
  · exact ih c hc (namesKnown_of_mem_children h hc) (d + 1) line hline

theorem toList_lines_cons (x : String) (xs : List String) :
    (Report.lines (x :: xs)).toList = x.toList ++ '\n' :: (Report.lines xs).toList := by
  rw [Report.lines, List.map_cons, String.join_cons, String.toList_append, Report.line, String.toList_append,
    List.append_assoc]
  rfl

theorem lines_cons_ne_nil (x : String) (xs : List String) : Report.lines (x :: xs) ≠ Report.lines [] := by
  intro h
  have htext := congrArg String.toList h
  rw [toList_lines_cons] at htext
  exact absurd htext (by simp [Report.lines])

/-- **Lines are told apart where they end.** -/
theorem lines_inj {xs ys : List String} (hxs : ∀ x ∈ xs, FitsLine x) (hys : ∀ y ∈ ys, FitsLine y)
    (h : Report.lines xs = Report.lines ys) : xs = ys := by
  induction xs generalizing ys with
  | nil =>
    cases ys with
    | nil => rfl
    | cons y ys => exact absurd h.symm (lines_cons_ne_nil y ys)
  | cons x xs ih =>
    cases ys with
    | nil => exact absurd h (lines_cons_ne_nil x xs)
    | cons y ys =>
      have htext := congrArg String.toList h
      rw [toList_lines_cons, toList_lines_cons] at htext
      rw [List.forall_mem_cons] at hxs hys
      obtain ⟨hxy, htail⟩ := append_inj_of_all hxs.1 hys.1 (by simp) (by simp) htext
      rw [String.toList_inj.mp hxy, ih hxs.2 hys.2 (String.toList_inj.mp (List.cons.inj htail).2)]

/-- **The outline of a tree determines the tree**, up to spans: the lines that a report shows of two expressions whose
    names are known are the same only if the expressions are. -/
theorem unspanned_eq_of_outline {a b : Expr ν} (ha : a.NamesKnown) (hb : b.NamesKnown)
    (h : Report.lines (a.outline 1) = Report.lines (b.outline 1)) : a.unspanned = b.unspanned := by
  have hlines := lines_inj (fitsLine_of_mem_outline ha 1) (fitsLine_of_mem_outline hb 1) h
  exact (readsBack a 1 b [] [] ha hb (by rw [hlines])).1

/-- Integrals of two zeros, of which one is negative, are told apart; where an integral stands in a text does not show. -/
theorem unspanned_eq_of_outline_integral :
    let x : Expr Float := .var .nowhere "x"
    let a : Expr Float := .integral ⟨0, 14⟩ (.literal ⟨10, 11⟩ 0) x
    let b : Expr Float := .integral .nowhere (.literal .nowhere 0) x
    let c : Expr Float := .integral .nowhere (.literal .nowhere (-0)) x
    (a.NamesKnown ∧ b.NamesKnown ∧ c.NamesKnown) ∧
      (Report.lines (a.outline 1) = Report.lines (b.outline 1) ∧ a.unspanned = b.unspanned) ∧
      Report.lines (b.outline 1) ≠ Report.lines (c.outline 1) := by
  intro x a b c
  have ha : a.NamesKnown := ⟨trivial, isName_x⟩
  have hb : b.NamesKnown := ⟨trivial, isName_x⟩
  have hc : c.NamesKnown := ⟨trivial, isName_x⟩
  have hlines : Report.lines (a.outline 1) = Report.lines (b.outline 1) := rfl
  refine ⟨⟨ha, hb, hc⟩, ⟨hlines, unspanned_eq_of_outline ha hb hlines⟩, fun h => ?_⟩
  have hsame : b.unspanned = c.unspanned := unspanned_eq_of_outline hb hc h
  revert hsame
  decide +kernel

end Expr

end Formula
