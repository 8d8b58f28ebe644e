import Formula.Proofs.Expr.Naming
import Formula.Proofs.Expr.Written
import Formula.Proofs.Latex.Names

/-!
# `Formula.Proofs.Expr.Beginnings` — how the input form begins

A text that begins with a minus sign or with the keyword of a derivative or an integral cannot be juxtaposed to what
stands before it. Whether the input form of an expression does is asked of the tree, along its left edge, past operands
that are not put in parentheses.

A text that begins otherwise is *steady*: its first character is no minus sign, and fewer letters stand in front than
the keywords have. Whatever does not begin with a letter may follow it.

## Contents
- `looseWords` — the minus sign and the keywords.
- `Steady` — texts that begin with none of them, told by their letters.
- `exists_isPrefix_of_startsLoose`, `steady_inputForm` — what `startsLoose` says of the input form, both ways.
- `startsLoose_iff` — `startsLoose` tells how the input form begins.
-/

namespace Formula.Expr

open Lexis

variable {ν : Type}

/-- What the input form of an expression begins with that cannot be juxtaposed to what stands before it. -/
def looseWords : List String := ["-", "derivative", "integrate", "integral"]

/-! ## Steady texts -/

/-- **A steady text** begins with no minus sign, and with fewer than eight letters, as many as the keywords have at
    least. -/
structure Steady (cs : List Char) : Prop where
  ne_nil : cs ≠ []
  no_minus : cs.head? ≠ some '-'
  few_letters : run Char.isAlpha cs < 8

theorem steady_cons {c : Char} (hminus : c ≠ '-') (hc : c.isAlpha = false) (cs : List Char) : Steady (c :: cs) where
  ne_nil := List.cons_ne_nil c cs
  no_minus := by simpa using hminus
  few_letters := by
    rw [run_cons, if_neg (by simp [hc])]
    exact Nat.zero_lt_succ _

/-- Nothing that does not go on with letters changes how a text begins. -/
theorem Steady.append {cs rest : List Char} (h : Steady cs) (hrest : Delimited rest) : Steady (cs ++ rest) where
  ne_nil := List.append_ne_nil_of_left_ne_nil h.ne_nil rest
  no_minus := by
    rw [List.head?_append_of_ne_nil cs h.ne_nil]
    exact h.no_minus
  few_letters := by
    rw [run_append hrest.isAlpha]
    exact h.few_letters

/-- **A steady text does not begin with what is loose.** -/
theorem Steady.not_isPrefix {cs : List Char} (h : Steady cs) {w : String} (hw : w ∈ looseWords) :
    ¬ w.toList <+: cs := by
  rintro ⟨rest, rfl⟩
  simp only [looseWords, List.mem_cons, List.not_mem_nil, or_false] at hw
  rcases hw with rfl | rfl | rfl | rfl
  · exact h.no_minus rfl
  all_goals
    have hletters := h.few_letters
    rw [run_append_of_all (List.all_eq_true.mp rfl)] at hletters
    exact absurd hletters (Nat.not_lt.mpr ((by decide : _ ≤ _).trans (Nat.le_add_right _ _)))

theorem steady_parenthesized {wanted : Bool} {text : String} (h : wanted = false → Steady text.toList) :
    Steady (parenthesized wanted text).toList := by
  cases wanted with
  | false => exact h rfl
  | true =>
    rw [parenthesized, if_pos rfl, String.toList_append, String.toList_append, List.append_assoc]
    exact steady_cons (by decide) (by decide) _

theorem steady_number {cs : List Char} (h : NumberText cs) : Steady cs := by
  obtain ⟨c, rest, rfl, hc⟩ := h.exists_cons
  refine steady_cons ?_ (isAlpha_eq_false_of_isDigit hc) rest
  rintro rfl
  cases hc

theorem steady_letter {c : Char} (hc : c.isAlpha = true) {cs : List Char} (hcs : run Char.isAlpha cs = 0) :
    Steady (c :: cs) where
  ne_nil := List.cons_ne_nil c cs
  no_minus := by
    rintro ⟨⟩
    cases hc
  few_letters := by
    rw [run_cons, if_pos hc, hcs]
    decide

/-- A name has one letter in front. -/
theorem steady_name {x : String} (h : IsName x) : Steady x.toList := by
  obtain ⟨c, hc, hx | ⟨w, -, hx⟩⟩ := exists_letter_or_subscript h
  · rw [hx]
    exact steady_letter hc rfl
  · rw [hx]
    exact steady_letter hc rfl

theorem steady_constant {c : Constant} (h : c ∈ Constant.all) : Steady c.name.toList := by
  simp only [Constant.all, List.mem_cons, List.not_mem_nil, or_false] at h
  rcases h with rfl | rfl | rfl <;> exact ⟨by decide, by decide, by decide⟩

/-! ## Where the left edge is loose -/

variable [Numeral ν]

theorem isPrefix_append {w a : String} (h : w.toList <+: a.toList) (b : String) : w.toList <+: (a ++ b).toList := by
  rw [String.toList_append]
  exact h.trans (List.prefix_append _ _)

theorem minus_isPrefix_literalInput {v : ν} (h : (Numeral.shape v).isNegative = true) :
    "-".toList <+: (literalInput v).toList := by
  unfold literalInput
  split
  · next hshape =>
    rw [hshape] at h
    cases h
  · exact ⟨"(1 / 0)".toList, by decide⟩
  · next hshape =>
    rw [hshape] at h
    cases h
  · next negative hshape =>
    rw [hshape] at h
    obtain rfl : negative = true := h
    exact isPrefix_append (List.prefix_refl _) _

/-- **Where the left edge is loose, so is the beginning of the input form.** -/
theorem exists_isPrefix_of_startsLoose {e : Expr ν} (h : e.startsLoose = true) :
    ∃ w ∈ looseWords, w.toList <+: e.inputForm.toList := by
  induction e with
  | literal s v => exact ⟨"-", List.mem_cons_self, minus_isPrefix_literalInput h⟩
  | binary s op l r ihl ihr =>
    rw [startsLoose, Bool.and_eq_true, Bool.not_eq_true'] at h
    obtain ⟨w, hw, hprefix⟩ := ihl h.2
    refine ⟨w, hw, ?_⟩
    rw [inputForm_binary, operandNeedsParens_left, h.1, String.toList_append, String.toList_append, List.append_assoc]
    exact hprefix.trans (List.prefix_append _ _)
  | unary s op e ih =>
    cases op with
    | neg => exact ⟨"-", List.mem_cons_self, by rw [inputForm_neg]; exact isPrefix_append (List.prefix_refl _) _⟩
    | factorial =>
      rw [startsLoose, Bool.and_eq_true, Bool.not_eq_true'] at h
      obtain ⟨w, hw, hprefix⟩ := ih h.2
      refine ⟨w, hw, ?_⟩
      rw [inputForm_factorial, h.1, String.toList_append]
      exact hprefix.trans (List.prefix_append _ _)
  | derivative s e x ih =>
    refine ⟨"derivative", by simp [looseWords], ?_⟩
    show _ <+: ("derivative " ++ e.inputForm ++ " wrt " ++ x).toList
    simp only [String.append_assoc]
    exact isPrefix_append (by decide) _
  | integral s e x ihe ihx =>
    refine ⟨"integrate", by simp [looseWords], ?_⟩
    show _ <+: ("integrate " ++ e.inputForm ++ " d" ++ x.inputForm).toList
    simp only [String.append_assoc]
    exact isPrefix_append (by decide) _
  | definiteIntegral s e x a b ihe ihx iha ihb =>
    refine ⟨"integral", by simp [looseWords], ?_⟩
    show _ <+: ("integral from " ++ a.inputForm ++ " to " ++ b.inputForm ++ " of " ++ e.inputForm ++ " d" ++
      x.inputForm).toList
    simp only [String.append_assoc]
    exact isPrefix_append (by decide) _
  | _ => cases h

/-! ## Where it is not -/

variable [Arithmetic ν] [LawfulNumeral ν]

theorem steady_literalInput {v : ν} (h : (Numeral.shape v).isNegative = false) : Steady (literalInput v).toList := by
  unfold literalInput
  split
  · exact steady_cons (by decide) (by decide) _
  · next hshape =>
    rw [hshape] at h
    cases h
  · exact steady_cons (by decide) (by decide) _
  · next negative hshape =>
    rw [hshape] at h
    obtain rfl : negative = false := h
    exact steady_number (LawfulNumeral.numberText_digits hshape)

/-- **Where the left edge is not loose, the input form is steady**, by induction along that edge. -/
theorem steady_inputForm {e : Expr ν} (hn : e.NamesKnown) (h : e.startsLoose = false) : Steady e.inputForm.toList := by
  induction e with
  | paren s e ih =>
    show Steady (parenthesized true e.inputForm).toList
    exact steady_parenthesized fun hbare => by cases hbare
  | constant s c =>
    obtain ⟨name, hc⟩ := hn
    exact steady_constant (Constant.mem_all_of_lookup? hc)
  | imaginary s =>
    show Steady "i".toList
    exact steady_letter (c := 'i') rfl rfl
  | var s x => exact steady_name hn
  | literal s v => exact steady_literalInput h
  | binary s op l r ihl ihr =>
    rw [startsLoose, Bool.and_eq_false_iff, Bool.not_eq_false'] at h
    rw [inputForm_binary, String.toList_append, String.toList_append, List.append_assoc]
    refine (steady_parenthesized fun hbare => ?_).append (delimited_separator op _)
    rw [operandNeedsParens_left] at hbare
    exact ihl hn.1 (h.resolve_left (by simp [hbare]))
  | unary s op e ih =>
    cases op with
    | neg => cases h
    | factorial =>
      rw [startsLoose, Bool.and_eq_false_iff, Bool.not_eq_false'] at h
      rw [inputForm_factorial, String.toList_append]
      refine (steady_parenthesized fun hbare => ?_).append (delimited_bang [])
      exact ih hn (h.resolve_left (by simp [hbare]))
  | derivative s e x ih => cases h
  | integral s e x ihe ihx => cases h
  | definiteIntegral s e x a b ihe ihx iha ihb => cases h

/-- **`startsLoose` tells how the input form begins**: with a minus sign or with the keyword of a derivative or an
    integral, and with neither where it does not hold. -/
theorem startsLoose_iff {e : Expr ν} (hn : e.NamesKnown) :
    e.startsLoose = true ↔ ∃ w ∈ looseWords, w.toList <+: e.inputForm.toList := by
  refine ⟨exists_isPrefix_of_startsLoose, fun ⟨w, hw, hprefix⟩ => ?_⟩
  by_contra hsteady
  rw [Bool.not_eq_true] at hsteady
  exact (steady_inputForm hn hsteady).not_isPrefix hw hprefix

/-- A negative literal begins a product with its sign, and a power with the parenthesis that it is put in as the base. -/
theorem startsLoose_iff_negative :
    let v : Expr Float := .literal .nowhere (-2)
    let product : Expr Float := .binary .nowhere .mul v (.var .nowhere "x")
    let power : Expr Float := .binary .nowhere .pow v (.var .nowhere "x")
    (product.NamesKnown ∧ product.startsLoose = true ∧ ∃ w ∈ looseWords, w.toList <+: product.inputForm.toList) ∧
      power.NamesKnown ∧ power.startsLoose = false ∧ ¬ ∃ w ∈ looseWords, w.toList <+: power.inputForm.toList := by
  intro v product power
  have hknown : product.NamesKnown ∧ power.NamesKnown := ⟨⟨trivial, isName_x⟩, trivial, isName_x⟩
  have hproduct : product.startsLoose = true := by decide +kernel
  have hpower : power.startsLoose = false := by decide +kernel
  refine ⟨⟨hknown.1, hproduct, (startsLoose_iff hknown.1).mp hproduct⟩, hknown.2, hpower, ?_⟩
  rw [← startsLoose_iff hknown.2, hpower]
  decide

end Formula.Expr
