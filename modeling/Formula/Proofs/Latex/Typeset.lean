import Formula.Proofs.Latex.Glyphs
import Formula.Proofs.RoundTrip

/-!
# `Formula.Proofs.Latex.Typeset` — LaTeX determines the expression

LaTeX has parentheses where the input form has them and elsewhere, and braces around the parts of fractions and
exponents. With every brace read as a parenthesis, the glyphs of an expression are the words of a tree that differs
from it in parentheses only. That tree is grouped, so its words determine it; and the text determines the glyphs.

## Contents
- `typeset` — the tree with all the parentheses and braces of its LaTeX.
- `glyphs`, `spell_glyphs` — the glyphs that the LaTeX is written with.
- `readOff`, `readOff_glyphs` — the words of the typeset tree, read off its glyphs.
- `withoutParens_same_of_latex` — expressions with the same LaTeX, for doubles.
-/

namespace Formula

open Lexis Formula.Expr Latex

namespace Expr

variable {ν : Type} [Numeral ν]

/-! ## The typeset tree -/

/-- Whether an operand of a binary operator is enclosed, be it by parentheses or by braces. -/
def encloses (op : BinaryOp) (child : Expr ν) (side : Side) : Bool :=
  op == .div || (op == .pow && side == .right) || latexOperandNeedsParens op child side

/-- Whether the operand of a unary operator is enclosed. -/
def enclosesOnly (op : UnaryOp) (child : Expr ν) : Bool :=
  needsParens op.binding child (unarySide op) || (!op.leads && child.isOpenEnded)

/-- The tree with a pair of parentheses for each pair of parentheses or braces around an operand in its LaTeX. -/
def typeset : Expr ν → Expr ν
  | paren s e => paren s e.typeset
  | constant s c => constant s c
  | imaginary s => imaginary s
  | var s x => var s x
  | literal s v => literal s v
  | binary s op l r => binary s op (wrap (encloses op l .left) l.typeset) (wrap (encloses op r .right) r.typeset)
  | unary s op e => unary s op (wrap (enclosesOnly op e) e.typeset)
  | derivative s e x => derivative s (wrap true e.typeset) x
  | integral s e x => integral s e.typeset x.typeset
  | definiteIntegral s e x a b => definiteIntegral s e.typeset x.typeset a.typeset b.typeset

theorem withoutParens_typeset (e : Expr ν) : e.typeset.withoutParens = e.withoutParens := by
  induction e with
  | paren s e ih => exact ih
  | binary s op l r ihl ihr => simp only [typeset, withoutParens, withoutParens_wrap, ihl, ihr]
  | unary s op e ih => simp only [typeset, withoutParens, withoutParens_wrap, ih]
  | derivative s e x ih => simp only [typeset, withoutParens, withoutParens_wrap, ih]
  | integral s e x ihe ihx => simp only [typeset, withoutParens, ihe, ihx]
  | definiteIntegral s e x a b ihe ihx iha ihb => simp only [typeset, withoutParens, ihe, ihx, iha, ihb]
  | _ => rfl

theorem writable_typeset {P : ν → Prop} {e : Expr ν} (h : Writable P e) : Writable P e.typeset := by
  induction e with
  | paren s e ih => exact ih h
  | binary s op l r ihl ihr => exact ⟨writable_wrap (ihl h.1) _, writable_wrap (ihr h.2) _⟩
  | unary s op e ih => exact writable_wrap (ih h) _
  | derivative s e x ih => exact ⟨ih h.1, h.2⟩
  | integral s e x ihe ihx => cases h
  | definiteIntegral s e x a b ihe ihx iha ihb => cases h
  | _ => exact h

/-- Typesetting keeps the root. -/
theorem binding?_typeset {e : Expr ν} (h : Writable IsPlain e) : e.typeset.binding? = e.writtenBinding? := by
  rw [writtenBinding?_of_plain h]
  cases e <;> rfl

theorem encloses_eq_false {op : BinaryOp} {child : Expr ν} {side : Side} (h : encloses op child side = false) :
    needsParens op.binding child side = false ∧ (op = .juxtapose → side = .right → child.startsLoose = false) := by
  simp only [encloses, latexOperandNeedsParens, operandNeedsParens, Bool.or_eq_false_iff] at h
  refine ⟨h.2.1.1, ?_⟩
  rintro rfl rfl
  simpa using h.2.1.2

theorem startsTight_typeset {e : Expr ν} (hw : Writable IsPlain e) (h : e.startsLoose = false) :
    StartsTight e.typeset := by
  induction e with
  | binary s op l r ihl ihr =>
    rw [startsLoose, Bool.and_eq_false_iff, Bool.not_eq_false'] at h
    refine startsTight_wrap fun hn => ihl hw.1 (h.resolve_left ?_)
    simp [(encloses_eq_false hn).1]
  | unary s op e ih =>
    cases op with
    | neg => cases h
    | factorial =>
      rw [startsLoose, Bool.and_eq_false_iff, Bool.not_eq_false'] at h
      refine startsTight_wrap fun hn => ih hw (h.resolve_left ?_)
      rw [enclosesOnly, Bool.or_eq_false_iff] at hn
      rw [show needsParens UnaryOp.factorial.binding e .left = false from hn.1]
      decide
  | paren s e ih => trivial
  | constant s c => trivial
  | imaginary s => trivial
  | var s x => trivial
  | literal s v => trivial
  | derivative s e x ih => cases h
  | integral s e x ihe ihx => cases h
  | definiteIntegral s e x a b ihe ihx iha ihb => cases h

/-- **The typeset tree is grouped.** -/
theorem grouped_typeset {e : Expr ν} (h : Writable IsPlain e) : Grouped e.typeset := by
  induction e with
  | paren s e ih => exact ih h
  | binary s op l r ihl ihr =>
    have hgl := ihl h.1
    have hgr := ihr h.2
    refine ⟨⟨grouped_wrap hgl _, ?_⟩, grouped_wrap hgr _, ?_, ?_⟩
    · exact closes_wrap_left (.binary op) (by simp) hgl (binding?_typeset h.1) (fun hn => (encloses_eq_false hn).1)
        (by cases op <;> decide)
    · exact fits_wrap_right (.binary op) (by simp) (binding?_typeset h.2) fun hn => (encloses_eq_false hn).1
    · exact fun hop => startsTight_wrap fun hn => startsTight_typeset h.2 ((encloses_eq_false hn).2 hop rfl)
  | unary s op e ih =>
    have hg := ih h
    have hwanted : enclosesOnly op e = false → needsParens op.binding e (unarySide op) = false := fun hn =>
      (Bool.or_eq_false_iff.mp hn).1
    cases op with
    | neg => exact ⟨grouped_wrap hg _, fits_wrap_right (.unary .neg) (by simp) (binding?_typeset (e := e) h) hwanted⟩
    | factorial =>
      exact ⟨grouped_wrap hg _,
        closes_wrap_left (.unary .factorial) (by simp) hg (binding?_typeset (e := e) h) hwanted (by decide)⟩
  | derivative s e x ih => exact ih h.1
  | integral s e x ihe ihx => cases h
  | definiteIntegral s e x a b ihe ihx iha ihb => cases h
  | _ => trivial

/-! ## The glyphs of an expression -/

/-- The sign of a constant of the input language. -/
def constantSign (c : Constant) : Sign := if c.name = "pi" then .pi else .e

/-- The sign between operands that stand on the line. -/
def latexSign : BinaryOp → Sign
  | .add => .plus
  | .sub => .minus
  | .mul => .times
  | _ => .beside

/-- Glyphs in parentheses, where they are wanted. -/
def enclosed (wanted : Bool) (gs : List Glyph) : List Glyph :=
  if wanted then .sign .opening :: (gs ++ [.sign .closing]) else gs

/-- The glyphs that the LaTeX of an expression is written with. -/
def glyphs : Expr ν → List Glyph
  | paren _ e => enclosed true e.glyphs
  | constant _ c => [.sign (constantSign c)]
  | imaginary _ => []
  | var _ x => [.name x]
  | literal _ v => [.number (Numeral.digits v)]
  | binary _ .div l r =>
    .sign .fraction :: (l.glyphs ++ .sign .brace :: .sign .denominator :: (r.glyphs ++ [.sign .brace]))
  | binary _ .pow l r =>
    enclosed (latexOperandNeedsParens .pow l .left) l.glyphs ++ .sign .power :: (r.glyphs ++ [.sign .brace])
  | binary _ op l r =>
    enclosed (latexOperandNeedsParens op l .left) l.glyphs ++ .sign (latexSign op) ::
      enclosed (latexOperandNeedsParens op r .right) r.glyphs
  | unary _ .neg e => .sign .negative :: enclosed (enclosesOnly .neg e) e.glyphs
  | unary _ .factorial e => enclosed (enclosesOnly .factorial e) e.glyphs ++ [.sign .bang]
  | derivative _ e x =>
    .sign .derivative :: .name x :: .sign .brace :: .sign .application :: (e.glyphs ++ [.sign .closing])
  | integral _ _ _ => []
  | definiteIntegral _ _ _ _ _ => []

/-- An operation that is written on the line. -/
theorem glyphs_binary (s : Span) {op : BinaryOp} (hdiv : op ≠ .div) (hpow : op ≠ .pow) (l r : Expr ν) :
    (binary s op l r).glyphs = enclosed (latexOperandNeedsParens op l .left) l.glyphs ++ .sign (latexSign op) ::
      enclosed (latexOperandNeedsParens op r .right) r.glyphs := by
  cases op <;> first | rfl | exact absurd rfl hdiv | exact absurd rfl hpow

/-! ### Their text -/

theorem spell_enclosed {gs : List Glyph} {text : String} (h : spell gs = text.toList) (wanted : Bool) :
    spell (enclosed wanted gs) = (latexParenthesized wanted text).toList := by
  cases wanted with
  | false => exact h
  | true => simp [enclosed, latexParenthesized, h, Glyph.text, Sign.text]

theorem text_constantSign {c : Constant} (h : c = .pi ∨ c = .e) : (constantSign c).text = c.latex := by
  rcases h with rfl | rfl <;> rfl

theorem text_latexSign (op : BinaryOp) : (latexSign op).text = latexSeparator op := by
  cases op <;> rfl

/-- **The glyphs spell the LaTeX.** -/
theorem spell_glyphs {e : Expr ν} (h : Writable IsPlain e) : spell e.glyphs = e.latex.toList := by
  induction e with
  | paren s e ih => exact spell_enclosed (ih h) true
  | constant s c =>
    show spell [.sign (constantSign c)] = c.latex.toList
    rw [← text_constantSign h]
    exact List.append_nil _
  | imaginary s => cases h
  | var s x => exact List.append_nil _
  | literal s v =>
    have hv : latexLiteral v = Numeral.digits v := by
      rw [latexLiteral, show Numeral.shape v = .finite false from h]
      exact String.empty_append
    show spell [.number (Numeral.digits v)] = (latexLiteral v).toList
    rw [hv]
    exact List.append_nil _
  | binary s op l r ihl ihr =>
    have hl := ihl h.1
    have hr := ihr h.2
    by_cases hdiv : op = .div
    · subst hdiv
      rw [latex_div]
      simp [glyphs, hl, hr, Glyph.text, Sign.text]
    · by_cases hpow : op = .pow
      · subst hpow
        rw [latex_pow]
        simp [glyphs, spell_enclosed hl, hr, Glyph.text, Sign.text]
      · rw [glyphs_binary s hdiv hpow, latex_binary s hdiv hpow]
        simp [spell_enclosed hl, spell_enclosed hr, Glyph.text, text_latexSign]
  | unary s op e ih =>
    have he := ih h
    cases op with
    | neg =>
      show _ = ("-" ++ latexParenthesized (enclosesOnly .neg e) e.latex).toList
      simp [glyphs, spell_enclosed he, Glyph.text, Sign.text]
    | factorial =>
      show _ = (latexParenthesized (enclosesOnly .factorial e) e.latex ++ "!").toList
      simp [glyphs, spell_enclosed he, Glyph.text, Sign.text]
  | derivative s e x ih =>
    have he := ih h.1
    rw [latex_derivative]
    simp [glyphs, latexParenthesized, he, Glyph.text, Sign.text]
  | integral s e x ihe ihx => cases h
  | definiteIntegral s e x a b ihe ihx iha ihb => cases h

/-! ### Whether they can be told apart -/

theorem legible_singleton {g : Glyph} (h : g.Lawful) : Legible [g] :=
  ⟨by simpa using h, .singleton g⟩

theorem legible_enclosed {gs : List Glyph} (h : Legible gs) (wanted : Bool) : Legible (enclosed wanted gs) := by
  cases wanted with
  | false => exact h
  | true => exact (h.append (legible_singleton trivial)).sign .opening

/-- **The glyphs can be told apart**: between any two words of the LaTeX stands a sign. -/
theorem legible_glyphs [Arithmetic ν] [LawfulNumeral ν] {e : Expr ν} (h : Writable IsPlain e) : Legible e.glyphs := by
  induction e with
  | paren s e ih => exact legible_enclosed (ih h) true
  | constant s c => exact legible_singleton trivial
  | imaginary s => cases h
  | var s x => exact legible_singleton h
  | literal s v => exact legible_singleton (LawfulNumeral.numberText_digits h)
  | binary s op l r ihl ihr =>
    have hl := ihl h.1
    have hr := ihr h.2
    have hbraced : Legible (r.glyphs ++ [.sign .brace]) := hr.append (legible_singleton trivial)
    by_cases hdiv : op = .div
    · subst hdiv
      exact (hl.append ((hbraced.sign .denominator).sign .brace)).sign .fraction
    · by_cases hpow : op = .pow
      · subst hpow
        exact (legible_enclosed hl _).append (hbraced.sign .power)
      · rw [glyphs_binary s hdiv hpow]
        exact (legible_enclosed hl _).append ((legible_enclosed hr _).sign _)
  | unary s op e ih =>
    have he := ih h
    cases op with
    | neg => exact (legible_enclosed he _).sign .negative
    | factorial => exact (legible_enclosed he _).append (legible_singleton trivial)
  | derivative s e x ih =>
    have he : Legible (e.glyphs ++ [.sign .closing]) := (ih h.1).append (legible_singleton trivial)
    have hname : Legible [.name x] := legible_singleton h.2
    exact (hname.append ((he.sign .application).sign .brace)).sign .derivative
  | integral s e x ihe ihx => cases h
  | definiteIntegral s e x a b ihe ihx iha ihb => cases h

end Expr

/-! ## Reading off the typeset tree -/

namespace Latex

/-- The words that a sign is read as wherever it stands. -/
def Sign.words : Sign → List Word
  | pi => [(.constant, "pi")]
  | e => [(.constant, "e")]
  | plus => [mark '+']
  | minus => [mark '-']
  | times => [mark '*']
  | negative => [mark '-']
  | bang => [mark '!']
  | fraction => [mark '(']
  | denominator => [mark '/', mark '(']
  | power => [mark '^', mark '(']
  | brace => [mark ')']
  | _ => []

/-- **The words read off glyphs**, given those that are pending for each parenthesis that is open: a derivative is
    written with its variable first, but read with its variable behind its operand. -/
def readOff : List (List Word) → List Glyph → List Word
  | _, [] => []
  | pending, .sign .derivative :: .name x :: .sign .brace :: .sign .application :: gs =>
    (.keyword, "derivative") :: mark '(' :: readOff ([mark ')', (.keyword, "wrt"), (.name, x)] :: pending) gs
  | pending, .sign .opening :: gs => mark '(' :: readOff ([mark ')'] :: pending) gs
  | top :: pending, .sign .closing :: gs => top ++ readOff pending gs
  | pending, .sign s :: gs => s.words ++ readOff pending gs
  | pending, .name x :: gs => (.name, x) :: readOff pending gs
  | pending, .number digits :: gs => (.number, digits) :: readOff pending gs

/-- Glyphs are read as words, whatever is pending and whatever follows. -/
def ReadsOff (gs : List Glyph) (ws : List Word) : Prop :=
  ∀ pending rest, readOff pending (gs ++ rest) = ws ++ readOff pending rest

theorem ReadsOff.append {gs hs : List Glyph} {ws vs : List Word} (hg : ReadsOff gs ws) (hh : ReadsOff hs vs) :
    ReadsOff (gs ++ hs) (ws ++ vs) := by
  intro pending rest
  rw [List.append_assoc, hg, hh, List.append_assoc]

theorem readsOff_sign {s : Sign} (hderivative : s ≠ .derivative) (hopening : s ≠ .opening)
    (hclosing : s ≠ .closing) : ReadsOff [.sign s] s.words := by
  intro pending rest
  cases s with
  | derivative => exact absurd rfl hderivative
  | opening => exact absurd rfl hopening
  | closing => exact absurd rfl hclosing
  | _ => rfl

/-- A part between braces. -/
theorem ReadsOff.brace {gs : List Glyph} {ws : List Word} (h : ReadsOff gs ws) :
    ReadsOff (gs ++ [.sign .brace]) (ws ++ [mark ')']) :=
  h.append (readsOff_sign (by decide) (by decide) (by decide))

theorem ReadsOff.enclosed {ν : Type} [Numeral ν] {gs : List Glyph} {e : Expr ν} (h : ReadsOff gs e.words)
    (wanted : Bool) : ReadsOff (enclosed wanted gs) (wrap wanted e).words := by
  cases wanted with
  | false => exact h
  | true =>
    intro pending rest
    show mark '(' :: readOff ([mark ')'] :: pending) (gs ++ [.sign .closing] ++ rest) = _
    rw [List.append_assoc, h]
    show _ = mark '(' :: (e.words ++ [mark ')'] ++ readOff pending rest)
    rw [List.append_assoc]
    rfl

end Latex

namespace Expr

variable {ν : Type} [Numeral ν]

/-- **The typeset tree is read off the glyphs.** -/
theorem readsOff_glyphs {e : Expr ν} (h : Writable IsPlain e) : ReadsOff e.glyphs e.typeset.words := by
  induction e with
  | paren s e ih => exact (ih h).enclosed true
  | constant s c => rcases h with rfl | rfl <;> exact fun _ _ => rfl
  | imaginary s => cases h
  | var s x => exact fun _ _ => rfl
  | literal s v => exact fun _ _ => rfl
  | binary s op l r ihl ihr =>
    have hl := ihl h.1
    have hr := ihr h.2
    by_cases hdiv : op = .div
    · subst hdiv
      have hfraction : ReadsOff [.sign .fraction] [mark '('] := readsOff_sign (by decide) (by decide) (by decide)
      have hdenominator : ReadsOff [.sign .denominator] [mark '/', mark '('] :=
        readsOff_sign (by decide) (by decide) (by decide)
      have hwords : (binary s .div l r).typeset.words =
          [mark '('] ++ l.typeset.words ++ [mark ')'] ++ ([mark '/', mark '('] ++ r.typeset.words ++ [mark ')']) := by
        simp [typeset, wrap, encloses, words, operatorWords, mark, BinaryOp.symbol]
      have hall := (hfraction.append hl).brace.append (hdenominator.append hr).brace
      rw [hwords]
      simpa [glyphs] using hall
    · by_cases hpow : op = .pow
      · subst hpow
        have hpower : ReadsOff [.sign .power] [mark '^', mark '('] :=
          readsOff_sign (by decide) (by decide) (by decide)
        have hwords : (binary s .pow l r).typeset.words =
            (wrap (latexOperandNeedsParens .pow l .left) l.typeset).words ++
              ([mark '^', mark '('] ++ r.typeset.words ++ [mark ')']) := by
          simp [typeset, wrap, encloses, words, operatorWords, mark, BinaryOp.symbol]
        have hall := (hl.enclosed (latexOperandNeedsParens .pow l .left)).append (hpower.append hr).brace
        rw [hwords]
        simpa [glyphs] using hall
      · have hsign : ReadsOff [.sign (latexSign op)] (operatorWords op) := by
          cases op <;> first | exact fun _ _ => rfl | exact absurd rfl hdiv | exact absurd rfl hpow
        have hencloses : ∀ (child : Expr ν) side, encloses op child side = latexOperandNeedsParens op child side := by
          simp [encloses, hdiv, hpow]
        have hall := (hl.enclosed (encloses op l .left)).append (hsign.append (hr.enclosed (encloses op r .right)))
        rw [glyphs_binary s hdiv hpow]
        simpa [typeset, words, hencloses] using hall
  | unary s op e ih =>
    have he := (ih h).enclosed (enclosesOnly op e)
    cases op with
    | neg =>
      have hsign : ReadsOff [.sign .negative] [mark '-'] := readsOff_sign (by decide) (by decide) (by decide)
      exact hsign.append he
    | factorial =>
      have hsign : ReadsOff [.sign .bang] [mark '!'] := readsOff_sign (by decide) (by decide) (by decide)
      exact he.append hsign
  | derivative s e x ih =>
    intro pending rest
    show (TokenKind.keyword, "derivative") :: mark '(' ::
      readOff ([mark ')', (.keyword, "wrt"), (.name, x)] :: pending) (e.glyphs ++ [.sign .closing] ++ rest) = _
    rw [List.append_assoc, ih h.1]
    simp [typeset, wrap, words, readOff]
  | integral s e x ihe ihx => cases h
  | definiteIntegral s e x a b ihe ihx iha ihb => cases h

variable [Arithmetic ν] [LawfulNumeral ν]

/-- Expressions with the same LaTeX are equal up to parentheses and spans. -/
theorem withoutParens_unspanned_eq_of_latex {e e' : Expr ν} (he : Writable IsPlain e) (he' : Writable IsPlain e')
    (h : e.latex = e'.latex) : e.withoutParens.unspanned = e'.withoutParens.unspanned := by
  have hglyphs : e.glyphs = e'.glyphs := by
    apply (legible_glyphs he).spell_inj (legible_glyphs he')
    rw [spell_glyphs he, spell_glyphs he', h]
  have hwords : e.typeset.words = e'.typeset.words := by
    have hread := readsOff_glyphs he [] []
    rw [hglyphs, readsOff_glyphs he' [] []] at hread
    simpa [readOff] using hread.symm
  have htypeset := Parsing.unspanned_eq_of_words (writable_typeset he) (grouped_typeset he) (writable_typeset he')
    (grouped_typeset he') hwords
  rw [← withoutParens_typeset e, ← withoutParens_typeset e', unspanned_withoutParens, unspanned_withoutParens,
    htypeset]

/-- **LaTeX determines the expression**: expressions with the same LaTeX are the same up to parentheses. -/
theorem withoutParens_same_of_latex {e e' : Expr Float} (he : Writable IsPlain e) (he' : Writable IsPlain e')
    (h : e.latex = e'.latex) : e.withoutParens.same e'.withoutParens = true :=
  same_of_unspanned (withoutParens_unspanned_eq_of_latex he he' h) (same_self he.withoutParens)

/-- A derivative as a factor, with and without parentheses of its own. -/
theorem withoutParens_same_of_latex_factor :
    let quotient : Expr Float := .binary .nowhere .div (.constant .nowhere .e) (.var .nowhere "x_mu")
    let d : Expr Float := .derivative .nowhere quotient "x_mu"
    let e : Expr Float := .binary .nowhere .mul d (.literal .nowhere 2)
    let e' : Expr Float := .binary .nowhere .mul (.paren .nowhere d) (.literal .nowhere 2)
    e.latex = "\\left(\\frac\x7b\\mathrm\x7bd\x7d\x7d\x7b\\mathrm\x7bd\x7dx_\x7b\\mu\x7b\x7d\x7d\x7d\\,\\left(" ++
        "\\frac\x7b\\mathrm\x7be\x7d\x7d\x7bx_\x7b\\mu\x7b\x7d\x7d\x7d\\right)\\right) \\cdot\x7b\x7d 2" ∧
      e'.latex = e.latex ∧ e'.withoutParens.same e.withoutParens = true := by
  intro quotient d e e'
  have hname : IsName "x_mu" := (isName_iff "x_mu").mpr rfl
  have hd : Writable IsPlain d := ⟨⟨Or.inr rfl, hname⟩, hname⟩
  have htwo : Numeral.shape (2 : Float) = .finite false := by decide +kernel
  have h : e'.latex = e.latex := by decide +kernel
  exact ⟨by decide +kernel, h, withoutParens_same_of_latex ⟨hd, htwo⟩ ⟨hd, htwo⟩ h⟩

end Expr

end Formula
