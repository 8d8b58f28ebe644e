import Formula.Proofs.Expr.Written

/-!
# `Formula.Proofs.Expr.Bracketing` — parentheses are where they stand

The words of a tree say where its parentheses are: two trees that are the same without parentheses and have the same
words are the same with them, up to spans. For behind the parentheses that are open at a place the same word has to
come in both trees, so that as many of them are open there; and so many are closed behind an operand as were opened
before it.

## Contents
- `skeleton`, `brackets` — a tree without its parentheses, and the number of the outermost ones.
- `Tells` — the words of a tree, behind parentheses, tell how many these are and what is below them.
- `tells_of_skeleton` — the induction; `unspanned_eq_of_skeleton` — whole trees.
- `filter_words` — the words of a tree apart from the parentheses.
- `grouped_unspanned` — spans have no part in how a tree groups.
-/

namespace Formula.Expr

open Lexis

variable {ν : Type}

/-- A tree without parentheses and spans. -/
def skeleton (e : Expr ν) : Expr ν := e.withoutParens.unspanned

/-- The number of the outermost parentheses. -/
def brackets : Expr ν → Nat
  | paren _ e => e.brackets + 1
  | _ => 0

theorem bare_ne_paren (e : Expr ν) (s : Span) (e' : Expr ν) : e.bare ≠ paren s e' := by
  induction e with
  | paren s₁ e₁ ih => exact ih
  | _ => exact nofun

theorem bare_bare (e : Expr ν) : e.bare.bare = e.bare := by
  induction e with
  | paren s e ih => exact ih
  | _ => rfl

theorem skeleton_bare (e : Expr ν) : e.bare.skeleton = e.skeleton := by
  induction e with
  | paren s e ih => exact ih
  | _ => rfl

theorem Writable.bare {P : ν → Prop} {e : Expr ν} (h : Writable P e) : Writable P e.bare := by
  induction e with
  | paren s e ih => exact ih h
  | _ => exact h

/-- A tree is what is below its outermost parentheses, and so many of them. -/
theorem unspanned_eq_of_bare {a b : Expr ν} (hbare : a.bare.unspanned = b.bare.unspanned)
    (hbrackets : a.brackets = b.brackets) : a.unspanned = b.unspanned := by
  induction a generalizing b with
  | paren s a ih =>
    cases b with
    | paren s' b =>
      simp only [brackets, Nat.add_right_cancel_iff] at hbrackets
      rw [unspanned, unspanned, ih (b := b) hbare hbrackets]
    | _ => cases hbrackets
  | _ =>
    cases b with
    | paren s' b => cases hbrackets
    | _ => exact hbare

variable [Numeral ν]

/-! ## Words behind parentheses -/

/-- Words behind so many opening parentheses. -/
def opened (n : Nat) (ws : List Word) : List Word := List.replicate n (mark '(') ++ ws

/-- Words behind so many closing ones. -/
def closed (n : Nat) (ws : List Word) : List Word := List.replicate n (mark ')') ++ ws

theorem opened_opened (m n : Nat) (ws : List Word) : opened m (opened n ws) = opened (m + n) ws := by
  rw [opened, opened, opened, ← List.append_assoc, ← List.replicate_add]

/-- Where no further one follows, the number of marks is told by the words. -/
theorem replicate_append_inj {w : Word} {xs ys : List Word} (hx : xs.head? ≠ some w) (hy : ys.head? ≠ some w) :
    ∀ {m n : Nat}, List.replicate m w ++ xs = List.replicate n w ++ ys → m = n ∧ xs = ys := by
  intro m
  induction m with
  | zero =>
    intro n h
    cases n with
    | zero => exact ⟨rfl, h⟩
    | succ n =>
      rw [List.replicate_zero, List.nil_append] at h
      exact absurd (by rw [h]; rfl) hx
  | succ m ih =>
    intro n h
    cases n with
    | zero =>
      rw [List.replicate_zero, List.nil_append] at h
      exact absurd (by rw [← h]; rfl) hy
    | succ n =>
      obtain ⟨hmn, hxy⟩ := ih (List.cons.inj h).2
      exact ⟨congrArg (· + 1) hmn, hxy⟩

/-- The words of a tree are those below its outermost parentheses, and these. -/
theorem words_append (e : Expr ν) (ws : List Word) :
    e.words ++ ws = opened e.brackets (e.bare.words ++ closed e.brackets ws) := by
  induction e generalizing ws with
  | paren s e ih =>
    have hclose : [mark ')'] ++ ws = closed 1 ws := rfl
    rw [words, List.cons_append, List.append_assoc, ih, hclose, closed, closed, closed, ← List.append_assoc
      (List.replicate _ _), ← List.replicate_add, brackets, bare, opened, opened]
    rfl
  | _ => rfl

/-- A writable tree has words, and the first one closes no parenthesis. -/
theorem head_words {P : ν → Prop} {e : Expr ν} (h : Writable P e) (ws : List Word) :
    (e.words ++ ws).head? ≠ some (mark ')') := by
  induction e generalizing ws with
  | paren s e ih => simp [words, mark]
  | constant s c => simp [words, mark]
  | imaginary s => cases h
  | var s x => simp [words, mark]
  | literal s v => simp [words, mark]
  | binary s op l r ihl ihr =>
    rw [words, List.append_assoc]
    exact ihl h.1 _
  | unary s op e ih =>
    cases op with
    | neg => simp [words, mark]
    | factorial =>
      rw [words, List.append_assoc]
      exact ih h _
  | derivative s e x ih => simp [words, mark]
  | integral s e x ihe ihx => cases h
  | definiteIntegral s e x a b ihe ihx iha ihb => cases h

/-! ## The induction -/

/-- **What the words of two trees tell** that are the same without parentheses: where they come behind opening
    parentheses, how many these are, what is below the trees' own, and what follows. -/
def Tells (a b : Expr ν) : Prop := ∀ m n ws vs, opened m (a.bare.words ++ ws) = opened n (b.bare.words ++ vs) →
  m = n ∧ a.bare.unspanned = b.bare.unspanned ∧ ws = vs

/-- An operand behind parentheses, with something behind it that closes none. -/
theorem Tells.left {a b : Expr ν} (h : Tells a b) {m n : Nat} {ws vs : List Word} (hws : ws.head? ≠ some (mark ')'))
    (hvs : vs.head? ≠ some (mark ')')) (heq : opened m (a.words ++ ws) = opened n (b.words ++ vs)) :
    m = n ∧ a.unspanned = b.unspanned ∧ ws = vs := by
  rw [words_append a, words_append b, opened_opened, opened_opened] at heq
  obtain ⟨hcount, hbare, hclosed⟩ := h _ _ _ _ heq
  obtain ⟨hbrackets, hrest⟩ := replicate_append_inj hws hvs hclosed
  exact ⟨by omega, unspanned_eq_of_bare hbare hbrackets, hrest⟩

/-- An operand behind no parentheses of other trees. -/
theorem Tells.right {a b : Expr ν} (h : Tells a b) {ws vs : List Word} (heq : a.words ++ ws = b.words ++ vs) :
    a.unspanned = b.unspanned ∧ ws = vs := by
  rw [words_append a, words_append b] at heq
  obtain ⟨hbrackets, hbare, hclosed⟩ := h _ _ _ _ heq
  rw [hbrackets] at hclosed
  exact ⟨unspanned_eq_of_bare hbare hbrackets, List.append_cancel_left hclosed⟩

/-- A first word that opens no parenthesis ends those before it. -/
theorem opened_cons_inj {v w : Word} (hv : v ≠ mark '(') (hw : w ≠ mark '(') {m n : Nat} {vs ws : List Word}
    (h : opened m (v :: vs) = opened n (w :: ws)) : m = n ∧ vs = ws := by
  have hhead {u : Word} (hu : u ≠ mark '(') (us : List Word) : (u :: us).head? ≠ some (mark '(') :=
    fun heq => hu (Option.some.inj heq)
  obtain ⟨hmn, hcons⟩ := replicate_append_inj (hhead hv vs) (hhead hw ws) h
  exact ⟨hmn, (List.cons.inj hcons).2⟩

/-- Trees of one word each, below their parentheses. -/
theorem tells_of_word {a b : Expr ν} {v w : Word} (ha : a.bare.words = [v]) (hb : b.bare.words = [w])
    (hv : v ≠ mark '(') (hw : w ≠ mark '(') (hbare : a.bare.unspanned = b.bare.unspanned) : Tells a b := by
  intro m n ws vs heq
  rw [ha, hb] at heq
  obtain ⟨hmn, hrest⟩ := opened_cons_inj hv hw heq
  exact ⟨hmn, hbare, hrest⟩

/-- What is to be told of another tree is told of what is below its outermost parentheses. -/
theorem tells_of_bare {P : ν → Prop} {a : Expr ν}
    (h : ∀ b, (∀ s e, b ≠ paren s e) → Writable P b → a.skeleton = b.skeleton → Tells a b) :
    ∀ b, Writable P b → a.skeleton = b.skeleton → Tells a b := by
  intro b hb hskeleton
  have hbare := h b.bare (bare_ne_paren b) hb.bare (hskeleton.trans (skeleton_bare b).symm)
  rwa [Tells, bare_bare] at hbare

/-- **The words of a tree tell where its parentheses are**, by induction on the tree. -/
theorem tells_of_skeleton {P : ν → Prop} {a : Expr ν} (ha : Writable P a) :
    ∀ b, Writable P b → a.skeleton = b.skeleton → Tells a b := by
  induction a with
  | paren s a ih => exact ih ha
  | constant s c =>
    refine tells_of_bare fun b hbare _ h => ?_
    cases b with
    | paren s' e => exact absurd rfl (hbare s' e)
    | constant s' c' => exact tells_of_word rfl rfl (by simp [mark]) (by simp [mark]) h
    | _ => cases h
  | imaginary s => cases ha
  | var s x =>
    refine tells_of_bare fun b hbare _ h => ?_
    cases b with
    | paren s' e => exact absurd rfl (hbare s' e)
    | var s' x' => exact tells_of_word rfl rfl (by simp [mark]) (by simp [mark]) h
    | _ => cases h
  | literal s v =>
    refine tells_of_bare fun b hbare _ h => ?_
    cases b with
    | paren s' e => exact absurd rfl (hbare s' e)
    | literal s' v' => exact tells_of_word rfl rfl (by simp [mark]) (by simp [mark]) h
    | _ => cases h
  | binary s op l r ihl ihr =>
    refine tells_of_bare fun b hbare hb h => ?_
    cases b with
    | paren s' e => exact absurd rfl (hbare s' e)
    | binary s' op' l' r' =>
      intro m n ws vs heq
      obtain ⟨-, rfl, hl, hr⟩ := binary.inj h
      simp only [bare, words, List.append_assoc] at heq
      -- behind the left operand the operator comes, or the right one
      have hnext {r : Expr ν} (hr : Writable P r) (us : List Word) :
          (operatorWords op ++ (r.words ++ us)).head? ≠ some (mark ')') := by
        cases op with
        | juxtapose => exact head_words hr us
        | _ => simp [operatorWords, mark, BinaryOp.symbol]
      obtain ⟨hmn, hleft, hrest⟩ := (ihl ha.1 l' hb.1 hl).left (hnext ha.2 ws) (hnext hb.2 vs) heq
      obtain ⟨hright, hws⟩ := (ihr ha.2 r' hb.2 hr).right (List.append_cancel_left hrest)
      exact ⟨hmn, congrArg₂ (binary .nowhere op) hleft hright, hws⟩
    | _ => cases h
  | unary s op e ih =>
    refine tells_of_bare fun b hbare hb h => ?_
    cases b with
    | paren s' e' => exact absurd rfl (hbare s' e')
    | unary s' op' e' =>
      intro m n ws vs heq
      obtain ⟨-, rfl, he⟩ := unary.inj h
      cases op with
      | neg =>
        obtain ⟨hmn, hrest⟩ := opened_cons_inj (by simp [mark]) (by simp [mark]) heq
        obtain ⟨hoperand, hws⟩ := (ih ha e' hb he).right hrest
        exact ⟨hmn, congrArg (unary .nowhere .neg) hoperand, hws⟩
      | factorial =>
        simp only [bare, words, List.append_assoc] at heq
        obtain ⟨hmn, hoperand, hrest⟩ := (ih ha e' hb he).left (by simp [mark]) (by simp [mark]) heq
        exact ⟨hmn, congrArg (unary .nowhere .factorial) hoperand, (List.cons.inj hrest).2⟩
    | _ => cases h
  | derivative s e x ih =>
    refine tells_of_bare fun b hbare hb h => ?_
    cases b with
    | paren s' e' => exact absurd rfl (hbare s' e')
    | derivative s' e' x' =>
      intro m n ws vs heq
      obtain ⟨-, he, rfl⟩ := derivative.inj h
      simp only [bare, words, List.cons_append, List.append_assoc] at heq
      obtain ⟨hmn, hrest⟩ := opened_cons_inj (by simp [mark]) (by simp [mark]) heq
      obtain ⟨hoperand, hws⟩ := (ih ha.1 e' hb.1 he).right hrest
      exact ⟨hmn, congrArg (derivative .nowhere · x) hoperand, (List.cons.inj (List.cons.inj hws).2).2⟩
    | _ => cases h
  | integral s e x ihe ihx => cases ha
  | definiteIntegral s e x a b ihe ihx iha ihb => cases ha

/-- **Trees that are the same without parentheses and have the same words are the same**, up to spans. -/
theorem unspanned_eq_of_skeleton {P : ν → Prop} {a b : Expr ν} (ha : Writable P a) (hb : Writable P b)
    (hskeleton : a.skeleton = b.skeleton) (hwords : a.words = b.words) : a.unspanned = b.unspanned := by
  have hnil : a.words ++ [] = b.words ++ [] := by rw [hwords]
  exact ((tells_of_skeleton ha b hb hskeleton).right hnil).1

/-! ## Words apart from the parentheses -/

/-- Whether a word is no parenthesis. -/
def IsNoBracket (w : Word) : Bool := w != mark '(' && w != mark ')'

/-- **Apart from the parentheses a tree has the words that it has without them.** -/
theorem filter_words (e : Expr ν) : e.words.filter IsNoBracket = e.skeleton.words := by
  induction e with
  | binary s op l r ihl ihr =>
    have hop : (operatorWords op).filter IsNoBracket = operatorWords op := by cases op <;> decide
    rw [words, List.filter_append, List.filter_append, ihl, ihr, hop]
    rfl
  | paren s e ih =>
    have hopen : IsNoBracket (mark '(') = false := by decide
    have hclose : IsNoBracket (mark ')') = false := by decide
    rw [words, List.filter_cons_of_neg (by rw [hopen]; simp), List.filter_append, ih,
      List.filter_cons_of_neg (by rw [hclose]; simp), List.filter_nil, List.append_nil]
    rfl
  | unary s op e ih =>
    cases op with
    | neg =>
      rw [words, List.filter_cons_of_pos (by decide), ih]
      rfl
    | factorial =>
      rw [words, List.filter_append, ih, List.filter_cons_of_pos (by decide)]
      rfl
  | derivative s e x ih =>
    rw [words, List.filter_cons_of_pos (by decide), List.filter_append, ih, List.filter_cons_of_pos (by decide),
      List.filter_cons_of_pos (by simp [IsNoBracket, mark])]
    rfl
  | constant s c => exact List.filter_cons_of_pos (by simp [IsNoBracket, mark])
  | var s x => exact List.filter_cons_of_pos (by simp [IsNoBracket, mark])
  | literal s v => exact List.filter_cons_of_pos (by simp [IsNoBracket, mark])
  | _ => rfl

/-! ## Spans -/

omit [Numeral ν] in
theorem closes_unspanned (p : Nat) (e : Expr ν) : Closes p e.unspanned ↔ Closes p e := by
  induction e with
  | binary s op l r ihl ihr => exact and_congr_right fun _ => ihr
  | unary s op e ih =>
    cases op with
    | neg => exact and_congr_right fun _ => ih
    | factorial => exact Iff.rfl
  | _ => exact Iff.rfl

omit [Numeral ν] in
theorem fits_unspanned (m : Nat) (e : Expr ν) : Fits m e.unspanned ↔ Fits m e := by
  cases e <;> exact Iff.rfl

omit [Numeral ν] in
theorem startsTight_unspanned (e : Expr ν) : StartsTight e.unspanned ↔ StartsTight e := by
  induction e with
  | binary s op l r ihl ihr => exact ihl
  | unary s op e ih =>
    cases op with
    | neg => exact Iff.rfl
    | factorial => exact ih
  | _ => exact Iff.rfl

omit [Numeral ν] in
/-- **How a tree groups is not a matter of spans.** -/
theorem grouped_unspanned (e : Expr ν) : Grouped e.unspanned ↔ Grouped e := by
  induction e with
  | paren s e ih => exact ih
  | binary s op l r ihl ihr =>
    exact and_congr (and_congr ihl (closes_unspanned _ l))
      (and_congr ihr (and_congr (fits_unspanned _ r) (imp_congr_right fun _ => startsTight_unspanned r)))
  | unary s op e ih =>
    cases op with
    | neg => exact and_congr ih (fits_unspanned _ e)
    | factorial => exact and_congr ih (closes_unspanned _ e)
  | derivative s e x ih => exact ih
  | integral s e x ihe ihx => exact and_congr ihe ihx
  | definiteIntegral s e x a b ihe ihx iha ihb => exact and_congr ihe (and_congr ihx (and_congr iha ihb))
  | _ => exact Iff.rfl

end Formula.Expr
