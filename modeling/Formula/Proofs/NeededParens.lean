import Formula.Proofs.Expr.Bracketing
import Formula.Proofs.Respelling

/-!
# `Formula.Proofs.NeededParens` — only necessary parentheses are put in

Each pair of parentheses that the input form puts around an operand is needed: without it the text is not read as the
same expression. For the text without the pair spells the words of the tree without the pair. A tree with these words
that is the same apart from parentheses can only be that very tree; but that tree is not grouped, since the rule for
parentheses asks for a pair just where the tree would not group without it, and whatever is read is grouped.

## Contents
- `Slot`, `AddsPair` — the operands of a tree in its input form, and the pairs that are put around them.
- `Refill` — another tree in the place of an operand; `AddsPair.exists_without` — the tree without a pair.
- `words_eq_of_skeleton` — a text that names every variable is read without a word put in.
- `AddsPair.skeleton_ne` — leaving a pair out; `same_eq_false_of_addsPair` — the same for doubles.
-/

namespace Formula

open Lexis Formula.Expr Parsing

namespace Expr

variable {ν : Type} [Numeral ν]

/-! ## Pairs of parentheses -/

/-- What opens a pair of parentheses, where it is wanted. -/
def openParen (wanted : Bool) : String := if wanted then "(" else ""

/-- And what closes it. -/
def closeParen (wanted : Bool) : String := if wanted then ")" else ""

/-- **A child in the input form of a tree**: what stands before it, whether it is put in parentheses, and what stands
    behind it. -/
inductive Slot : Expr ν → String → Bool → Expr ν → String → Prop where
  | paren (s c) : Slot (paren s c) "(" false c ")"
  | left (s op c r) : Slot (binary s op c r) "" (operandNeedsParens op c .left) c
      (separator op ++ parenthesized (operandNeedsParens op r .right) r.inputForm)
  | right (s op l c) : Slot (binary s op l c)
      (parenthesized (operandNeedsParens op l .left) l.inputForm ++ separator op) (operandNeedsParens op c .right) c ""
  | neg (s c) : Slot (unary s .neg c) "-" (needsParens UnaryOp.neg.binding c .right) c ""
  | factorial (s c) : Slot (unary s .factorial c) "" (needsParens UnaryOp.factorial.binding c .left) c "!"
  | derivative (s c x) : Slot (derivative s c x) "derivative " false c (" wrt " ++ x)

/-- **A pair of parentheses that the input form of a tree puts around an operand**, with the text before the pair,
    within it and behind it. -/
inductive AddsPair : Expr ν → String → String → String → Prop where
  | here {e c : Expr ν} {pre post} : Slot e pre true c post → AddsPair e pre c.inputForm post
  | deeper {e c : Expr ν} {pre wanted post before inner after} : Slot e pre wanted c post →
      AddsPair c before inner after →
      AddsPair e (pre ++ openParen wanted ++ before) inner (after ++ closeParen wanted ++ post)

theorem parenthesized_eq (wanted : Bool) (text : String) :
    parenthesized wanted text = openParen wanted ++ text ++ closeParen wanted := by
  cases wanted <;> simp [parenthesized, openParen, closeParen]

theorem Slot.inputForm {e c : Expr ν} {pre post : String} {wanted : Bool} (h : Slot e pre wanted c post) :
    e.inputForm = pre ++ parenthesized wanted c.inputForm ++ post := by
  cases h with
  | paren s e => rfl
  | left s op l r => rw [inputForm_binary, String.empty_append, String.append_assoc]
  | right s op l r => rw [inputForm_binary, String.append_empty]
  | neg s e => rw [inputForm_neg, String.append_empty]
  | factorial s e => rw [inputForm_factorial, String.empty_append]
  | derivative s e x =>
    rw [← String.append_assoc]
    rfl

/-- The pair stands in the input form. -/
theorem AddsPair.inputForm {e : Expr ν} {before inner after : String} (h : AddsPair e before inner after) :
    e.inputForm = before ++ "(" ++ inner ++ ")" ++ after := by
  induction h with
  | here hslot => simp only [hslot.inputForm, parenthesized, if_true, String.append_assoc]
  | deeper hslot _ ih => simp only [hslot.inputForm, ih, parenthesized_eq, String.append_assoc]

theorem Slot.writable {P : ν → Prop} {e c : Expr ν} {pre post : String} {wanted : Bool} (h : Slot e pre wanted c post)
    (he : Writable P e) : Writable P c := by
  cases h with
  | paren s e => exact he
  | left s op l r => exact he.1
  | right s op l r => exact he.2
  | neg s e => exact he
  | factorial s e => exact he
  | derivative s e x => exact he.1

/-! ## Another tree in the place of a child -/

/-- **Refilling a slot**: the written tree with another tree in the place of the child. Its words are those of the text,
    and it groups only if the tree does; nor does it group if the child stands there without the parentheses that are
    wanted. -/
structure Refill [Arithmetic ν] (e : Expr ν) (pre : String) (wanted : Bool) (c : Expr ν) (post : String)
    (fill : Expr ν → Expr ν) : Prop where
  written : e.written = fill (wrap wanted c.written)
  spells : ∀ {t : Expr ν} {cs}, Spells cs t.words → Spells (pre.toList ++ cs ++ post.toList) (fill t).words
  writable : ∀ {t}, Writable IsPlain t → Writable IsPlain (fill t)
  withoutParens : ∀ {t t'}, t.withoutParens = t'.withoutParens → (fill t).withoutParens = (fill t').withoutParens
  grouped : ∀ {t}, Grouped (fill t) → Grouped t
  wanted : wanted = true → ¬ Grouped (fill c.written)

variable [Arithmetic ν] [LawfulNumeral ν]

omit [LawfulNumeral ν] in
/-- Where the written tree starts tight, the input form does. -/
theorem startsLoose_eq_false_of_written {e : Expr ν} (h : Writable IsPlain e) (ht : StartsTight e.written) :
    e.startsLoose = false := by
  induction e with
  | literal s v =>
    rw [startsLoose, show Numeral.shape v = .finite false from h]
    rfl
  | binary s op l r ihl ihr =>
    change StartsTight (wrap (operandNeedsParens op l .left) l.written) at ht
    rw [operandNeedsParens_left] at ht
    rw [startsLoose]
    cases hn : needsParens op.binding l .left with
    | true => rfl
    | false =>
      rw [hn] at ht
      rw [ihl h.1 ht, Bool.and_false]
  | unary s op e ih =>
    cases op with
    | neg => cases ht
    | factorial =>
      change StartsTight (wrap (needsParens UnaryOp.factorial.binding e .left) e.written) at ht
      rw [startsLoose]
      cases hn : needsParens UnaryOp.factorial.binding e .left with
      | true => rfl
      | false =>
        rw [hn] at ht
        rw [ih h ht, Bool.and_false]
  | derivative s e x ih => cases ht
  | integral s e x ihe ihx => cases h
  | definiteIntegral s e x a b ihe ihx iha ihb => cases h
  | _ => rfl

omit [LawfulNumeral ν] in
/-- A left operand that is closed to its parent needs no parentheses. -/
theorem needsParens_of_closes {parent : Operator} (hparent : parent ≠ .unary .neg) {e : Expr ν}
    (h : Closes parent.binding.precedence e.written) : needsParens parent.binding e .left = false := by
  rw [needsParens_left_iff hparent, ← binding?_written]
  exact h.root

omit [LawfulNumeral ν] in
/-- Nor does a right operand that fits. -/
theorem needsParens_of_fits {parent : Operator} (hparent : parent ≠ .unary .factorial) {e : Expr ν}
    (h : Fits parent.binding.threshold e.written) : needsParens parent.binding e .right = false := by
  rw [needsParens_right_iff hparent, ← binding?_written]
  exact h

/-- **Every slot can be refilled.** -/
theorem Slot.exists_refill {e c : Expr ν} {pre post : String} {wanted : Bool} (h : Slot e pre wanted c post)
    (he : Writable IsPlain e) : ∃ fill, Refill e pre wanted c post fill := by
  cases h with
  | paren s c =>
    refine ⟨.paren s, rfl, fun {t cs} ht => ?_, id, id, id, fun hwanted => absurd hwanted Bool.false_ne_true⟩
    rw [List.append_assoc]
    exact Spells.symbol (by decide) (ht.append (delimited_close []) (Spells.symbol (c := ')') (by decide) .nil))
  | left s op c r =>
    have hr := spells_parenthesized (spells_inputForm (he.2.mono fun _ _ => trivial)) (operandNeedsParens op r .right)
    refine ⟨fun t => .binary s op t (wrap (operandNeedsParens op r .right) r.written), rfl, fun {t cs} ht => ?_,
      fun ht => ⟨ht, writable_wrap (writable_written (he.2.mono fun _ _ => trivial)) _⟩,
      fun ht => by rw [Expr.withoutParens, Expr.withoutParens, ht], fun hg => hg.1.1, fun hwanted hg => ?_⟩
    · rw [String.toList_append]
      exact ht.append (delimited_separator op _) (spells_separator op hr)
    · have hnone : needsParens op.binding c .left = false :=
        needsParens_of_closes (show Operator.binary op ≠ .unary .neg by simp) hg.1.2
      rw [operandNeedsParens_left, hnone] at hwanted
      cases hwanted
  | right s op l c =>
    have hl := spells_parenthesized (spells_inputForm (he.1.mono fun _ _ => trivial)) (operandNeedsParens op l .left)
    refine ⟨fun t => .binary s op (wrap (operandNeedsParens op l .left) l.written) t, rfl, fun {t cs} ht => ?_,
      fun ht => ⟨writable_wrap (writable_written (he.1.mono fun _ _ => trivial)) _, ht⟩,
      fun ht => by rw [Expr.withoutParens, Expr.withoutParens, ht], fun hg => hg.2.1, fun hwanted hg => ?_⟩
    · rw [String.toList_append, String.toList_empty, List.append_nil, List.append_assoc]
      exact hl.append (delimited_separator op _) (spells_separator op ht)
    · obtain ⟨-, -, hfits, htight⟩ := hg
      have hnone : needsParens op.binding c .right = false :=
        needsParens_of_fits (show Operator.binary op ≠ .unary .factorial by simp) hfits
      rw [operandNeedsParens, hnone, Bool.false_or] at hwanted
      simp only [Bool.and_eq_true, beq_iff_eq] at hwanted
      -- the pair is wanted only because a factor could not begin like this
      rw [startsLoose_eq_false_of_written he.2 (htight hwanted.1.1)] at hwanted
      cases hwanted.2
  | neg s c =>
    refine ⟨.unary s .neg, rfl, fun {t cs} ht => ?_, id, fun ht => by rw [Expr.withoutParens, Expr.withoutParens, ht],
      fun hg => hg.1, fun hwanted hg => ?_⟩
    · rw [String.toList_empty, List.append_nil]
      exact Spells.symbol (by decide) ht
    · have hnone : needsParens UnaryOp.neg.binding c .right = false :=
        needsParens_of_fits (show Operator.unary .neg ≠ .unary .factorial by simp) hg.2
      rw [hnone] at hwanted
      cases hwanted
  | factorial s c =>
    refine ⟨.unary s .factorial, rfl, fun {t cs} ht => ?_, id,
      fun ht => by rw [Expr.withoutParens, Expr.withoutParens, ht], fun hg => hg.1, fun hwanted hg => ?_⟩
    · exact ht.append (delimited_bang []) (Spells.symbol (by decide) .nil)
    · have hnone : needsParens UnaryOp.factorial.binding c .left = false :=
        needsParens_of_closes (show Operator.unary .factorial ≠ .unary .neg by simp) hg.2
      rw [hnone] at hwanted
      cases hwanted
  | derivative s c x =>
    refine ⟨fun t => .derivative s t x, rfl, fun {t cs} ht => ?_, fun ht => ⟨ht, he.2⟩,
      fun ht => by rw [Expr.withoutParens, Expr.withoutParens, ht], id,
      fun hwanted => absurd hwanted Bool.false_ne_true⟩
    have hname := ((isName_iff x).mp he.2).spells
    have hwrt : IsWord .keyword "wrt" := rfl
    have hderivative : IsWord .keyword "derivative" := rfl
    have htail := ht.append (delimited_blank _) (Spells.blank (hwrt.spells.append (delimited_blank _)
      (Spells.blank hname)))
    rw [String.toList_append, List.append_assoc]
    exact hderivative.spells.append (delimited_blank _) (Spells.blank htail)

/-- **The tree without a pair**: the text without the pair spells its words, it is the same apart from parentheses,
    and it is not grouped. -/
theorem AddsPair.exists_without {e : Expr ν} {before inner after : String} (h : AddsPair e before inner after)
    (he : Writable IsPlain e) : ∃ e', Writable IsPlain e' ∧ Spells (before ++ inner ++ after).toList e'.words ∧
      e'.withoutParens = e.withoutParens ∧ ¬ Grouped e' := by
  induction h with
  | @here e c pre post hslot =>
    obtain ⟨fill, hfill⟩ := hslot.exists_refill he
    have hc := (hslot.writable he).mono (Q := fun _ => True) fun _ _ => trivial
    refine ⟨fill c.written, hfill.writable (writable_written hc), ?_, ?_, hfill.wanted rfl⟩
    · rw [String.toList_append, String.toList_append]
      exact hfill.spells (spells_inputForm hc)
    · rw [← withoutParens_written he, hfill.written]
      exact hfill.withoutParens (withoutParens_wrap true _).symm
  | @deeper e c pre wanted post before inner after hslot _ ih =>
    obtain ⟨fill, hfill⟩ := hslot.exists_refill he
    have hc := hslot.writable he
    obtain ⟨c', hc', hspells, hsame, hgrouped⟩ := ih hc
    refine ⟨fill (wrap wanted c'), hfill.writable (writable_wrap hc' _), ?_, ?_, fun hg => hgrouped ?_⟩
    · have htext := hfill.spells (spells_parenthesized hspells wanted)
      rw [parenthesized_eq] at htext
      simpa only [String.toList_append, List.append_assoc] using htext
    · rw [← withoutParens_written he, hfill.written]
      refine hfill.withoutParens ?_
      rw [withoutParens_wrap, withoutParens_wrap, hsame, withoutParens_written hc]
    · have hwrap := hfill.grouped hg
      cases wanted <;> exact hwrap

/-! ## Nothing is supplied -/

omit [Numeral ν] [LawfulNumeral ν] [Arithmetic ν] in
theorem isNoBracket_of_mem_suppliedAt {e : Expr ν} {o : Nat} {w : Word} (h : w ∈ e.suppliedAt o) :
    IsNoBracket w = true := by
  induction e with
  | paren s e ih => exact ih h
  | binary s op l r ihl ihr => exact (List.mem_append.mp h).elim ihl ihr
  | unary s op e ih => exact ih h
  | derivative s e x ih =>
    rcases List.mem_append.mp h with h | h
    · exact ih h
    · split at h
      · rcases List.mem_pair.mp h with rfl | rfl <;> simp [IsNoBracket, mark]
      · cases h
  | integral s e x ihe ihx => exact (List.mem_append.mp h).elim ihe ihx
  | definiteIntegral s e x a b ihe ihx iha ihb =>
    exact (List.mem_append.mp h).elim
      (fun h => (List.mem_append.mp h).elim (fun h => (List.mem_append.mp h).elim ihe ihx) iha) ihb
  | _ => cases h

/-- The words of a tree are written down as they are. -/
theorem respelled_of_mem_words {e : Expr ν} (h : Writable IsPlain e) {t : Token} (ht : t.word ∈ e.words) :
    respelled ν t = t.word := by
  have hsymbol {text : String} (hword : t.word = (.symbol, text)) : respelled ν t = t.word :=
    (respelled_of_symbol hword).trans hword.symm
  have hname {x : String} (hword : t.word = (.name, x)) : respelled ν t = t.word :=
    (respelled_of_name (Prod.mk.inj hword).1).trans (by rw [hword, (Prod.mk.inj hword).2])
  have hkeyword {text : String} (hlower : text.toList.map Char.toLower = text.toList)
      (hword : t.word = (.keyword, text)) : respelled ν t = t.word := by
    obtain ⟨hkind, rfl⟩ := Prod.mk.inj hword
    rw [respelled, hkind, hword, hlower, String.ofList_toList]
  induction e with
  | paren s e ih =>
    simp only [words, List.mem_cons, List.mem_append, List.not_mem_nil, or_false] at ht
    rcases ht with hopen | ht | hclose
    · exact hsymbol hopen
    · exact ih h ht
    · exact hsymbol hclose
  | constant s c =>
    obtain ⟨hkind, -⟩ := Prod.mk.inj (List.mem_singleton.mp ht)
    rw [respelled, hkind]
  | imaginary s => cases ht
  | var s x => exact hname (List.mem_singleton.mp ht)
  | literal s v =>
    obtain ⟨hkind, htext⟩ := Prod.mk.inj (List.mem_singleton.mp ht)
    rw [respelled_of_number hkind (by rw [htext, LawfulNumeral.read_digits h]), List.mem_singleton.mp ht]
  | binary s op l r ihl ihr =>
    simp only [words, List.mem_append] at ht
    rcases ht with ht | ht | ht
    · exact ihl h.1 ht
    · cases op with
      | juxtapose => cases ht
      | _ => exact hsymbol (List.mem_singleton.mp ht)
    · exact ihr h.2 ht
  | unary s op e ih =>
    cases op with
    | neg => exact (List.mem_cons.mp ht).elim hsymbol (ih h)
    | factorial => exact (List.mem_append.mp ht).elim (ih h) fun ht => hsymbol (List.mem_singleton.mp ht)
  | derivative s e x ih =>
    simp only [words, List.mem_cons, List.mem_append, List.not_mem_nil, or_false] at ht
    rcases ht with hderivative | ht | hwrt | hx
    · exact hkeyword rfl hderivative
    · exact ih h.1 ht
    · exact hkeyword rfl hwrt
    · exact hname hx
  | integral s e x ihe ihx => cases h
  | definiteIntegral s e x a b ihe ihx iha ihb => cases h

omit [Numeral ν] [LawfulNumeral ν] [Arithmetic ν] in
/-- What is put in between is counted on top. -/
theorem countP_flatMap_cons {α β : Type} {q : β → Bool} (f : α → β) (g : α → List β)
    (hg : ∀ a, ∀ b ∈ g a, q b = true) (us : List α) :
    (us.flatMap fun a => f a :: g a).countP q = (us.map f).countP q + (us.flatMap g).length := by
  induction us with
  | nil => rfl
  | cons a us ih =>
    have hall : (g a).countP q = (g a).length := List.countP_eq_length.mpr (hg a)
    simp only [List.flatMap_cons, List.map_cons, List.countP_cons, List.countP_append, List.cons_append,
      List.length_append, ih, hall]
    omega

/-- **Nothing is supplied** where a text spells all the words of a tree and the tree that is read is the same without
    parentheses: both have as many words apart from these. -/
theorem words_eq_of_skeleton {text : String} {us : List Token} (hus : tokensOf text = .ok us) {e p : Expr ν}
    (he : Writable IsPlain e) (hwords : us.map Token.word = e.words) (hp : parseAll Grammar.standard us = .ok p)
    (hskeleton : p.skeleton = e.skeleton) : p.words = e.words := by
  have hread : p.words = us.flatMap fun t => t.word :: p.suppliedAt t.span.stop := by
    rw [(composes_of_parseAll hp).words_eq (genuine_of_tokensOf hus) (stands_of_tokensOf hus).inOrder]
    refine List.flatMap_congr fun t ht => ?_
    rw [wordsAt, respelled_of_mem_words he (hwords ▸ List.mem_map_of_mem ht)]
  have hcount : p.words.countP IsNoBracket = (us.map Token.word).countP IsNoBracket := by
    rw [List.countP_eq_length_filter, List.countP_eq_length_filter, hwords, filter_words, filter_words, hskeleton]
  rw [hread, countP_flatMap_cons _ _ fun t w => isNoBracket_of_mem_suppliedAt] at hcount
  have hnone : us.flatMap (fun t => p.suppliedAt t.span.stop) = [] := List.length_eq_zero_iff.mp (by omega)
  rw [hread, ← hwords, List.map_eq_flatMap]
  refine List.flatMap_congr fun t ht => ?_
  rw [List.flatMap_eq_nil_iff.mp hnone t ht]

/-- **Without a pair another tree is read**, if any is, and not just for its parentheses and spans. -/
theorem AddsPair.skeleton_ne {e : Expr ν} {before inner after : String} (h : AddsPair e before inner after)
    (he : Writable IsPlain e) {p : Expr ν} (hp : parseText (before ++ inner ++ after) = .ok p) :
    p.skeleton ≠ e.skeleton := by
  intro hskeleton
  obtain ⟨e', he', hspells, hsame, hgrouped⟩ := h.exists_without he
  obtain ⟨us, hus, hwords⟩ := (exists_tokensOf_iff _ e'.words).mpr hspells
  obtain ⟨us', hus', hparse⟩ := exists_tokens_of_parseText hp
  obtain rfl : us' = us := Except.ok.inj (hus'.symm.trans hus)
  obtain ⟨hwritable, hread, -⟩ := parsed_of_parseAll (genuine_of_tokensOf hus) hparse
  have hskeleton' : p.skeleton = e'.skeleton := by rw [hskeleton, skeleton, skeleton, hsame]
  -- the tree that is read can only be the one without the pair, which is not grouped
  have hunspanned := unspanned_eq_of_skeleton hwritable he' hskeleton'
    (words_eq_of_skeleton hus he' hwords hparse hskeleton')
  apply hgrouped
  rw [← grouped_unspanned, ← hunspanned, grouped_unspanned]
  exact hread

/-! ## Trees over the doubles -/

/-- Literals without a sign that are equal are the same double. -/
theorem eq_of_beq_of_isPlain {v w : Float} (hv : IsPlain v) (hw : IsPlain w) (h : (v == w) = true) : v = w := by
  have hzero : Numeral.shape (-0 : Float) ≠ .finite false := by decide +kernel
  obtain ⟨-, -, heq | ⟨-, rfl⟩ | ⟨rfl, -⟩⟩ := Float.beq_iff_ne_nan_and_eq.mp h
  · exact heq
  · exact absurd hw hzero
  · exact absurd hv hzero

theorem constant_eq_of_same {c d : Constant} (hc : c = .pi ∨ c = .e) (hd : d = .pi ∨ d = .e) (h : c.same d = true) :
    c = d := by
  rcases hc with rfl | rfl <;> rcases hd with rfl | rfl <;> first | rfl | cases h

/-- Trees of the input language that are the same are so up to spans. -/
theorem unspanned_eq_of_same {a b : Expr Float} (ha : Writable IsPlain a) (hb : Writable IsPlain b)
    (h : a.same b = true) : a.unspanned = b.unspanned := by
  induction a generalizing b with
  | paren s a ih =>
    cases b with
    | paren s' b => rw [unspanned, unspanned, ih (b := b) ha hb h]
    | _ => cases h
  | constant s c =>
    cases b with
    | constant s' d => rw [unspanned, unspanned, constant_eq_of_same ha hb h]
    | _ => cases h
  | imaginary s => cases ha
  | var s x =>
    cases b with
    | var s' y => rw [unspanned, unspanned, beq_iff_eq.mp h]
    | _ => cases h
  | literal s v =>
    cases b with
    | literal s' w => rw [unspanned, unspanned, eq_of_beq_of_isPlain ha hb h]
    | _ => cases h
  | binary s op l r ihl ihr =>
    cases b with
    | binary s' op' l' r' =>
      simp only [same, Bool.and_eq_true, beq_iff_eq] at h
      rw [unspanned, unspanned, h.1.1, ihl ha.1 hb.1 h.1.2, ihr ha.2 hb.2 h.2]
    | _ => cases h
  | unary s op a ih =>
    cases b with
    | unary s' op' b =>
      simp only [same, Bool.and_eq_true, beq_iff_eq] at h
      rw [unspanned, unspanned, h.1, ih (b := b) ha hb h.2]
    | _ => cases h
  | derivative s a x ih =>
    cases b with
    | derivative s' b y =>
      simp only [same, Bool.and_eq_true, beq_iff_eq] at h
      rw [unspanned, unspanned, h.2, ih (b := b) ha.1 hb.1 h.1]
    | _ => cases h
  | integral s e x ihe ihx => cases ha
  | definiteIntegral s e x a b ihe ihx iha ihb => cases ha

/-- **Only necessary parentheses are put in**: a pair that the input form puts around an operand stands in it, and
    what is left of the input form without this pair is refused, or read as a tree that is another one apart from
    parentheses. -/
theorem same_eq_false_of_addsPair {e : Expr Float} (he : Writable IsPlain e) {before inner after : String}
    (h : AddsPair e before inner after) : e.inputForm = before ++ "(" ++ inner ++ ")" ++ after ∧
      ∀ p, parseText (before ++ inner ++ after) = .ok p → p.withoutParens.same e.withoutParens = false := by
  refine ⟨h.inputForm, fun p hp => ?_⟩
  rw [Bool.eq_false_iff]
  intro hsame
  have hwritable := (written_of_parseText hp).1.withoutParens
  exact h.skeleton_ne he hp (unspanned_eq_of_same hwritable he.withoutParens hsame)

/-- The inner pair of two, which keeps a difference on the right. -/
theorem same_eq_false_of_addsPair_difference :
    let inner : Expr Float := .binary .nowhere .sub (.var .nowhere "x") (.literal .nowhere 1)
    let e : Expr Float := .unary .nowhere .neg (.binary .nowhere .sub (.var .nowhere "x") inner)
    Writable IsPlain e ∧ AddsPair e "-(x - " "x - 1" ")" ∧ e.inputForm = "-(x - (x - 1))" ∧
      ∃ p, parseText "-(x - x - 1)" = .ok p ∧ p.withoutParens.same e.withoutParens = false := by
  intro inner e
  have he : Writable IsPlain e := ⟨isName_x, isName_x, LawfulNumeral.shape_one⟩
  have hoperand : inner.inputForm = "x - 1" := by decide +kernel
  have hpair : AddsPair (.binary .nowhere .sub (.var .nowhere "x") inner) "x - " inner.inputForm "" :=
    .here (.right .nowhere .sub (.var .nowhere "x") inner)
  rw [hoperand] at hpair
  have hpairs : AddsPair e "-(x - " "x - 1" ")" := .deeper (.neg .nowhere _) hpair
  obtain ⟨hinputForm, hread⟩ := same_eq_false_of_addsPair he hpairs
  have hp : parseText "-(x - x - 1)" = .ok (.unary ⟨0, 12⟩ .neg (.paren ⟨1, 12⟩ (.binary ⟨2, 11⟩ .sub
      (.binary ⟨2, 7⟩ .sub (.var ⟨2, 3⟩ "x") (.var ⟨6, 7⟩ "x")) (.literal ⟨10, 11⟩ (1 : Float))))) := by decide +kernel
  exact ⟨he, hpairs, hinputForm, _, hp, hread _ hp⟩

end Expr

end Formula
