import Formula.Proofs.Parsing.Composition
import Formula.Proofs.Parsing.Language
import Formula.Proofs.RoundTrip

/-!
# `Formula.Proofs.Respelling` — reading loses no token

The words of an input form are those of the text that was read, in their order: numbers spelled anew, keywords in lower
case, and the variable of each derivative that named none supplied where its operand ends. Nothing else is put in, left
out or moved.

## Contents
- `respelled` — the word that a token is written down as.
- `suppliedAt` — the words that derivatives without a variable of their own are given behind an offset.
- `Composes.words_eq` — the words of an expression, token by token.
- `words_inputForm_of_parseText` — the words of an input form, for doubles.
-/

namespace Formula

open Lexis Formula.Expr Parsing

variable {ν : Type} [Numeral ν]

variable (ν) in
/-- **The word that a token is written down as**: a number as the digits of its value, a keyword in lower case, and any
    other token as it is. -/
def respelled (t : Token) : Word :=
  match t.kind with
  | .number =>
    match (Numeral.read t.text : Except NumeralError ν) with
    | .ok v => (.number, Numeral.digits v)
    | .error _ => t.word
  | .keyword => (.keyword, String.ofList (t.text.toList.map Char.toLower))
  | _ => t.word

/-- **The words supplied behind an offset**: for each derivative that stops there together with its operand, so that no
    variable is written after that, the keyword for one and the variable that is guessed. The innermost derivative comes
    first. -/
def Expr.suppliedAt (o : Nat) : Expr ν → List Word
  | paren _ e => e.suppliedAt o
  | constant _ _ => []
  | imaginary _ => []
  | var _ _ => []
  | literal _ _ => []
  | binary _ _ l r => l.suppliedAt o ++ r.suppliedAt o
  | unary _ _ e => e.suppliedAt o
  | derivative s e _ => e.suppliedAt o ++
      if s.stop = o ∧ e.span.stop = o then [(.keyword, "wrt"), (.name, e.primaryVariable?.getD "x")] else []
  | integral _ e x => e.suppliedAt o ++ x.suppliedAt o
  | definiteIntegral _ e x a b => e.suppliedAt o ++ x.suppliedAt o ++ a.suppliedAt o ++ b.suppliedAt o

/-! ## Single tokens -/

theorem respelled_of_symbol {t : Token} {text : String} (h : t.word = (.symbol, text)) :
    respelled ν t = (.symbol, text) := by
  obtain ⟨hkind, -⟩ := Prod.mk.inj h
  simp only [respelled, hkind, h]

theorem respelled_of_name {t : Token} (h : t.kind = .name) : respelled ν t = (.name, t.text) := by
  simp only [respelled, h, Token.word]

theorem respelled_of_isKeyword {t : Token} {text : String} (h : t.isKeyword text = true)
    (hlower : text.toList.map Char.toLower = text.toList) : respelled ν t = (.keyword, text) := by
  rw [Token.isKeyword, Bool.and_eq_true, beq_iff_eq, sameLetters, beq_iff_eq] at h
  simp only [respelled, h.1, h.2, hlower, String.ofList_toList]

theorem respelled_of_number {t : Token} {v : ν} (hkind : t.kind = .number)
    (hread : (Numeral.read t.text : Except NumeralError ν) = .ok v) :
    respelled ν t = (.number, Numeral.digits v) := by
  simp only [respelled, hkind, hread]

/-! ## Where words are supplied -/

/-- An expression is given words behind its own tokens only. -/
theorem Parsing.Composes.suppliedAt_eq_nil {us : List Token} {e : Expr ν} (h : Composes us e) (hin : InOrder us)
    {o : Nat} (ho : ∀ t ∈ us, t.span.stop ≠ o) : e.suppliedAt o = [] := by
  induction h with
  | name hkind => rfl
  | number hkind hread => rfl
  | constant hkind hlookup => rfl
  | @group t tc us inner hword hinner hclose ih => exact ih hin.tail.left fun t' ht' => ho t' (by simp [ht'])
  | @negation t us inner hword hinner ih => exact ih hin.tail fun t' ht' => ho t' (by simp [ht'])
  | @derivative t us inner hkeyword hinner ih =>
    -- the derivative stops with its last token, which is its operand's
    obtain ⟨a, -, b, hb, hspan⟩ := hinner.covers hin.tail
    have hne : inner.span.stop ≠ o := by
      rw [hspan]
      exact ho b (List.mem_cons_of_mem t (List.mem_of_mem_getLast? hb))
    simp [suppliedAt, hne, ih hin.tail fun t' ht' => ho t' (by simp [ht'])]
  | @derivativeBy t us tw tx inner hkeyword hinner hwrt hkind ih =>
    obtain ⟨a, -, b, hb, hspan⟩ := hinner.covers hin.tail.left
    have hmem := List.mem_of_mem_getLast? hb
    have hne : inner.span.stop ≠ o := by
      rw [hspan]
      exact ho b (by simp [hmem])
    simp [suppliedAt, hne, ih hin.tail.left fun t' ht' => ho t' (by simp [ht'])]
  | @binary us t vs op l r hop hl hword hr ihl ihr =>
    simp [suppliedAt, ihl hin.left fun t' ht' => ho t' (by simp [ht']),
      ihr hin.right.tail fun t' ht' => ho t' (by simp [ht'])]
  | @juxtaposed us vs l r hl hr ihl ihr =>
    simp [suppliedAt, ihl hin.left fun t' ht' => ho t' (by simp [ht']),
      ihr hin.right fun t' ht' => ho t' (by simp [ht'])]
  | @factorial us t inner hinner hword ih => exact ih hin.left fun t' ht' => ho t' (by simp [ht'])

/-- No two tokens in order stop at the same offset. -/
theorem InOrder.stop_lt_stop {us vs : List Token} (h : InOrder (us ++ vs)) {a b : Token} (ha : a ∈ us) (hb : b ∈ vs) :
    a.span.stop < b.span.stop :=
  Nat.lt_of_le_of_lt (h.stop_le_start ha hb) (h.1 b (List.mem_append_right us hb))

/-- Behind a token that stands before or after its own an expression is given nothing. -/
theorem Parsing.Composes.suppliedAt_before {us vs : List Token} {e : Expr ν} (h : Composes vs e)
    (hin : InOrder (us ++ vs)) {t : Token} (ht : t ∈ us) : e.suppliedAt t.span.stop = [] :=
  h.suppliedAt_eq_nil hin.right fun _ ht' => Nat.ne_of_gt (hin.stop_lt_stop ht ht')

/-- So is it behind the token before its first one. -/
theorem Parsing.Composes.suppliedAt_head {t : Token} {vs : List Token} {e : Expr ν} (h : Composes vs e)
    (hin : InOrder (t :: vs)) : e.suppliedAt t.span.stop = [] :=
  h.suppliedAt_before (show InOrder ([t] ++ vs) from hin) List.mem_cons_self

theorem Parsing.Composes.suppliedAt_after {us vs : List Token} {e : Expr ν} (h : Composes us e)
    (hin : InOrder (us ++ vs)) {t : Token} (ht : t ∈ vs) : e.suppliedAt t.span.stop = [] :=
  h.suppliedAt_eq_nil hin.left fun _ ht' => Nat.ne_of_lt (hin.stop_lt_stop ht' ht)

/-! ## The words of an expression -/

/-- What is written down for a token of an expression. -/
def Expr.wordsAt (e : Expr ν) (t : Token) : List Word := respelled ν t :: e.suppliedAt t.span.stop

/-- A token behind which nothing is supplied. -/
theorem Expr.wordsAt_of_nil {e : Expr ν} {t : Token} (h : e.suppliedAt t.span.stop = []) :
    e.wordsAt t = [respelled ν t] := by
  rw [wordsAt, h]

/-- Tokens behind which the same is supplied are written down as the same. -/
theorem Expr.flatMap_wordsAt {us : List Token} {e e' : Expr ν}
    (h : ∀ t ∈ us, e.suppliedAt t.span.stop = e'.suppliedAt t.span.stop) :
    us.flatMap e.wordsAt = us.flatMap e'.wordsAt :=
  List.flatMap_congr fun t ht => by rw [wordsAt, wordsAt, h t ht]

theorem Expr.wordsAt_paren (s : Span) (e : Expr ν) : (paren s e).wordsAt = e.wordsAt := rfl

theorem Expr.wordsAt_unary (s : Span) (op : UnaryOp) (e : Expr ν) : (unary s op e).wordsAt = e.wordsAt := rfl

/-- The tokens of either operand are written down as they are on their own. -/
theorem Parsing.Composes.flatMap_wordsAt_left {us vs : List Token} {r : Expr ν} (hr : Composes vs r)
    (hin : InOrder (us ++ vs)) (s : Span) (op : BinaryOp) (l : Expr ν) :
    us.flatMap (Expr.binary s op l r).wordsAt = us.flatMap l.wordsAt := by
  apply flatMap_wordsAt
  intro t ht
  rw [suppliedAt, hr.suppliedAt_before hin ht, List.append_nil]

theorem Parsing.Composes.flatMap_wordsAt_right {us vs : List Token} {l : Expr ν} (hl : Composes us l)
    (hin : InOrder (us ++ vs)) (s : Span) (op : BinaryOp) (r : Expr ν) :
    vs.flatMap (Expr.binary s op l r).wordsAt = vs.flatMap r.wordsAt := by
  apply flatMap_wordsAt
  intro t ht
  rw [suppliedAt, hl.suppliedAt_after hin ht, List.nil_append]

/-- Where a derivative names its variable, nothing is supplied for it. -/
theorem Expr.wordsAt_derivative {s : Span} {e : Expr ν} (h : s.stop ≠ e.span.stop) (x : String) :
    (derivative s e x).wordsAt = e.wordsAt := by
  funext t
  rw [wordsAt, wordsAt, suppliedAt, if_neg fun hstop => h (hstop.1.trans hstop.2.symm), List.append_nil]

/-- Where it names none, the variable is supplied behind the last token of the operand. -/
theorem Parsing.Composes.flatMap_wordsAt_derivative {us : List Token} {e : Expr ν} (he : Composes us e)
    (hin : InOrder us) {s : Span} (hs : s.stop = e.span.stop) (x : String) :
    us.flatMap (Expr.derivative s e x).wordsAt =
      us.flatMap e.wordsAt ++ [(.keyword, "wrt"), (.name, e.primaryVariable?.getD "x")] := by
  obtain ⟨a, -, b, hb, hspan⟩ := he.covers hin
  obtain ⟨us', rfl⟩ : ∃ us', us = us' ++ [b] := ⟨_, (List.dropLast_append_getLast? b hb).symm⟩
  have hstop : e.span.stop = b.span.stop := by rw [hspan]
  have hfront : us'.flatMap (Expr.derivative s e x).wordsAt = us'.flatMap e.wordsAt := by
    apply flatMap_wordsAt
    intro t ht
    have hlt : t.span.stop < b.span.stop := hin.stop_lt_stop ht List.mem_cons_self
    rw [suppliedAt, if_neg fun h => Nat.ne_of_lt hlt (h.2.symm.trans hstop), List.append_nil]
  have hback : (Expr.derivative s e x).wordsAt b =
      e.wordsAt b ++ [(.keyword, "wrt"), (.name, e.primaryVariable?.getD "x")] := by
    rw [wordsAt, wordsAt, suppliedAt, if_pos ⟨hs.trans hstop, hstop⟩, List.cons_append]
  rw [List.flatMap_append, List.flatMap_append, List.flatMap_singleton, List.flatMap_singleton, hfront, hback,
    List.append_assoc]

/-- **The words of an expression are what its tokens are written down as**, by induction on how it is composed. -/
theorem Parsing.Composes.words_eq {us : List Token} {e : Expr ν} (h : Composes us e) (hgen : Genuine us)
    (hin : InOrder us) : e.words = us.flatMap e.wordsAt := by
  induction h with
  | name hkind => simp [words, wordsAt, suppliedAt, respelled_of_name hkind]
  | number hkind hread => simp [words, wordsAt, suppliedAt, respelled_of_number hkind hread]
  | @constant t c hkind hlookup =>
    have hname : c.name = t.text := by simpa using List.find?_some hlookup
    simp [words, wordsAt, suppliedAt, respelled, hkind, hname, Token.word]
  | @group t tc us inner hword hinner hclose ih =>
    have hwordc : tc.word = (.symbol, ")") := word_of_reads_close (hgen tc (by simp)) hclose
    have hfirst : inner.suppliedAt t.span.stop = [] :=
      hinner.suppliedAt_head (show InOrder (t :: us ++ [tc]) from hin).left
    have hlast : inner.suppliedAt tc.span.stop = [] := hinner.suppliedAt_after hin.tail List.mem_cons_self
    rw [wordsAt_paren, List.flatMap_cons, List.flatMap_append, List.flatMap_singleton, wordsAt_of_nil hfirst,
      wordsAt_of_nil hlast, respelled_of_symbol hword, respelled_of_symbol hwordc, words,
      ih hgen.tail.left hin.tail.left]
    rfl
  | @negation t us inner hword hinner ih =>
    have hfirst : inner.suppliedAt t.span.stop = [] := hinner.suppliedAt_head hin
    rw [wordsAt_unary, List.flatMap_cons, wordsAt_of_nil hfirst, respelled_of_symbol hword, words,
      ih hgen.tail hin.tail]
    rfl
  | @derivative t us inner hkeyword hinner ih =>
    obtain ⟨a, -, b, hb, hspan⟩ := hinner.covers hin.tail
    have hlt : t.span.stop < inner.span.stop := by
      rw [hspan]
      exact (show InOrder ([t] ++ us) from hin).stop_lt_stop List.mem_cons_self (List.mem_of_mem_getLast? hb)
    have hstop : (t.span.merge inner.span).stop = inner.span.stop := Nat.max_eq_right (Nat.le_of_lt hlt)
    have hfirst : inner.suppliedAt t.span.stop = [] := hinner.suppliedAt_head hin
    have hown : (Expr.derivative (t.span.merge inner.span) inner (inner.primaryVariable?.getD "x")).suppliedAt
        t.span.stop = [] := by
      rw [suppliedAt, hfirst, if_neg fun h => Nat.ne_of_gt hlt h.2, List.append_nil]
    rw [List.flatMap_cons, wordsAt_of_nil hown, respelled_of_isKeyword hkeyword rfl,
      hinner.flatMap_wordsAt_derivative hin.tail hstop, words, ih hgen.tail hin.tail]
    rfl
  | @derivativeBy t us tw tx inner hkeyword hinner hwrt hkind ih =>
    obtain ⟨a, -, b, hb, hspan⟩ := hinner.covers hin.tail.left
    have hlt : inner.span.stop < tx.span.stop := by
      rw [hspan]
      exact hin.tail.stop_lt_stop (List.mem_of_mem_getLast? hb) (by simp)
    have hstop : ((t.span.merge inner.span).merge tx.span).stop ≠ inner.span.stop :=
      Nat.ne_of_gt (Nat.lt_of_lt_of_le hlt (Nat.le_max_right _ _))
    have hfirst : inner.suppliedAt t.span.stop = [] :=
      hinner.suppliedAt_head (show InOrder (t :: us ++ [tw, tx]) from hin).left
    have hlast : ∀ t' ∈ [tw, tx], inner.suppliedAt t'.span.stop = [] := fun _ => hinner.suppliedAt_after hin.tail
    rw [wordsAt_derivative hstop, List.flatMap_cons, List.flatMap_append, List.flatMap_cons, List.flatMap_singleton,
      wordsAt_of_nil hfirst, wordsAt_of_nil (hlast tw (by simp)), wordsAt_of_nil (hlast tx (by simp)),
      respelled_of_isKeyword hkeyword rfl, respelled_of_isKeyword hwrt rfl, respelled_of_name hkind, words,
      ih hgen.tail.left hin.tail.left]
    rfl
  | @binary us t vs op l r hop hl hword hr ihl ihr =>
    have hfirst : (Expr.binary (l.span.merge r.span) op l r).suppliedAt t.span.stop = [] := by
      rw [suppliedAt, hl.suppliedAt_after hin List.mem_cons_self,
        hr.suppliedAt_head hin.right, List.append_nil]
    have hoperator : operatorWords op = [(.symbol, op.symbol)] := by
      cases op <;> first | rfl | exact absurd rfl hop
    -- the operator's own token stands between the operands
    have hoperands : InOrder (us ++ vs) := hin.of_sublist (by simp)
    rw [List.flatMap_append, List.flatMap_cons, wordsAt_of_nil hfirst, respelled_of_symbol hword,
      hr.flatMap_wordsAt_left hoperands, hl.flatMap_wordsAt_right hoperands, words, hoperator,
      ihl hgen.left hin.left, ihr hgen.right.tail hin.right.tail]
  | @juxtaposed us vs l r hl hr ihl ihr =>
    rw [List.flatMap_append, hr.flatMap_wordsAt_left hin, hl.flatMap_wordsAt_right hin, words,
      ihl hgen.left hin.left, ihr hgen.right hin.right]
    rfl
  | @factorial us t inner hinner hword ih =>
    have hlast : inner.suppliedAt t.span.stop = [] := hinner.suppliedAt_after hin List.mem_cons_self
    rw [wordsAt_unary, List.flatMap_append, List.flatMap_singleton, wordsAt_of_nil hlast, respelled_of_symbol hword,
      words, ih hgen.left hin.left]
    rfl

/-! ## Input forms -/

/-- **Reading loses nothing.** The input form of an expression that has been read has tokens, and their words are those
    of the text's tokens, one after the other, each respelled and followed by what is supplied behind it. -/
theorem words_inputForm_of_parseText {text : String} {e : Expr Float} (h : parseText text = .ok e) :
    ∃ ts us, tokensOf text = .ok ts ∧ tokensOf e.inputForm = .ok us ∧
      us.map Token.word = ts.flatMap fun t => respelled Float t :: e.suppliedAt t.span.stop := by
  obtain ⟨ts, hts, hparse⟩ := exists_tokens_of_parseText h
  obtain ⟨hwritable, hwritten, -⟩ := written_of_parseText h
  -- the printer puts nothing into what was read
  have hspells := spells_inputForm (hwritable.mono fun _ _ => trivial)
  rw [hwritten] at hspells
  obtain ⟨us, hus, hwords⟩ := (exists_tokensOf_iff e.inputForm e.words).mpr hspells
  refine ⟨ts, us, hts, hus, ?_⟩
  rw [hwords]
  exact (composes_of_parseAll hparse).words_eq (genuine_of_tokensOf hts) (stands_of_tokensOf hts).inOrder

/-- Two derivatives that name no variable, a keyword in capitals and a number with a zero too many. -/
theorem words_inputForm_derivative :
    let operand : Expr Float := .binary ⟨22, 32⟩ .sub
      (.binary ⟨22, 28⟩ .juxtapose (.literal ⟨22, 26⟩ 2.5) (.var ⟨27, 28⟩ "y")) (.var ⟨31, 32⟩ "x")
    let e : Expr Float := .derivative ⟨0, 32⟩ (.derivative ⟨11, 32⟩ operand "y") "y"
    parseText "DERIVATIVE derivative 2.50 y - x" = .ok e ∧ ∃ us, tokensOf e.inputForm = .ok us ∧
      us.map Token.word = [(.keyword, "derivative"), (.keyword, "derivative"), (.number, "2.5"), (.name, "y"),
        (.symbol, "-"), (.name, "x"), (.keyword, "wrt"), (.name, "y"), (.keyword, "wrt"), (.name, "y")] := by
  intro operand e
  have h : parseText "DERIVATIVE derivative 2.50 y - x" = .ok e := by decide +kernel
  obtain ⟨ts, us, hts, hus, hwords⟩ := words_inputForm_of_parseText h
  have htokens : tokensOf "DERIVATIVE derivative 2.50 y - x" = .ok [⟨.keyword, "DERIVATIVE", ⟨0, 10⟩⟩,
      ⟨.keyword, "derivative", ⟨11, 21⟩⟩, ⟨.number, "2.50", ⟨22, 26⟩⟩, ⟨.name, "y", ⟨27, 28⟩⟩,
      ⟨.symbol, "-", ⟨29, 30⟩⟩, ⟨.name, "x", ⟨31, 32⟩⟩] := by decide +kernel
  obtain rfl := Except.ok.inj (hts.symm.trans htokens)
  refine ⟨h, us, hus, hwords.trans ?_⟩
  decide +kernel

end Formula
