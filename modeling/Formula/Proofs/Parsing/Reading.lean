import Formula.Proofs.Expr.Written
import Formula.Proofs.Parsing.Steps

/-!
# `Formula.Proofs.Parsing.Reading` — grouped trees are read back from their words

From tokens that read as the words of a grouped tree the parser builds that tree, up to spans, provided that it has
as many levels of nesting as the tree takes. It does so in the middle of its loop: what the tree begins with is read
as an operand, and each operation along the left edge is one round of the loop after it. So the statement compares
reading from the tree's first token with the loop after its last one.

## Contents
- `ClosesAt`, `StopsAt` — where an operand ends.
- `ReadsOn` — reading a tree is going on after it; one lemma for each constructor, and `readsOn_of_grouped`.
- `readOperand_of_grouped` — a grouped tree is read back.
- `unspanned_eq_of_words` — so its words determine it.
-/

namespace Formula

open Lexis Formula.Expr

namespace Parsing

variable {ν : Type}

/-- Nothing at the right edge of a tree goes on at the next token. -/
def ClosesAt (rest : List Token) (e : Expr ν) : Prop :=
  ∀ t ∈ rest.head?, ∀ rule, Grammar.standard.extensionRule? t = some rule → Closes rule.precedence e

/-- The next token does not bind tighter than a threshold. -/
def StopsAt (m : Nat) (rest : List Token) : Prop :=
  ∀ t ∈ rest.head?, ∀ rule, Grammar.standard.extensionRule? t = some rule → rule.precedence ≤ m

theorem closesAt_nil (e : Expr ν) : ClosesAt [] e := by
  intro t ht
  cases ht

theorem stopsAt_nil (m : Nat) : StopsAt m [] := by
  intro t ht
  cases ht

theorem closesAt_of_none {t : Token} (h : Grammar.standard.extensionRule? t = none) (rest : List Token) (e : Expr ν) :
    ClosesAt (t :: rest) e := by
  intro t' ht rule hrule
  obtain rfl := Option.some.inj ht
  rw [h] at hrule
  cases hrule

theorem stopsAt_of_none {t : Token} (h : Grammar.standard.extensionRule? t = none) (rest : List Token) (m : Nat) :
    StopsAt m (t :: rest) := by
  intro t' ht rule hrule
  obtain rfl := Option.some.inj ht
  rw [h] at hrule
  cases hrule

theorem closesAt_cons {t : Token} {rule : ExtensionRule} (h : Grammar.standard.extensionRule? t = some rule)
    {e : Expr ν} (he : Closes rule.precedence e) (rest : List Token) : ClosesAt (t :: rest) e := by
  intro t' ht rule' hrule
  obtain rfl := Option.some.inj ht
  obtain rfl := Option.some.inj (h.symm.trans hrule)
  exact he

variable [Numeral ν]

/-- Where the next token does not bind tighter, the loop of the standard grammar stops. -/
theorem climb_run_of_stopsAt {m : Nat} {rest : List Token} (h : StopsAt m rest) (n k : Nat) (e : Expr ν) :
    (climb Grammar.standard n m e).run ⟨k, rest⟩ = .ok e ⟨k, rest⟩ :=
  climb_run_of_stops h n k e

/-! ## The words of a tree -/

theorem token_of_words {ts : List Token} {w : Word} (h : ts.map Token.word = [w]) : ∃ t, ts = [t] ∧ t.word = w := by
  obtain ⟨t, ts', rfl, ht, hnil⟩ := List.map_eq_cons_iff.mp h
  rw [List.map_eq_nil_iff] at hnil
  exact ⟨t, by rw [hnil], ht⟩

/-- What a tight tree begins with. -/
theorem beginsFactor_of_startsTight {P : ν → Prop} {e : Expr ν} (hw : Writable P e) (ht : StartsTight e) :
    ∃ w ws, e.words = w :: ws ∧ BeginsFactor w := by
  induction e with
  | paren s e ih => exact ⟨_, _, rfl, Or.inr (Or.inr (Or.inr rfl))⟩
  | constant s c => exact ⟨_, _, rfl, Or.inr (Or.inl rfl)⟩
  | imaginary s => cases hw
  | var s x => exact ⟨_, _, rfl, Or.inl rfl⟩
  | literal s v => exact ⟨_, _, rfl, Or.inr (Or.inr (Or.inl rfl))⟩
  | binary s op l r ihl ihr =>
    obtain ⟨w, ws, hl, hb⟩ := ihl hw.1 ht
    exact ⟨w, ws ++ (operatorWords op ++ r.words), by rw [words, hl, List.cons_append], hb⟩
  | unary s op e ih =>
    cases op with
    | neg => cases ht
    | factorial =>
      obtain ⟨w, ws, he, hb⟩ := ih hw ht
      exact ⟨w, ws ++ [mark '!'], by rw [words, he, List.cons_append], hb⟩
  | derivative s e x ih => cases ht
  | integral s e x ihe ihx => cases ht
  | definiteIntegral s e x a b ihe ihx iha ihb => cases ht

/-- Between two operands stands what a rule of the grammar builds the operation from. -/
theorem exists_rule_of_operator {P : ν → Prop} {op : BinaryOp} {r : Expr ν} (hw : Writable P r)
    (ht : op = .juxtapose → StartsTight r) {tos trs : List Token} (hos : tos.map Token.word = operatorWords op)
    (hrs : trs.map Token.word = r.words) (rest : List Token) :
    ∃ t ts rule, tos ++ (trs ++ rest) = t :: ts ∧ Grammar.standard.extensionRule? t = some rule ∧
      rule.precedence = op.binding.precedence ∧
      ∀ {operand : Nat → Parsing (Expr ν)} {k : Nat} {lhs rhs : Expr ν} {c : Cursor},
        (operand op.binding.threshold).run ⟨k + tos.length, trs ++ rest⟩ = .ok rhs c →
        (rule.build operand lhs).run ⟨k, t :: ts⟩ = .ok (.binary (lhs.span.merge rhs.span) op lhs rhs) c := by
  by_cases hop : op = .juxtapose
  · subst hop
    obtain ⟨w, ws, hwords, hbegins⟩ := beginsFactor_of_startsTight hw (ht rfl)
    rw [hwords] at hrs
    obtain ⟨t, trs', rfl, hword, -⟩ := List.map_eq_cons_iff.mp hrs
    obtain rfl : tos = [] := List.map_eq_nil_iff.mp hos
    rw [← hword] at hbegins
    obtain ⟨tm, hrule⟩ := extensionRule?_juxtaposed hbegins
    refine ⟨t, trs' ++ rest, .juxtaposed tm, rfl, hrule, rfl, ?_⟩
    intro operand k lhs rhs c hrun
    exact run_bind_ok hrun
  · have hwords : operatorWords op = [(.symbol, op.symbol)] := by
      cases op <;> first | rfl | exact absurd rfl hop
    rw [hwords] at hos
    obtain ⟨t, rfl, hword⟩ := token_of_words hos
    refine ⟨t, trs ++ rest, _, rfl, extensionRule?_binary hop hword, rfl, ?_⟩
    intro operand k lhs rhs c hrun
    exact (run_bind_ok (run_current k t _)).trans (run_bind_ok hrun)

/-! ## Reading a tree -/

/-- **Reading the tree is going on after it.** From the tree's first token an operand is read as the loop goes on
    after its last one, with the tree as what was read so far. -/
def ReadsOn (e : Expr ν) : Prop :=
  ∀ (n m k : Nat) (ts rest : List Token), ts.map Token.word = e.words → Fits m e → e.levels ≤ n → ClosesAt rest e →
    ∃ e', e'.unspanned = e.unspanned ∧ (readOperand Grammar.standard (n + 1) m).run ⟨k, ts ++ rest⟩ =
      (climb Grammar.standard (n - e.spine) m e').run ⟨k + ts.length, rest⟩

/-- Where the loop stops after the tree, the tree is what is read. -/
theorem ReadsOn.exists_run {e : Expr ν} (he : ReadsOn e) {n m : Nat} {ts rest : List Token}
    (hts : ts.map Token.word = e.words) (hfits : Fits m e) (hn : e.levels ≤ n) (hstops : StopsAt m rest)
    (hcloses : ClosesAt rest e) (k : Nat) : ∃ e', e'.unspanned = e.unspanned ∧
      (readOperand Grammar.standard (n + 1) m).run ⟨k, ts ++ rest⟩ = .ok e' ⟨k + ts.length, rest⟩ := by
  obtain ⟨e', he', hrun⟩ := he n m k ts rest hts hfits hn hcloses
  rw [climb_run_of_stopsAt hstops] at hrun
  exact ⟨e', he', hrun⟩

theorem readsOn_var (s : Span) (x : String) : ReadsOn (.var s x : Expr ν) := by
  intro n m k ts rest hts _ _ _
  obtain ⟨t, rfl, hword⟩ := token_of_words hts
  obtain ⟨hkind, htext⟩ := Prod.mk.inj hword
  refine ⟨.var t.span t.text, by rw [unspanned, unspanned, htext], ?_⟩
  rw [List.singleton_append, readOperand_run (startRule?_name hkind)]
  rfl

theorem readsOn_constant {P : ν → Prop} {s : Span} {c : Constant} (hw : Writable P (.constant s c : Expr ν)) :
    ReadsOn (.constant s c : Expr ν) := by
  intro n m k ts rest hts _ _ _
  obtain ⟨t, rfl, hword⟩ := token_of_words hts
  obtain ⟨hkind, htext⟩ := Prod.mk.inj hword
  refine ⟨.constant t.span c, rfl, ?_⟩
  have hlookup : Constant.lookup? t.text = some c := by
    rw [htext]
    rcases hw with rfl | rfl <;> rfl
  have hbuild : (Start.constant.build (readOperand Grammar.standard n)).run ⟨k, t :: rest⟩ =
      .ok (.constant t.span c : Expr ν) ⟨k + 1, rest⟩ := by
    refine (run_bind_ok (run_current k t rest)).trans ?_
    rw [readConstant, hlookup]
    rfl
  rw [List.singleton_append, readOperand_run (startRule?_constant hkind), run_bind_ok hbuild]
  rfl

theorem ReadsOn.paren {e : Expr ν} (he : ReadsOn e) (s : Span) : ReadsOn (.paren s e) := by
  intro n m k ts rest hts _ hn _
  obtain ⟨t, ts', rfl, hword, hts'⟩ := List.map_eq_cons_iff.mp hts
  obtain ⟨tes, tcs, rfl, htes, htcs⟩ := List.map_eq_append_iff.mp hts'
  obtain ⟨tc, rfl, hclose⟩ := token_of_words htcs
  obtain ⟨n, rfl⟩ := Nat.exists_eq_succ_of_ne_zero (Nat.ne_of_gt (Nat.lt_of_lt_of_le (Nat.succ_pos _) hn))
  -- the loop inside stops at the closing parenthesis, whatever follows it
  have hnone := extensionRule?_close hclose
  obtain ⟨e', he', hrun⟩ := he.exists_run htes (fits_zero e) (Nat.le_of_succ_le_succ hn)
    (stopsAt_of_none hnone rest 0) (closesAt_of_none hnone rest e) (k + 1)
  refine ⟨.paren (t.span.merge tc.span) e', by rw [unspanned, unspanned, he'], ?_⟩
  have hbuild : (Start.group.build (readOperand Grammar.standard (n + 1))).run ⟨k, t :: (tes ++ tc :: rest)⟩ =
      .ok (.paren (t.span.merge tc.span) e') ⟨k + 1 + tes.length + 1, rest⟩ := by
    refine (run_bind_ok (run_demand (reads_of_word hword) k _)).trans ?_
    refine (run_bind_ok hrun).trans ?_
    exact run_bind_ok (run_expect (reads_of_word hclose) _ rest)
  have htokens : t :: (tes ++ [tc]) ++ rest = t :: (tes ++ tc :: rest) := by simp
  have hlength : k + (t :: (tes ++ [tc])).length = k + 1 + tes.length + 1 := by
    rw [List.length_cons, List.length_append, List.length_singleton]
    omega
  rw [htokens, hlength, readOperand_run (startRule?_open hword), run_bind_ok hbuild]
  rfl

theorem ReadsOn.neg {e : Expr ν} (he : ReadsOn e) (s : Span) (hfits : Fits UnaryOp.neg.binding.threshold e) :
    ReadsOn (.unary s .neg e) := by
  intro n m k ts rest hts _ hn hclose
  obtain ⟨t, tes, rfl, hword, htes⟩ := List.map_eq_cons_iff.mp hts
  obtain ⟨n, rfl⟩ := Nat.exists_eq_succ_of_ne_zero (Nat.ne_of_gt (Nat.lt_of_lt_of_le (Nat.succ_pos _) hn))
  obtain ⟨e', he', hrun⟩ := he.exists_run htes hfits (Nat.le_of_succ_le_succ hn)
    (fun t ht rule hrule => (hclose t ht rule hrule).1) (fun t ht rule hrule => (hclose t ht rule hrule).2) (k + 1)
  refine ⟨.unary (t.span.merge e'.span) .neg e', by rw [unspanned, unspanned, he'], ?_⟩
  have hbuild : (Start.negation.build (readOperand Grammar.standard (n + 1))).run ⟨k, t :: (tes ++ rest)⟩ =
      .ok (.unary (t.span.merge e'.span) .neg e') ⟨k + 1 + tes.length, rest⟩ := by
    refine (run_bind_ok (run_demand (reads_of_word hword) k _)).trans ?_
    exact run_bind_ok hrun
  have hlength : k + (t :: tes).length = k + 1 + tes.length := by
    rw [List.length_cons]
    omega
  rw [List.cons_append, hlength, readOperand_run (startRule?_minus hword), run_bind_ok hbuild]
  rfl

theorem ReadsOn.factorial {e : Expr ν} (he : ReadsOn e) (s : Span)
    (hcloses : Closes UnaryOp.factorial.binding.precedence e) : ReadsOn (.unary s .factorial e) := by
  intro n m k ts rest hts hfits hn _
  obtain ⟨tes, tcs, rfl, htes, htcs⟩ := List.map_eq_append_iff.mp hts
  obtain ⟨t, rfl, hword⟩ := token_of_words htcs
  rw [fits_factorial] at hfits
  simp only [levels] at hn
  have hrule := extensionRule?_factorial hword
  obtain ⟨e', he', hrun⟩ := he n m k tes (t :: rest) htes (hcloses.fits hfits (by decide)) (by omega)
    (closesAt_cons hrule hcloses rest)
  obtain ⟨n', hn'⟩ : ∃ n', n - e.spine = n' + 1 := ⟨n - e.spine - 1, by omega⟩
  refine ⟨.unary (e'.span.merge t.span) .factorial e', by rw [unspanned, unspanned, he'], ?_⟩
  have hbuild : ((ExtensionRule.unary (.symbol "!") .factorial).build (readOperand Grammar.standard n') e').run
      ⟨k + tes.length, t :: rest⟩ =
    .ok (.unary (e'.span.merge t.span) .factorial e') ⟨k + tes.length + 1, rest⟩ := rfl
  rw [List.append_assoc, List.singleton_append, hrun, hn', climb_run_step hrule hfits, run_bind_ok hbuild, spine,
    List.length_append, List.length_singleton, show n - (e.spine + 1) = n' by omega, Nat.add_assoc]

theorem ReadsOn.binary {P : ν → Prop} {op : BinaryOp} {l r : Expr ν} (hl : ReadsOn l) (hr : ReadsOn r) (s : Span)
    (hw : Writable P r) (hcloses : Closes op.binding.precedence l) (hfitsRight : Fits op.binding.threshold r)
    (htight : op = .juxtapose → StartsTight r) : ReadsOn (.binary s op l r) := by
  intro n m k ts rest hts hfits hn hclose
  obtain ⟨tls, tos', rfl, htls, hts'⟩ := List.map_eq_append_iff.mp hts
  obtain ⟨tos, trs, rfl, htos, htrs⟩ := List.map_eq_append_iff.mp hts'
  rw [fits_binary] at hfits
  simp only [levels] at hn
  obtain ⟨t, ts, rule, hsplit, hrule, hprec, hbuild⟩ := exists_rule_of_operator hw htight htos htrs rest
  -- the left operand is read by the same loop
  obtain ⟨l', hl', hlrun⟩ := hl n m k tls (t :: ts) htls (hcloses.fits hfits (by cases op <;> decide)) (by omega)
    (closesAt_cons hrule (by rw [hprec]; exact hcloses) ts)
  obtain ⟨n', hn'⟩ : ∃ n', n - l.spine = n' + 1 + 1 := ⟨n - l.spine - 2, by omega⟩
  -- the right operand is read by a loop of its own, which stops after it
  obtain ⟨r', hr', hrrun⟩ := hr.exists_run (n := n') htrs hfitsRight (by omega)
    (fun t ht rule hrule => (hclose t ht rule hrule).1) (fun t ht rule hrule => (hclose t ht rule hrule).2)
    (k + tls.length + tos.length)
  refine ⟨.binary (l'.span.merge r'.span) op l' r', by rw [unspanned, unspanned, hl', hr'], ?_⟩
  have hlength : k + (tls ++ (tos ++ trs)).length = k + tls.length + tos.length + trs.length := by
    rw [List.length_append, List.length_append]
    omega
  have hspine : n - (l.spine + 1) = n' + 1 := by omega
  rw [List.append_assoc, List.append_assoc, hsplit, hlrun, hn', climb_run_step hrule (by rw [hprec]; exact hfits),
    run_bind_ok (hbuild hrrun), spine, hspine, hlength]

theorem ReadsOn.derivative {e : Expr ν} (he : ReadsOn e) (s : Span) (x : String) :
    ReadsOn (.derivative s e x) := by
  intro n m k ts rest hts _ hn _
  obtain ⟨t, ts', rfl, hword, hts'⟩ := List.map_eq_cons_iff.mp hts
  obtain ⟨tes, tcs, rfl, htes, htcs⟩ := List.map_eq_append_iff.mp hts'
  obtain ⟨tw, tcs', rfl, hwrt, htcs'⟩ := List.map_eq_cons_iff.mp htcs
  obtain ⟨tx, rfl, hname⟩ := token_of_words htcs'
  obtain ⟨n, rfl⟩ := Nat.exists_eq_succ_of_ne_zero (Nat.ne_of_gt (Nat.lt_of_lt_of_le (Nat.succ_pos _) hn))
  obtain ⟨hxkind, hxtext⟩ := Prod.mk.inj hname
  have hkeyword := isKeyword_of_word hword
  -- no rule goes on at a keyword, so that the operand ends before its variable is named
  have hnone := extensionRule?_keyword (Prod.mk.inj hwrt).1
  obtain ⟨e', he', hrun⟩ := he.exists_run htes (fits_zero e) (Nat.le_of_succ_le_succ hn)
    (stopsAt_of_none hnone (tx :: rest) 0) (closesAt_of_none hnone (tx :: rest) e) (k + 1)
  refine ⟨.derivative ((t.span.merge e'.span).merge tx.span) e' tx.text,
    by rw [unspanned, unspanned, he', hxtext], ?_⟩
  have hbuild : (Start.derivative.build (readOperand Grammar.standard (n + 1))).run
      ⟨k, t :: (tes ++ tw :: tx :: rest)⟩ =
      .ok (.derivative ((t.span.merge e'.span).merge tx.span) e' tx.text) ⟨k + 1 + tes.length + 1 + 1, rest⟩ := by
    refine (run_bind_ok (run_demand (reads_of_isKeyword hkeyword) k _)).trans ?_
    refine (run_bind_ok hrun).trans ?_
    exact run_readDerivative_by (isKeyword_of_word hwrt) hxkind t e' _ rest
  have htokens : t :: (tes ++ [tw, tx]) ++ rest = t :: (tes ++ tw :: tx :: rest) := by simp
  have hlength : k + (t :: (tes ++ [tw, tx])).length = k + 1 + tes.length + 1 + 1 := by
    simp only [List.length_cons, List.length_append, List.length_nil]
    omega
  rw [htokens, hlength, readOperand_run (startRule?_derivative hkeyword), run_bind_ok hbuild]
  rfl

variable [Arithmetic ν] [LawfulNumeral ν]

theorem readsOn_literal {s : Span} {v : ν} (hw : Writable IsPlain (.literal s v)) : ReadsOn (.literal s v) := by
  intro n m k ts rest hts _ _ _
  obtain ⟨t, rfl, hword⟩ := token_of_words hts
  obtain ⟨hkind, htext⟩ := Prod.mk.inj hword
  refine ⟨.literal t.span v, rfl, ?_⟩
  have hread : (Numeral.read t.text : Except NumeralError ν) = .ok v := by
    rw [htext]
    exact LawfulNumeral.read_digits hw
  have hfinite : Numeral.isFinite v = true := by
    rw [Numeral.isFinite, show Numeral.shape v = .finite false from hw]
    rfl
  have hbuild : (Start.number.build (readOperand Grammar.standard n)).run ⟨k, t :: rest⟩ =
      .ok (.literal t.span v) ⟨k + 1, rest⟩ := by
    refine (run_bind_ok (run_current k t rest)).trans ?_
    rw [readLiteral, hread]
    simp only [hfinite, if_true]
    rfl
  rw [List.singleton_append, readOperand_run (startRule?_number hkind), run_bind_ok hbuild]
  rfl

/-- The induction is on the tree; what follows it is arbitrary, so that the left operand of an operation is read by
    the loop that goes on with the operation. -/
theorem readsOn_of_grouped {e : Expr ν} (hw : Writable IsPlain e) (hg : Grouped e) : ReadsOn e := by
  induction e with
  | var s x => exact readsOn_var s x
  | constant s c => exact readsOn_constant hw
  | literal s v => exact readsOn_literal hw
  | imaginary s => cases hw
  | paren s e ih => exact (ih hw hg).paren s
  | binary s op l r ihl ihr =>
    obtain ⟨⟨hgl, hcloses⟩, hgr, hfits, htight⟩ := hg
    exact (ihl hw.1 hgl).binary (ihr hw.2 hgr) s hw.2 hcloses hfits htight
  | unary s op e ih =>
    cases op with
    | neg => exact (ih hw hg.1).neg s hg.2
    | factorial => exact (ih hw hg.1).factorial s hg.2
  | derivative s e x ih => exact (ih hw.1 hg).derivative s x
  | integral s e x ihe ihx => cases hw
  | definiteIntegral s e x a b ihe ihx iha ihb => cases hw

/-- A grouped tree that fits is read from its words, where nothing follows them. -/
theorem readOperand_of_grouped {e : Expr ν} (hw : Writable IsPlain e) (hg : Grouped e) {n m : Nat} (hfits : Fits m e)
    (hn : e.levels < n) {ts : List Token} (hts : ts.map Token.word = e.words) (k : Nat) :
    ∃ e', e'.unspanned = e.unspanned ∧
      (readOperand Grammar.standard n m).run ⟨k, ts⟩ = .ok e' ⟨k + ts.length, []⟩ := by
  obtain ⟨n, rfl⟩ := Nat.exists_eq_succ_of_ne_zero (Nat.ne_of_gt (Nat.lt_of_le_of_lt (Nat.zero_le _) hn))
  obtain ⟨e', he', hrun⟩ := (readsOn_of_grouped hw hg).exists_run hts hfits (Nat.le_of_lt_succ hn) (stopsAt_nil m)
    (closesAt_nil e) k
  rw [List.append_nil] at hrun
  exact ⟨e', he', hrun⟩

/-- **The words of a grouped tree determine the tree**, up to spans: the parser is a function, and it reads either tree
    from them. -/
theorem unspanned_eq_of_words {e e' : Expr ν} (hw : Writable IsPlain e) (hg : Grouped e) (hw' : Writable IsPlain e')
    (hg' : Grouped e') (h : e.words = e'.words) : e.unspanned = e'.unspanned := by
  let ts : List Token := e.words.map fun w => ⟨w.1, w.2, .nowhere⟩
  have hts : ts.map Token.word = e.words := by
    rw [List.map_map]
    exact List.map_id _
  obtain ⟨t, ht, hrun⟩ := readOperand_of_grouped hw hg (fits_zero e)
    (Nat.lt_succ_of_le (Nat.le_max_left e.levels e'.levels)) hts 0
  obtain ⟨t', ht', hrun'⟩ := readOperand_of_grouped hw' hg' (fits_zero e')
    (Nat.lt_succ_of_le (Nat.le_max_right e.levels e'.levels)) (hts.trans h) 0
  rw [hrun] at hrun'
  cases hrun'
  exact ht.symm.trans ht'

end Parsing

end Formula
