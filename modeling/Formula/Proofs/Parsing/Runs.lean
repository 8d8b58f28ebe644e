import Formula.Proofs.Parsing.Advancing
import Formula.Proofs.Parsing.Reading

/-!
# `Formula.Proofs.Parsing.Runs` — what a run of the parser that succeeds is made of

A run that gives an expression has read an operand, or has gone on from one, by the rules of the standard grammar.
`Run` says by which, one constructor for each rule; whatever holds of all expressions that are read is proved by
induction on it.

## Contents
- `Task`, `Run`.
- `run_of_readOperand` — every run of the parser that succeeds is a `Run`.
-/

namespace Formula

namespace Parsing

variable {ν : Type}

/-- What a run is to do: read an operand, or go on from one, with so many levels left and above a threshold. -/
inductive Task (ν : Type) where
  | operand (levels threshold : Nat)
  | loop (levels threshold : Nat) (lhs : Expr ν)

/-- **The runs that succeed**: a task, the tokens at which it begins, the expression that comes of it and the tokens
    that are left. -/
inductive Run [Numeral ν] : Task ν → List Token → Expr ν → List Token → Prop where
  | name {t ts n m e rest} : t.kind = .name → Run (.loop n m (.var t.span t.text)) ts e rest →
      Run (.operand (n + 1) m) (t :: ts) e rest
  | number {t ts n m v e rest} : t.kind = .number → (Numeral.read t.text : Except NumeralError ν) = .ok v →
      Numeral.isFinite v = true → Run (.loop n m (.literal t.span v)) ts e rest →
      Run (.operand (n + 1) m) (t :: ts) e rest
  | constant {t ts n m c e rest} : t.kind = .constant → Constant.lookup? t.text = some c →
      Run (.loop n m (.constant t.span c)) ts e rest → Run (.operand (n + 1) m) (t :: ts) e rest
  | group {t tc ts ts' n m inner e rest} : t.word = (.symbol, "(") → Run (.operand n lowest) ts inner (tc :: ts') →
      tc.reads ")" = true → Run (.loop n m (.paren (t.span.merge tc.span) inner)) ts' e rest →
      Run (.operand (n + 1) m) (t :: ts) e rest
  | negation {t ts ts' n m inner e rest} : t.word = (.symbol, "-") →
      Run (.operand n UnaryOp.neg.binding.threshold) ts inner ts' →
      Run (.loop n m (.unary (t.span.merge inner.span) .neg inner)) ts' e rest → Run (.operand (n + 1) m) (t :: ts) e rest
  | derivative {t ts ts' n m inner e rest} : t.isKeyword "derivative" = true →
      Run (.operand n lowest) ts inner ts' → (∀ tw ∈ ts'.head?, tw.isKeyword "wrt" = false) →
      Run (.loop n m (.derivative (t.span.merge inner.span) inner (inner.primaryVariable?.getD "x"))) ts' e rest →
      Run (.operand (n + 1) m) (t :: ts) e rest
  | derivativeBy {t tw tx ts ts' n m inner e rest} : t.isKeyword "derivative" = true →
      Run (.operand n lowest) ts inner (tw :: tx :: ts') → tw.isKeyword "wrt" = true → tx.kind = .name →
      Run (.loop n m (.derivative ((t.span.merge inner.span).merge tx.span) inner tx.text)) ts' e rest →
      Run (.operand (n + 1) m) (t :: ts) e rest
  | stop {ts n m lhs} : StopsAt m ts → Run (.loop n m lhs) ts lhs ts
  | binary {t ts ts' n m op lhs rhs e rest} : op ≠ .juxtapose → t.word = (.symbol, op.symbol) →
      m < op.binding.precedence → Run (.operand n op.binding.threshold) ts rhs ts' →
      Run (.loop n m (.binary (lhs.span.merge rhs.span) op lhs rhs)) ts' e rest → Run (.loop (n + 1) m lhs) (t :: ts) e rest
  | juxtaposed {t ts ts' n m lhs rhs e rest} : BeginsFactor t.word → m < BinaryOp.juxtapose.binding.precedence →
      Run (.operand n BinaryOp.juxtapose.binding.threshold) (t :: ts) rhs ts' →
      Run (.loop n m (.binary (lhs.span.merge rhs.span) .juxtapose lhs rhs)) ts' e rest →
      Run (.loop (n + 1) m lhs) (t :: ts) e rest
  | factorial {t ts n m lhs e rest} : t.word = (.symbol, "!") → m < UnaryOp.factorial.binding.precedence →
      Run (.loop n m (.unary (lhs.span.merge t.span) .factorial lhs)) ts e rest → Run (.loop (n + 1) m lhs) (t :: ts) e rest

/-! ## Steps that succeed -/

/-- A step that consumes the next token goes on after it. -/
theorem run_of_current {α : Type} {f : Token → Parsing α} {k : Nat} {t : Token} {ts : List Token} {a : α} {c : Cursor}
    (h : (current >>= f).run ⟨k, t :: ts⟩ = .ok a c) : (f t).run ⟨k + 1, ts⟩ = .ok a c :=
  (run_bind_ok (run_current k t ts)).symm.trans h

theorem run_of_demand {α : Type} {text : String} {f : Token → Parsing α} {k : Nat} {t : Token} {ts : List Token}
    {a : α} {c : Cursor} (h : (demand text >>= f).run ⟨k, t :: ts⟩ = .ok a c) : (f t).run ⟨k + 1, ts⟩ = .ok a c := by
  obtain ⟨t', c', htoken, h⟩ := exists_of_run_bind h
  change (if t.reads text then (pure t : Parsing Token) else throw _).run ⟨k + 1, ts⟩ = _ at htoken
  split at htoken
  · cases htoken
    exact h
  · cases htoken

theorem expect_ok {text : String} {k : Nat} {ts : List Token} {t : Token} {c : Cursor}
    (h : (expect text).run ⟨k, ts⟩ = .ok t c) : ∃ ts', ts = t :: ts' ∧ c = ⟨k + 1, ts'⟩ ∧ t.reads text = true := by
  cases ts with
  | nil => cases h
  | cons t' ts' =>
    change (if t'.reads text then current else complainHere (.expected text)).run ⟨k, t' :: ts'⟩ = _ at h
    split at h
    · next hreads =>
      cases h
      exact ⟨ts', rfl, rfl, hreads⟩
    · cases h

theorem readVariable_ok {k : Nat} {ts : List Token} {t : Token} {c : Cursor}
    (h : readVariable.run ⟨k, ts⟩ = .ok t c) : ∃ ts', ts = t :: ts' ∧ c = ⟨k + 1, ts'⟩ ∧ t.kind = .name := by
  cases ts with
  | nil => cases h
  | cons t' ts' =>
    change (if t'.kind = .name then (pure t' : Parsing Token) else throw _).run ⟨k + 1, ts'⟩ = _ at h
    split at h
    · next hkind =>
      cases h
      exact ⟨ts', rfl, rfl, hkind⟩
    · cases h

theorem readConstant_ok {t : Token} {e : Expr ν} {c c' : Cursor} (h : (readConstant t).run c = .ok e c') :
    ∃ v, Constant.lookup? t.text = some v ∧ e = .constant t.span v ∧ c' = c := by
  rw [readConstant] at h
  split at h
  · next v hv =>
    cases h
    exact ⟨v, hv, rfl, rfl⟩
  · cases h

theorem readLiteral_ok [Numeral ν] {t : Token} {e : Expr ν} {c c' : Cursor} (h : (readLiteral t).run c = .ok e c') :
    ∃ v, (Numeral.read t.text : Except NumeralError ν) = .ok v ∧ Numeral.isFinite v = true ∧ e = .literal t.span v ∧
      c' = c := by
  rw [readLiteral] at h
  split at h
  · cases h
  · next v hv =>
    split at h
    · next hfinite =>
      cases h
      exact ⟨v, hv, hfinite, rfl, rfl⟩
    · cases h

/-- What comes after the operand of a derivative. -/
theorem readDerivative_ok {keyword : Token} {inner e : Expr ν} {k : Nat} {ts : List Token} {c : Cursor}
    (h : (readDerivative keyword inner).run ⟨k, ts⟩ = .ok e c) :
    ((∀ t ∈ ts.head?, t.isKeyword "wrt" = false) ∧ c = ⟨k, ts⟩ ∧
      e = .derivative (keyword.span.merge inner.span) inner (inner.primaryVariable?.getD "x")) ∨
    (∃ tw tx ts', ts = tw :: tx :: ts' ∧ tw.isKeyword "wrt" = true ∧ tx.kind = .name ∧ c = ⟨k + 1 + 1, ts'⟩ ∧
      e = .derivative ((keyword.span.merge inner.span).merge tx.span) inner tx.text) := by
  rw [readDerivative, run_bind_ok (run_peek k ts)] at h
  cases ts with
  | nil =>
    cases h
    refine Or.inl ⟨fun t ht => ?_, rfl, rfl⟩
    cases ht
  | cons tw ts =>
    simp only [List.head?_cons] at h
    cases hw : tw.isKeyword "wrt" with
    | false =>
      rw [hw] at h
      cases h
      refine Or.inl ⟨fun t ht => ?_, rfl, rfl⟩
      obtain rfl := Option.some.inj ht
      exact hw
    | true =>
      rw [hw] at h
      obtain ⟨name, c₁, hname, hpure⟩ := exists_of_run_bind (x := readVariable) (c := ⟨k + 1, ts⟩) h
      obtain ⟨ts', rfl, rfl, hkind⟩ := readVariable_ok hname
      cases hpure
      exact Or.inr ⟨tw, name, ts', rfl, hw, hkind, rfl, rfl⟩

/-- The cursor has counted the tokens that are gone. -/
def Counts (k : Nat) (ts : List Token) (c : Cursor) : Prop := c.consumed + c.rest.length = k + ts.length

variable [Numeral ν]

/-- Reading an operand with so many levels gives a run, and keeps count. -/
def Reads (n : Nat) : Prop :=
  ∀ {m k : Nat} {ts : List Token} {e : Expr ν} {c : Cursor},
    (readOperand (ν := ν) Grammar.standard n m).run ⟨k, ts⟩ = .ok e c → Run (.operand n m) ts e c.rest ∧ Counts k ts c

/-- What a start rule builds begins a run, which goes on with whatever the loop does. -/
theorem run_of_start {n m k : Nat} {ts : List Token} {lhs : Expr ν} {c : Cursor} {t : Token} {start : Start}
    (hread : Reads (ν := ν) n) (hbegins : Begins t start)
    (h : (start.build (readOperand Grammar.standard n)).run ⟨k, t :: ts⟩ = .ok lhs c) :
    Counts k (t :: ts) c ∧ ∀ {e rest}, Run (.loop n m lhs) c.rest e rest → Run (.operand (n + 1) m) (t :: ts) e rest := by
  cases hbegins with
  | name hkind =>
    cases h
    exact ⟨by simp [Counts]; omega, fun hloop => .name hkind hloop⟩
  | number hkind =>
    obtain ⟨v, hv, hfinite, rfl, rfl⟩ := readLiteral_ok (run_of_current h)
    exact ⟨by simp [Counts]; omega, fun hloop => .number hkind hv hfinite hloop⟩
  | constant hkind =>
    obtain ⟨v, hv, rfl, rfl⟩ := readConstant_ok (run_of_current h)
    exact ⟨by simp [Counts]; omega, fun hloop => .constant hkind hv hloop⟩
  | group hword =>
    obtain ⟨inner, ⟨k₂, ts₂⟩, hinner, h⟩ := exists_of_run_bind (run_of_demand h)
    obtain ⟨hrun, hcounts⟩ := hread hinner
    obtain ⟨tc, c₃, hclose, h⟩ := exists_of_run_bind h
    obtain ⟨ts', rfl, rfl, hreads⟩ := expect_ok hclose
    cases h
    refine ⟨?_, fun hloop => .group hword hrun hreads hloop⟩
    simp only [Counts, List.length_cons] at hcounts ⊢
    omega
  | negation hword =>
    obtain ⟨inner, c₂, hinner, h⟩ := exists_of_run_bind (run_of_demand h)
    obtain ⟨hrun, hcounts⟩ := hread hinner
    cases h
    refine ⟨?_, fun hloop => .negation hword hrun hloop⟩
    simp only [Counts, List.length_cons] at hcounts ⊢
    omega
  | derivative hkeyword =>
    obtain ⟨inner, ⟨k₂, ts₂⟩, hinner, h⟩ := exists_of_run_bind (run_of_demand h)
    obtain ⟨hrun, hcounts⟩ := hread hinner
    simp only [Counts, List.length_cons] at hrun hcounts ⊢
    rcases readDerivative_ok h with ⟨hwrt, rfl, rfl⟩ | ⟨tw, tx, ts', rfl, hwrt, hkind, rfl, rfl⟩
    · refine ⟨?_, fun hloop => .derivative hkeyword hrun hwrt hloop⟩
      show k₂ + ts₂.length = _
      omega
    · refine ⟨?_, fun hloop => .derivativeBy hkeyword hrun hwrt hkind hloop⟩
      simp only [List.length_cons] at hcounts
      show k₂ + 1 + 1 + ts'.length = _
      omega
  | integral hkeyword => cases h

/-- What an extension rule builds is one round of the loop, which goes on with whatever the loop does next. -/
theorem run_of_extension {n m k : Nat} {ts : List Token} {lhs lhs' : Expr ν} {c : Cursor} {t : Token}
    {rule : ExtensionRule} (hread : Reads (ν := ν) n) (hcontinues : Continues t rule) (hm : m < rule.precedence)
    (h : (rule.build (readOperand Grammar.standard n) lhs).run ⟨k, t :: ts⟩ = .ok lhs' c) :
    Counts k (t :: ts) c ∧
      ∀ {e rest}, Run (.loop n m lhs') c.rest e rest → Run (.loop (n + 1) m lhs) (t :: ts) e rest := by
  cases hcontinues with
  | @binary op hop hword =>
    obtain ⟨rhs, c₂, hrhs, h⟩ := exists_of_run_bind (run_of_current h)
    obtain ⟨hrun, hcounts⟩ := hread hrhs
    cases h
    refine ⟨?_, fun hloop => .binary hop hword hm hrun hloop⟩
    simp only [Counts, List.length_cons] at hcounts ⊢
    omega
  | factorial hword =>
    cases h
    exact ⟨by simp [Counts]; omega, fun hloop => .factorial hword hm hloop⟩
  | juxtaposed hfactor =>
    obtain ⟨rhs, c₂, hrhs, h⟩ := exists_of_run_bind (x := readOperand Grammar.standard n _) h
    obtain ⟨hrun, hcounts⟩ := hread hrhs
    cases h
    exact ⟨hcounts, fun hloop => .juxtaposed hfactor hm hrun hloop⟩

/-- Reading an operand that succeeds has a start rule and goes on. -/
theorem readOperand_ok {g : Grammar} {n m k : Nat} {ts : List Token} {e : Expr ν} {c : Cursor}
    (h : (readOperand (ν := ν) g n m).run ⟨k, ts⟩ = .ok e c) :
    ∃ n' t ts' rule, n = n' + 1 ∧ ts = t :: ts' ∧ g.startRule? t = some rule ∧
      (rule.start.build (readOperand g n') >>= climb g n' m).run ⟨k, ts⟩ = .ok e c := by
  cases n with
  | zero =>
    rw [readOperand] at h
    cases ts <;> cases h
  | succ n =>
    rcases missing_or_exists_startRule g ts with hmissing | ⟨t, ts, rule, rfl, hrule⟩
    · rw [readOperand_run_missing hmissing] at h
      cases ts <;> cases h
    · exact ⟨n, t, ts, rule, rfl, rfl, hrule, (readOperand_run hrule n m k ts).symm.trans h⟩

/-- The loop that succeeds has stopped, or goes on after an extension rule. -/
theorem climb_ok {g : Grammar} {n m k : Nat} {ts : List Token} {lhs e : Expr ν} {c : Cursor}
    (h : (climb g n m lhs).run ⟨k, ts⟩ = .ok e c) :
    (Stops g m ts ∧ e = lhs ∧ c = ⟨k, ts⟩) ∨
    ∃ n' t ts' rule, n = n' + 1 ∧ ts = t :: ts' ∧ g.extensionRule? t = some rule ∧ m < rule.precedence ∧
      (rule.build (readOperand g n') lhs >>= climb g n' m).run ⟨k, ts⟩ = .ok e c := by
  by_cases hstops : Stops g m ts
  · rw [climb_run_of_stops hstops] at h
    cases h
    exact Or.inl ⟨hstops, rfl, rfl⟩
  · obtain ⟨t, ts', rule, rfl, hrule, hm⟩ := exists_rule_of_not_stops hstops
    refine Or.inr ?_
    cases n with
    | zero =>
      rw [climb_run_nested hrule hm] at h
      cases h
    | succ n => exact ⟨n, t, ts', rule, rfl, rfl, hrule, hm, (climb_run_step hrule hm n k ts' lhs).symm.trans h⟩

/-- Going on with so many levels gives a run, and keeps count. -/
def GoesOn (n : Nat) : Prop :=
  ∀ {m k : Nat} {ts : List Token} {lhs e : Expr ν} {c : Cursor},
    (climb Grammar.standard n m lhs).run ⟨k, ts⟩ = .ok e c → Run (.loop n m lhs) ts e c.rest ∧ Counts k ts c

/-- The loop with one more level. -/
theorem goesOn_of {n : Nat} (h : ∀ n', n = n' + 1 → Reads (ν := ν) n' ∧ GoesOn (ν := ν) n') : GoesOn (ν := ν) n := by
  intro m k ts lhs e c hclimb
  rcases climb_ok hclimb with ⟨hstops, rfl, rfl⟩ | ⟨n', t, ts', rule, rfl, rfl, hrule, hm, hrun⟩
  · exact ⟨.stop hstops, rfl⟩
  · obtain ⟨lhs', ⟨k₁, ts₁⟩, hbuild, hrun⟩ := exists_of_run_bind hrun
    obtain ⟨hread, hgoes⟩ := h n' rfl
    obtain ⟨hcounts, hgo⟩ := run_of_extension hread (continues_of_extensionRule? hrule) hm hbuild
    obtain ⟨hloop, hcounts'⟩ := hgoes hrun
    exact ⟨hgo hloop, hcounts'.trans hcounts⟩

/-- **Every run of the two loops that succeeds is a `Run`**, by induction on the levels that are left. -/
theorem run_of_loops (n : Nat) : Reads (ν := ν) n ∧ GoesOn (ν := ν) n := by
  induction n with
  | zero =>
    refine ⟨fun h => ?_, goesOn_of fun n' hn => by cases hn⟩
    obtain ⟨n', -, -, -, hn, -⟩ := readOperand_ok h
    cases hn
  | succ n ih =>
    refine ⟨fun h => ?_, goesOn_of fun n' hn => ?_⟩
    · obtain ⟨n', t, ts', rule, hn, rfl, hrule, hrun⟩ := readOperand_ok h
      obtain rfl := Nat.succ.inj hn
      obtain ⟨lhs, ⟨k₁, ts₁⟩, hbuild, hrun⟩ := exists_of_run_bind hrun
      obtain ⟨hcounts, hgo⟩ := run_of_start ih.1 (begins_of_startRule? hrule) hbuild
      obtain ⟨hloop, hcounts'⟩ := ih.2 hrun
      exact ⟨hgo hloop, hcounts'.trans hcounts⟩
    · obtain rfl := Nat.succ.inj hn
      exact ih

/-- **A list of tokens that is read as an expression** has a run over all of it. -/
theorem run_of_parseAll {ts : List Token} {e : Expr ν} (h : parseAll Grammar.standard ts = .ok e) :
    Run (.operand maxNesting lowest) ts e [] :=
  ((run_of_loops maxNesting).1 (exists_run_of_parseAll h)).1

end Parsing

end Formula
