import Formula.Proofs.Parsing.Language
import Formula.Proofs.Parsing.Nesting

/-!
# `Formula.Proofs.Parsing.Acceptance` — the parser accepts the whole input language

Since precedences do not matter for what is derived, a list of tokens can be checked from left to right, keeping
track only of whether an operand or an operator comes next and of how many derivatives are open within each group.
What the grammar derives passes the check, whichever way it was derived; and where the rest of the tokens passes, the
parser goes on, so that none of its choices has to be taken back.

## Contents
- `Passes`, `passes_of_language` — the check, which a list of tokens of the language passes.
- `ParseError.NumberTooLarge`, `Leads` — what is left by a step that succeeds, unless a number is too large.
- `leads_of_passes` — where the tokens pass, the parser leaves tokens that do.
- `parseAll_iff_language` — the parser accepts the language, apart from what is too large.
-/

namespace Formula

open Lexis

/-- The error that says that a number is too large. -/
def ParseError.NumberTooLarge (err : ParseError) : Prop := ∃ l, err = .diagnosed ⟨.numberTooLarge, l⟩

namespace Parsing

/-- What comes next in an expression. -/
inductive Next where
  | operand
  | operator

/-- **The tokens that can be left** where an operand or an operator comes next: `d` derivatives are open in the
    innermost group, and in the groups around it the numbers in the list. -/
inductive Passes : Next → Nat → List Nat → List Token → Prop where
  | leaf {t ts d ds} : IsWord t.kind t.text → t.kind = .name ∨ t.kind = .constant ∨ t.kind = .number →
      Passes .operator d ds ts → Passes .operand d ds (t :: ts)
  | opened {t ts d ds} : t.word = (.symbol, "(") → Passes .operand 0 (d :: ds) ts → Passes .operand d ds (t :: ts)
  | minus {t ts d ds} : t.word = (.symbol, "-") → Passes .operand d ds ts → Passes .operand d ds (t :: ts)
  | derivative {t ts d ds} : t.isKeyword "derivative" = true → Passes .operand (d + 1) ds ts →
      Passes .operand d ds (t :: ts)
  | ended {d} : Passes .operator d [] []
  | closed {t ts d d' ds} : t.word = (.symbol, ")") → Passes .operator d ds ts → Passes .operator d' (d :: ds) (t :: ts)
  | derivativeBy {tw tx ts d ds} : tw.isKeyword "wrt" = true → tx.kind = .name → Passes .operator d ds ts →
      Passes .operator (d + 1) ds (tw :: tx :: ts)
  | operation {t ts d ds} {op : BinaryOp} : op ≠ .juxtapose → t.word = (.symbol, op.symbol) → Passes .operand d ds ts →
      Passes .operator d ds (t :: ts)
  | factorial {t ts d ds} : t.word = (.symbol, "!") → Passes .operator d ds ts → Passes .operator d ds (t :: ts)
  | factor {t ts d ds} : BeginsFactor t.word → Passes .operand d ds (t :: ts) → Passes .operator d ds (t :: ts)

theorem Passes.ne_nil {d : Nat} {ds : List Nat} {ts : List Token} (h : Passes .operand d ds ts) : ts ≠ [] := by
  cases h <;> simp

/-- **What the grammar derives passes**, whatever follows it, and opens derivatives at most. -/
theorem passes_of_language {vs : List Token} (h : Language vs) :
    Genuine vs → ∀ d ds, ∃ d', d ≤ d' ∧ ∀ rest, Passes .operator d' ds rest → Passes .operand d ds (vs ++ rest) := by
  induction h with
  | name hkind =>
    intro hgen d ds
    refine ⟨d, Nat.le_refl d, ?_⟩
    intro rest hrest
    exact .leaf (hgen _ List.mem_cons_self) (Or.inl hkind) hrest
  | constant hkind htext =>
    intro hgen d ds
    refine ⟨d, Nat.le_refl d, ?_⟩
    intro rest hrest
    exact .leaf (hgen _ List.mem_cons_self) (Or.inr (Or.inl hkind)) hrest
  | number hkind =>
    intro hgen d ds
    refine ⟨d, Nat.le_refl d, ?_⟩
    intro rest hrest
    exact .leaf (hgen _ List.mem_cons_self) (Or.inr (Or.inr hkind)) hrest
  | @group topen ts tclose hopen hts hclose ih =>
    intro hgen d ds
    -- what is open inside the group is forgotten at its end
    obtain ⟨d', -, hpass⟩ := ih hgen.tail.left 0 (d :: ds)
    refine ⟨d, Nat.le_refl d, ?_⟩
    intro rest hrest
    have hafter : Passes .operator d' (d :: ds) (tclose :: rest) := .closed hclose hrest
    rw [List.cons_append, List.append_assoc]
    exact .opened hopen (hpass (tclose :: rest) hafter)
  | @negation t ts hminus hts ih =>
    intro hgen d ds
    obtain ⟨d', hle, hpass⟩ := ih hgen.tail d ds
    refine ⟨d', hle, ?_⟩
    intro rest hrest
    exact .minus hminus (hpass rest hrest)
  | @derivative t ts hkeyword hts ih =>
    intro hgen d ds
    obtain ⟨d', hle, hpass⟩ := ih hgen.tail (d + 1) ds
    refine ⟨d', Nat.le_of_succ_le hle, ?_⟩
    intro rest hrest
    exact .derivative hkeyword (hpass rest hrest)
  | @derivativeBy t ts tw tx hkeyword hts hwrt hkind ih =>
    intro hgen d ds
    -- the operand leaves the derivative open, so that the variable may be named
    obtain ⟨d', hle, hpass⟩ := ih hgen.tail.left (d + 1) ds
    obtain ⟨d', rfl⟩ := Nat.exists_eq_succ_of_ne_zero (Nat.ne_of_gt (Nat.lt_of_lt_of_le (Nat.succ_pos d) hle))
    refine ⟨d', Nat.le_of_succ_le_succ hle, ?_⟩
    intro rest hrest
    have hafter : Passes .operator (d' + 1) ds (tw :: tx :: rest) := .derivativeBy hwrt hkind hrest
    rw [List.cons_append, List.append_assoc]
    exact .derivative hkeyword (hpass (tw :: tx :: rest) hafter)
  | @operation us t vs hus hkind htext hvs ihus ihvs =>
    intro hgen d ds
    obtain ⟨op, hop, hword⟩ := exists_binaryOp hkind htext
    obtain ⟨d₁, hle₁, hpass₁⟩ := ihus hgen.left d ds
    obtain ⟨d₂, hle₂, hpass₂⟩ := ihvs hgen.right.tail d₁ ds
    refine ⟨d₂, Nat.le_trans hle₁ hle₂, ?_⟩
    intro rest hrest
    have hafter : Passes .operator d₁ ds (t :: vs ++ rest) := .operation hop hword (hpass₂ rest hrest)
    rw [List.append_assoc]
    exact hpass₁ (t :: vs ++ rest) hafter
  | @factorial ts t hts hword ih =>
    intro hgen d ds
    obtain ⟨d', hle, hpass⟩ := ih hgen.left d ds
    refine ⟨d', hle, ?_⟩
    intro rest hrest
    have hafter : Passes .operator d' ds (t :: rest) := .factorial hword hrest
    rw [List.append_assoc]
    exact hpass (t :: rest) hafter
  | @juxtaposed us t vs hus hfactor hvs ihus ihvs =>
    intro hgen d ds
    obtain ⟨d₁, hle₁, hpass₁⟩ := ihus hgen.left d ds
    obtain ⟨d₂, hle₂, hpass₂⟩ := ihvs hgen.right d₁ ds
    refine ⟨d₂, Nat.le_trans hle₁ hle₂, ?_⟩
    intro rest hrest
    have hafter : Passes .operator d₁ ds (t :: vs ++ rest) := .factor hfactor (hpass₂ rest hrest)
    rw [List.append_assoc]
    exact hpass₁ (t :: vs ++ rest) hafter

/-! ## Steps that succeed unless a number is too large -/

variable {α β : Type}

/-- **What is left by a step** has a property, unless the step gives up because a number is too large. -/
def Leads (x : Parsing α) (ts : List Token) (Q : List Token → Prop) : Prop :=
  ∀ k, (∃ a c, x.run ⟨k, ts⟩ = .ok a c ∧ Q c.rest) ∨ ∃ err c, x.run ⟨k, ts⟩ = .error err c ∧ err.NumberTooLarge

theorem Leads.bind {x : Parsing α} {f : α → Parsing β} {ts : List Token} {Q R : List Token → Prop} (hx : Leads x ts Q)
    (hf : ∀ a ts', Q ts' → Leads (f a) ts' R) : Leads (x >>= f) ts R := by
  intro k
  rcases hx k with ⟨a, ⟨k', ts'⟩, hrun, hQ⟩ | ⟨err, c, hrun, herr⟩
  · rw [run_bind_ok hrun]
    exact hf a ts' hQ k'
  · exact Or.inr ⟨err, c, run_bind_error hrun, herr⟩

theorem Leads.mono {x : Parsing α} {ts : List Token} {Q R : List Token → Prop} (hx : Leads x ts Q)
    (h : ∀ rest, Q rest → R rest) : Leads x ts R := by
  intro k
  rcases hx k with ⟨a, c, hrun, hQ⟩ | herr
  · exact Or.inl ⟨a, c, hrun, h c.rest hQ⟩
  · exact Or.inr herr

theorem Leads.of_run {x : Parsing α} {ts ts' : List Token} {Q : List Token → Prop}
    (hrun : ∀ k, ∃ a k', x.run ⟨k, ts⟩ = .ok a ⟨k', ts'⟩) (hQ : Q ts') : Leads x ts Q := by
  intro k
  obtain ⟨a, k', h⟩ := hrun k
  exact Or.inl ⟨a, ⟨k', ts'⟩, h, hQ⟩

theorem Leads.of_run_eq {x y : Parsing α} {ts : List Token} {Q : List Token → Prop}
    (h : ∀ k, x.run ⟨k, ts⟩ = y.run ⟨k, ts⟩) (hy : Leads y ts Q) : Leads x ts Q := by
  intro k
  rw [h k]
  exact hy k

theorem Leads.pure {ts : List Token} {Q : List Token → Prop} (a : α) (hQ : Q ts) : Leads (pure a) ts Q :=
  .of_run (fun k => ⟨a, k, rfl⟩) hQ

theorem leads_current {t : Token} {ts : List Token} : Leads current (t :: ts) (· = ts) :=
  .of_run (fun k => ⟨t, k + 1, rfl⟩) rfl

theorem leads_demand {text : String} {t : Token} (h : t.reads text = true) {ts : List Token} :
    Leads (demand text) (t :: ts) (· = ts) :=
  .of_run (fun k => ⟨t, k + 1, run_demand h k ts⟩) rfl

theorem leads_expect {text : String} {t : Token} (h : t.reads text = true) {ts : List Token} :
    Leads (expect text) (t :: ts) (· = ts) :=
  .of_run (fun k => ⟨t, k + 1, run_expect h k ts⟩) rfl

/-! ## The parser goes on where the tokens pass -/

/-- A token without an extension rule that binds tighter than nothing does not go on. -/
theorem not_stopsAt_lowest {t : Token} {ts : List Token} {rule : ExtensionRule}
    (h : Grammar.standard.extensionRule? t = some rule) : ¬ StopsAt lowest (t :: ts) := by
  intro hstops
  have hle := hstops t rfl rule h
  have hpos : 0 < rule.precedence := by
    have hmem := List.mem_of_find?_eq_some h
    have hall : ∀ rule ∈ Grammar.standard.extensions, 0 < rule.precedence := by decide
    exact hall rule hmem
  exact absurd hle (Nat.not_le.mpr hpos)

/-- **Where an operand of the lowest threshold ends**, the tokens end, or a group does, or a derivative. -/
theorem Passes.cases_of_stopsAt {d : Nat} {ds : List Nat} {ts : List Token} (h : Passes .operator d ds ts)
    (hstops : StopsAt lowest ts) :
    (ts = [] ∧ ds = []) ∨
    (∃ t ts' d' ds', ts = t :: ts' ∧ ds = d' :: ds' ∧ t.word = (.symbol, ")") ∧ Passes .operator d' ds' ts') ∨
    (∃ tw tx ts' d', ts = tw :: tx :: ts' ∧ d = d' + 1 ∧ tw.isKeyword "wrt" = true ∧ tx.kind = .name ∧
      Passes .operator d' ds ts') := by
  cases h with
  | ended => exact Or.inl ⟨rfl, rfl⟩
  | closed hclose hpass => exact Or.inr (Or.inl ⟨_, _, _, _, rfl, rfl, hclose, hpass⟩)
  | derivativeBy hwrt hkind hpass => exact Or.inr (Or.inr ⟨_, _, _, _, rfl, rfl, hwrt, hkind, hpass⟩)
  | operation hop hword hpass => exact absurd hstops (not_stopsAt_lowest (extensionRule?_binary hop hword))
  | factorial hword hpass => exact absurd hstops (not_stopsAt_lowest (extensionRule?_factorial hword))
  | factor hfactor hpass =>
    obtain ⟨tm, hrule⟩ := extensionRule?_juxtaposed hfactor
    exact absurd hstops (not_stopsAt_lowest hrule)

variable {ν : Type}

/-- A derivative takes the variable that is named after it, if one is. -/
theorem leads_readDerivative {d : Nat} {ds : List Nat} {ts : List Token} (h : Passes .operator (d + 1) ds ts)
    (hstops : StopsAt lowest ts) (keyword : Token) (e : Expr ν) :
    Leads (readDerivative keyword e) ts fun rest => Passes .operator d ds rest ∧ rest.length ≤ ts.length := by
  rcases h.cases_of_stopsAt hstops with ⟨rfl, rfl⟩ | ⟨t, ts, d', ds, rfl, rfl, hclose, hpass⟩ |
    ⟨tw, tx, ts, d', rfl, hd, hwrt, hkind, hpass⟩
  · exact .of_run (fun k => ⟨_, k, run_readDerivative (fun t ht => by cases ht) keyword e k⟩)
      ⟨.ended, Nat.le_refl _⟩
  · refine .of_run (fun k => ⟨_, k, run_readDerivative (fun t' ht => ?_) keyword e k⟩)
      ⟨.closed hclose hpass, Nat.le_refl _⟩
    obtain rfl := Option.some.inj ht
    have hkind : t.kind = .symbol := (Prod.mk.inj hclose).1
    rw [Token.isKeyword, hkind]
    rfl
  · obtain rfl := Nat.succ.inj hd
    exact .of_run (fun k => ⟨_, k + 1 + 1, run_readDerivative_by hwrt hkind keyword e k ts⟩)
      ⟨hpass, by simp only [List.length_cons]; omega⟩

variable [Numeral ν]

/-- Reading an operand with so many levels leaves tokens that pass. -/
def OperandsLead (ν : Type) [Numeral ν] (n : Nat) : Prop :=
  ∀ {d ds ts} m, Passes .operand d ds ts → 2 * ts.length ≤ n →
    Leads (readOperand (ν := ν) Grammar.standard n m) ts fun rest =>
      Passes .operator d ds rest ∧ StopsAt m rest ∧ rest.length < ts.length

/-- So does going on. -/
def LoopsLead (ν : Type) [Numeral ν] (n : Nat) : Prop :=
  ∀ {d ds ts} m (lhs : Expr ν), Passes .operator d ds ts → 2 * ts.length + 1 ≤ n →
    Leads (climb Grammar.standard n m lhs) ts fun rest =>
      Passes .operator d ds rest ∧ StopsAt m rest ∧ rest.length ≤ ts.length

/-- Where an operator comes next and the loop does not stop, an extension rule reads all of what it needs. -/
theorem leads_extension {n m d : Nat} {ds : List Nat} {ts : List Token} (hread : OperandsLead ν n)
    (h : Passes .operator d ds ts) (hstops : ¬ StopsAt m ts) (hn : 2 * ts.length ≤ n) (lhs : Expr ν) :
    ∃ t ts' rule, ts = t :: ts' ∧ Grammar.standard.extensionRule? t = some rule ∧ m < rule.precedence ∧
      Leads (rule.build (readOperand Grammar.standard n) lhs) ts fun rest =>
        Passes .operator d ds rest ∧ rest.length < ts.length := by
  -- whatever rule the next token has, it binds tighter than the threshold
  have hlt : ∀ {t : Token} {ts' : List Token} {rule : ExtensionRule}, ts = t :: ts' →
      Grammar.standard.extensionRule? t = some rule → m < rule.precedence := by
    intro t ts' rule hts hrule
    refine Nat.lt_of_not_le fun hle => hstops fun t' ht rule' hrule' => ?_
    subst hts
    obtain rfl := Option.some.inj ht
    obtain rfl := Option.some.inj (hrule.symm.trans hrule')
    exact hle
  cases h with
  | ended => exact absurd (stopsAt_nil m) hstops
  | closed hclose hpass => exact absurd (stopsAt_of_none (extensionRule?_close hclose) _ m) hstops
  | derivativeBy hwrt hkind hpass =>
    rw [Token.isKeyword, Bool.and_eq_true, beq_iff_eq] at hwrt
    exact absurd (stopsAt_of_none (extensionRule?_keyword hwrt.1) _ m) hstops
  | @operation t ts d ds op hop hword hpass =>
    have hrule := extensionRule?_binary hop hword
    have hlevels : 2 * ts.length ≤ n := by
      rw [List.length_cons] at hn
      omega
    refine ⟨t, ts, _, rfl, hrule, hlt rfl hrule, ?_⟩
    apply Leads.bind (x := current) leads_current
    rintro _ _ rfl
    apply (hread _ hpass hlevels).bind
    rintro rhs rest ⟨hrest, -, hlength⟩
    exact .pure _ ⟨hrest, Nat.lt_of_lt_of_le hlength (Nat.le_succ _)⟩
  | @factorial t ts d ds hword hpass =>
    have hrule := extensionRule?_factorial hword
    refine ⟨t, ts, _, rfl, hrule, hlt rfl hrule, ?_⟩
    exact .of_run (fun k => ⟨_, k + 1, rfl⟩) ⟨hpass, Nat.lt_succ_self _⟩
  | @factor t ts d ds hfactor hpass =>
    obtain ⟨tm, hrule⟩ := extensionRule?_juxtaposed hfactor
    refine ⟨t, ts, _, rfl, hrule, hlt rfl hrule, ?_⟩
    apply Leads.bind (x := readOperand Grammar.standard n _) (hread _ hpass hn)
    rintro rhs rest ⟨hrest, -, hlength⟩
    exact .pure _ ⟨hrest, hlength⟩

variable [Arithmetic ν] [LawfulNumeral ν]

/-- A leaf is read, unless it is a number that is too large. -/
theorem leads_leaf {t : Token} (hword : IsWord t.kind t.text)
    (hkind : t.kind = .name ∨ t.kind = .constant ∨ t.kind = .number) (ts : List Token) (n : Nat) :
    ∃ rule, Grammar.standard.startRule? t = some rule ∧
      Leads (rule.start.build (readOperand (ν := ν) Grammar.standard n)) (t :: ts) (· = ts) := by
  rcases hkind with hkind | hkind | hkind
  · exact ⟨_, startRule?_name hkind, .of_run (fun k => ⟨_, k + 1, rfl⟩) rfl⟩
  · refine ⟨_, startRule?_constant hkind, ?_⟩
    rw [hkind] at hword
    obtain ⟨c, hc⟩ : ∃ c, Constant.lookup? t.text = some c := by
      rcases hword.constant with h | h <;> rw [h] <;> exact ⟨_, rfl⟩
    refine .of_run (fun k => ⟨.constant t.span c, k + 1, (run_bind_ok (run_current k t ts)).trans ?_⟩) rfl
    rw [readConstant, hc]
    rfl
  · refine ⟨_, startRule?_number hkind, fun k => ?_⟩
    rw [hkind] at hword
    obtain ⟨v, hread, hshape⟩ := LawfulNumeral.exists_read (ν := ν) hword.number
    show (∃ a c, (current >>= readLiteral).run ⟨k, t :: ts⟩ = .ok a c ∧ c.rest = ts) ∨
      ∃ err c, (current >>= readLiteral (ν := ν)).run ⟨k, t :: ts⟩ = .error err c ∧ err.NumberTooLarge
    rw [run_bind_ok (run_current k t ts), readLiteral, hread]
    rcases hshape with hshape | hshape <;> simp only [Numeral.isFinite, hshape]
    · exact Or.inl ⟨_, _, rfl, rfl⟩
    · exact Or.inr ⟨_, _, rfl, _, rfl⟩

/-- Where an operand comes next there is a start rule, and it reads all of the operand's beginning. -/
theorem leads_start {n d : Nat} {ds : List Nat} {t : Token} {ts : List Token} (hread : OperandsLead ν n)
    (h : Passes .operand d ds (t :: ts)) (hn : 2 * ts.length ≤ n) : ∃ rule, Grammar.standard.startRule? t = some rule ∧
      Leads (rule.start.build (readOperand (ν := ν) Grammar.standard n)) (t :: ts) fun rest =>
        Passes .operator d ds rest ∧ rest.length ≤ ts.length := by
  cases h with
  | leaf hword hkind hpass =>
    obtain ⟨rule, hrule, hleads⟩ := leads_leaf (ν := ν) hword hkind ts n
    refine ⟨rule, hrule, hleads.mono ?_⟩
    rintro _ rfl
    exact ⟨hpass, Nat.le_refl _⟩
  | opened hword hpass =>
    refine ⟨_, startRule?_open hword, ?_⟩
    apply (leads_demand (reads_of_word hword)).bind
    rintro _ _ rfl
    apply (hread lowest hpass hn).bind
    rintro inner rest ⟨hrest, hstops, hlt⟩
    -- no derivative is open in a group that has just been opened
    rcases hrest.cases_of_stopsAt hstops with ⟨-, hnil⟩ | ⟨tc, ts', d', ds', rfl, hds, hclose, hpass'⟩ |
      ⟨_, _, _, _, -, hzero, -⟩
    · cases hnil
    · cases hds
      apply (leads_expect (reads_of_word hclose)).bind
      rintro _ _ rfl
      exact .pure _ ⟨hpass', Nat.le_of_lt (Nat.lt_of_succ_lt hlt)⟩
    · cases hzero
  | minus hword hpass =>
    refine ⟨_, startRule?_minus hword, ?_⟩
    apply (leads_demand (reads_of_word hword)).bind
    rintro _ _ rfl
    apply (hread _ hpass hn).bind
    rintro e rest ⟨hrest, -, hlength⟩
    exact .pure _ ⟨hrest, Nat.le_of_lt hlength⟩
  | derivative hkeyword hpass =>
    refine ⟨_, startRule?_derivative hkeyword, ?_⟩
    apply (leads_demand (reads_of_isKeyword hkeyword)).bind
    rintro keyword _ rfl
    apply (hread lowest hpass hn).bind
    rintro e rest ⟨hrest, hstops, hlt⟩
    apply (leads_readDerivative hrest hstops keyword e).mono
    rintro rest' ⟨hrest', hle⟩
    exact ⟨hrest', by omega⟩

/-- **Where the tokens pass, the parser leaves tokens that do**, with two levels for each token. The induction is on
    the levels; a round of the loop reads an operand with one level less, and goes on with fewer tokens. -/
theorem leads_of_passes (n : Nat) : OperandsLead ν n ∧ LoopsLead ν n := by
  induction n with
  | zero =>
    constructor
    · intro d ds ts m h hn
      exact absurd (List.eq_nil_of_length_eq_zero (by omega)) h.ne_nil
    · intro d ds ts m lhs h hn
      exact absurd hn (Nat.not_succ_le_zero _)
  | succ n ih =>
    obtain ⟨hread, hloop⟩ := ih
    constructor
    · intro d ds ts m h hn
      obtain ⟨t, ts, rfl⟩ := List.exists_cons_of_ne_nil h.ne_nil
      rw [List.length_cons] at hn ⊢
      obtain ⟨rule, hrule, hbuild⟩ := leads_start hread h (by omega)
      apply Leads.of_run_eq (fun k => readOperand_run hrule n m k ts)
      apply hbuild.bind
      rintro lhs rest ⟨hrest, hlength⟩
      apply (hloop m lhs hrest (by omega)).mono
      rintro rest' ⟨hrest', hstops, hle⟩
      exact ⟨hrest', hstops, by omega⟩
    · intro d ds ts m lhs h hn
      by_cases hstops : StopsAt m ts
      · exact .of_run (fun k => ⟨lhs, k, climb_run_of_stopsAt hstops (n + 1) k lhs⟩) ⟨h, hstops, Nat.le_refl _⟩
      · obtain ⟨t, ts', rule, rfl, hrule, hm, hbuild⟩ := leads_extension hread h hstops (Nat.le_of_succ_le_succ hn) lhs
        apply Leads.of_run_eq (fun k => climb_run_step hrule hm n k ts' lhs)
        apply hbuild.bind
        rintro lhs' rest ⟨hrest, hlength⟩
        apply (hloop m lhs' hrest (by omega)).mono
        rintro rest' ⟨hrest', hstops', hle⟩
        exact ⟨hrest', hstops', by omega⟩

/-- With levels enough, tokens that pass are read to their end. -/
theorem readOperand_of_passes {ts : List Token} (h : Passes .operand 0 [] ts) {n : Nat} (hn : 2 * ts.length ≤ n) :
    (∃ e : Expr ν, (readOperand Grammar.standard n lowest).run ⟨0, ts⟩ = .ok e ⟨ts.length, []⟩) ∨
      ∃ err c, (readOperand (ν := ν) Grammar.standard n lowest).run ⟨0, ts⟩ = .error err c ∧ err.NumberTooLarge := by
  rcases (leads_of_passes (ν := ν) n).1 lowest h hn 0 with ⟨e, ⟨k, rest⟩, hrun, hrest, hstops, -⟩ | herr
  · refine Or.inl ⟨e, ?_⟩
    -- there is no group or derivative around the expression that it could end with
    have hnil : rest = [] := by
      rcases hrest.cases_of_stopsAt hstops with ⟨hnil, -⟩ | ⟨_, _, _, _, -, hgroup, -⟩ | ⟨_, _, _, _, -, hzero, -⟩
      · exact hnil
      · cases hgroup
      · cases hzero
    have hcounts : k + rest.length = 0 + ts.length := ((run_of_loops n).1 hrun).2
    rw [hnil, List.length_nil, Nat.zero_add, Nat.add_zero] at hcounts
    rwa [hnil, hcounts] at hrun
  · exact Or.inr herr

/-- **What is in the language is accepted**, apart from what is too large. -/
theorem accepts_of_language {ts : List Token} (hts : Genuine ts) (h : Language ts) :
    (∃ e : Expr ν, parseAll Grammar.standard ts = .ok e) ∨
      ∃ err, parseAll (ν := ν) Grammar.standard ts = .error err ∧ (err.NestedTooDeeply ∨ err.NumberTooLarge) := by
  -- derivatives may stay open at the end of the tokens
  have hpass : Passes .operand 0 [] ts := by
    obtain ⟨d, -, hpass⟩ := passes_of_language h hts 0 []
    simpa using hpass [] .ended
  have hlevels : 2 * ts.length ≤ max maxNesting (2 * ts.length) := Nat.le_max_right _ _
  have hnesting : maxNesting ≤ max maxNesting (2 * ts.length) := Nat.le_max_left _ _
  rcases readOperand_within (ν := ν) Grammar.standard hnesting lowest ⟨0, ts⟩ with heq | ⟨err, c, herr, hnested⟩
  · -- there are levels enough, as far as these tokens are concerned
    rcases readOperand_of_passes (ν := ν) hpass hlevels with ⟨e, hrun⟩ | ⟨err, c, herr, hlarge⟩
    · exact Or.inl ⟨e, parseAll_of_run (heq.trans hrun)⟩
    · exact Or.inr ⟨err, parseAll_of_run_error (heq.trans herr), Or.inr hlarge⟩
  · exact Or.inr ⟨err, parseAll_of_run_error herr, Or.inl hnested⟩

end Parsing

open Parsing

/-- **The parser accepts exactly the input language**, apart from what is nested too deeply or has a number that is
    too large. -/
theorem parseAll_iff_language {text : String} {ts : List Token} (h : tokensOf text = .ok ts) :
    ((∃ e : Expr Float, parseAll Grammar.standard ts = .ok e) → Language ts) ∧
    (Language ts → (∃ e : Expr Float, parseAll Grammar.standard ts = .ok e) ∨
      ∃ err, (parseAll Grammar.standard ts : Except ParseError (Expr Float)) = .error err ∧
        (err.NestedTooDeeply ∨ err.NumberTooLarge)) := by
  have hts := genuine_of_tokensOf h
  exact ⟨fun ⟨_, hparse⟩ => language_of_parseAll hts hparse, accepts_of_language hts⟩

/-- A derivative that names its variable. -/
theorem parseAll_iff_language_derivative :
    let ts : List Token := [⟨.keyword, "derivative", ⟨0, 10⟩⟩, ⟨.name, "x", ⟨11, 12⟩⟩, ⟨.keyword, "wrt", ⟨13, 16⟩⟩,
      ⟨.name, "y", ⟨17, 18⟩⟩]
    tokensOf "derivative x wrt y" = .ok ts ∧ Language ts ∧ ∃ e : Expr Float, parseAll Grammar.standard ts = .ok e := by
  intro ts
  have htokens : tokensOf "derivative x wrt y" = .ok ts := by decide +kernel
  have hparse : parseAll Grammar.standard ts =
      .ok (.derivative ⟨0, 18⟩ (.var ⟨11, 12⟩ "x") "y" : Expr Float) := by decide +kernel
  exact ⟨htokens, (parseAll_iff_language htokens).1 ⟨_, hparse⟩, _, hparse⟩

end Formula
