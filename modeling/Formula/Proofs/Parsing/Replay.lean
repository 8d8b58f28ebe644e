import Formula.Proofs.Parsing.Runs

/-!
# `Formula.Proofs.Parsing.Replay` — what a run depends on

A run that succeeds can be done by the parser, so that it may be taken apart and put together again. It depends on the
tokens that it takes, and on what follows them only in that it has to stop there; it needs neither a threshold as high
nor levels as few as it was given.

## Contents
- `Task.step`, `Run.exec` — the parser does what a run says; `run_of_exec`, `parseAll_iff_run`.
- `StopsLike`, `Run.replay` — the same run in front of other tokens.
- `Run.ease` — the same run with more levels and a lower threshold.
-/

namespace Formula

namespace Parsing

variable {ν : Type}

/-! ## Doing a run -/

section Exec

variable [Numeral ν]

/-- The step that does a task. -/
def Task.step : Task ν → Parsing (Expr ν)
  | .operand n m => readOperand .standard n m
  | .loop n m lhs => climb .standard n m lhs

/-- A start rule that has built an expression hands it to the loop. -/
theorem exec_of_start {start : Start} {token : TokenMatch} {t : Token} {ts ts' rest : List Token} {n m k j : Nat}
    {lhs e : Expr ν} (hrule : Grammar.standard.startRule? t = some ⟨token, start⟩)
    (hbuild : (start.build (readOperand .standard n)).run ⟨k, t :: ts⟩ = .ok lhs ⟨j, ts'⟩)
    (hloop : ∀ k, ∃ k', (Task.loop n m lhs).step.run ⟨k, ts'⟩ = .ok e ⟨k', rest⟩) :
    ∃ k', (Task.operand n.succ m : Task ν).step.run ⟨k, t :: ts⟩ = .ok e ⟨k', rest⟩ := by
  obtain ⟨k', hloop⟩ := hloop j
  refine ⟨k', ?_⟩
  rw [Task.step, readOperand_run hrule, run_bind_ok hbuild]
  exact hloop

/-- So does an extension rule. -/
theorem exec_of_extension {rule : ExtensionRule} {t : Token} {ts ts' rest : List Token} {n m k j : Nat}
    {lhs lhs' e : Expr ν} (hrule : Grammar.standard.extensionRule? t = some rule) (hm : m < rule.precedence)
    (hbuild : (rule.build (readOperand .standard n) lhs).run ⟨k, t :: ts⟩ = .ok lhs' ⟨j, ts'⟩)
    (hloop : ∀ k, ∃ k', (Task.loop n m lhs').step.run ⟨k, ts'⟩ = .ok e ⟨k', rest⟩) :
    ∃ k', (Task.loop n.succ m lhs).step.run ⟨k, t :: ts⟩ = .ok e ⟨k', rest⟩ := by
  obtain ⟨k', hloop⟩ := hloop j
  refine ⟨k', ?_⟩
  rw [Task.step, climb_run_step hrule hm, run_bind_ok hbuild]
  exact hloop

/-- **The parser does what a run says**, wherever its count stands. -/
theorem Run.exec {task : Task ν} {ts rest : List Token} {e : Expr ν} (h : Run task ts e rest) :
    ∀ k, ∃ k', task.step.run ⟨k, ts⟩ = .ok e ⟨k', rest⟩ := by
  induction h with
  | @name t ts n m e rest hkind hrun ih => exact fun k => exec_of_start (startRule?_name hkind) rfl ih
  | @number t ts n m v e rest hkind hread hfinite hrun ih =>
    intro k
    refine exec_of_start (startRule?_number hkind) (j := k + 1) ?_ ih
    refine (run_bind_ok (run_current k t ts)).trans ?_
    rw [readLiteral, hread]
    simp only [hfinite, if_true]
    rfl
  | @constant t ts n m c e rest hkind hlookup hrun ih =>
    intro k
    refine exec_of_start (startRule?_constant hkind) (j := k + 1) ?_ ih
    refine (run_bind_ok (run_current k t ts)).trans ?_
    rw [readConstant, hlookup]
    rfl
  | @group t tc ts ts' n m inner e rest hword hinner hclose hrun ihinner ih =>
    intro k
    obtain ⟨k', hinner⟩ := ihinner (k + 1)
    refine exec_of_start (startRule?_open hword) (j := k' + 1) ?_ ih
    refine (run_bind_ok (run_demand (reads_of_word hword) k ts)).trans ?_
    refine (run_bind_ok hinner).trans ?_
    exact run_bind_ok (run_expect hclose k' ts')
  | @negation t ts ts' n m inner e rest hword hinner hrun ihinner ih =>
    intro k
    obtain ⟨k', hinner⟩ := ihinner (k + 1)
    refine exec_of_start (startRule?_minus hword) (j := k') ?_ ih
    refine (run_bind_ok (run_demand (reads_of_word hword) k ts)).trans ?_
    exact run_bind_ok hinner
  | @derivative t ts ts' n m inner e rest hkeyword hinner hwrt hrun ihinner ih =>
    intro k
    obtain ⟨k', hinner⟩ := ihinner (k + 1)
    refine exec_of_start (startRule?_derivative hkeyword) (j := k') ?_ ih
    refine (run_bind_ok (run_demand (reads_of_isKeyword hkeyword) k ts)).trans ?_
    refine (run_bind_ok hinner).trans ?_
    exact run_readDerivative hwrt t inner k'
  | @derivativeBy t tw tx ts ts' n m inner e rest hkeyword hinner hwrt hkind hrun ihinner ih =>
    intro k
    obtain ⟨k', hinner⟩ := ihinner (k + 1)
    refine exec_of_start (startRule?_derivative hkeyword) (j := k' + 1 + 1) ?_ ih
    refine (run_bind_ok (run_demand (reads_of_isKeyword hkeyword) k ts)).trans ?_
    refine (run_bind_ok hinner).trans ?_
    exact run_readDerivative_by hwrt hkind t inner k' ts'
  | @stop ts n m lhs hstops => exact fun k => ⟨k, climb_run_of_stops hstops n k lhs⟩
  | @binary t ts ts' n m op lhs rhs e rest hop hword hm hrhs hrun ihrhs ih =>
    intro k
    obtain ⟨k', hrhs⟩ := ihrhs (k + 1)
    refine exec_of_extension (extensionRule?_binary hop hword) hm (j := k') ?_ ih
    refine (run_bind_ok (run_current k t ts)).trans ?_
    exact run_bind_ok hrhs
  | @juxtaposed t ts ts' n m lhs rhs e rest hfactor hm hrhs hrun ihrhs ih =>
    intro k
    obtain ⟨k', hrhs⟩ := ihrhs k
    obtain ⟨token, hrule⟩ := extensionRule?_juxtaposed hfactor
    refine exec_of_extension hrule hm (j := k') ?_ ih
    exact run_bind_ok hrhs
  | @factorial t ts n m lhs e rest hword hm hrun ih =>
    exact fun k => exec_of_extension (extensionRule?_factorial hword) hm rfl ih

/-- What the parser does is a run. -/
theorem run_of_exec {task : Task ν} {k k' : Nat} {ts rest : List Token} {e : Expr ν}
    (h : task.step.run ⟨k, ts⟩ = .ok e ⟨k', rest⟩) : Run task ts e rest := by
  cases task with
  | operand n m => exact ((run_of_loops n).1 h).1
  | loop n m lhs => exact ((run_of_loops n).2 h).1

/-- The runs of the whole parser are those that leave no token. -/
theorem parseAll_iff_run {ts : List Token} {e : Expr ν} :
    parseAll .standard ts = .ok e ↔ Run (.operand maxNesting lowest) ts e [] := by
  constructor
  · exact run_of_parseAll
  · intro h
    obtain ⟨k, hexec⟩ := h.exec 0
    have hcounts : k + ([] : List Token).length = 0 + ts.length := ((run_of_loops maxNesting).1 hexec).2
    obtain rfl : k = ts.length := by simpa using hcounts
    exact parseAll_of_run hexec

end Exec

/-! ## What follows a run -/

/-- **Tokens at which all stops that stops at others**, and which name a variable of a derivative only if the others
    do. -/
structure StopsLike (us ts : List Token) : Prop where
  stops : ∀ m, StopsAt m ts → StopsAt m us
  unnamed : (∀ t ∈ ts.head?, t.isKeyword "wrt" = false) → ∀ t ∈ us.head?, t.isKeyword "wrt" = false

theorem StopsLike.refl (ts : List Token) : StopsLike ts ts := ⟨fun _ h => h, fun h => h⟩

/-- Only the next token is looked at. -/
theorem StopsLike.of_head {us ts : List Token} (h : us.head? = ts.head?) : StopsLike us ts where
  stops _ hm t ht := hm t (h ▸ ht)
  unnamed hm t ht := hm t (h ▸ ht)

theorem StopsLike.append {us ts : List Token} (h : StopsLike us ts) (vs : List Token) :
    StopsLike (vs ++ us) (vs ++ ts) := by
  cases vs with
  | nil => exact h
  | cons v vs => exact .of_head rfl

/-- Everything stops at the end of the input. -/
theorem StopsLike.nil (ts : List Token) : StopsLike [] ts where
  stops _ _ := stopsAt_nil _
  unnamed _ t ht := by cases ht

/-- Everything stops at a closing parenthesis. -/
theorem StopsLike.close {tc : Token} (h : tc.word = (.symbol, ")")) (us ts : List Token) : StopsLike (tc :: us) ts where
  stops m _ := stopsAt_of_none (extensionRule?_close h) us m
  unnamed _ t ht := by
    obtain rfl := Option.some.inj ht
    rw [Token.isKeyword, (Prod.mk.inj h).1]
    rfl

variable [Numeral ν]

/-- What is left of a run in front of other tokens: an operand takes at least one token, a loop may take none. -/
def Replays (ts : List Token) (e : Expr ν) (rest : List Token) : Task ν → Prop
  | .operand n m => ∃ t vs, ts = t :: (vs ++ rest) ∧
      ∀ us, StopsLike us rest → Run (.operand n m) (t :: (vs ++ us)) e us
  | .loop n m lhs => ∃ vs, ts = vs ++ rest ∧ ∀ us, StopsLike us rest → Run (.loop n m lhs) (vs ++ us) e us

/-- **A run goes the same way in front of other tokens** at which it stops as well, by induction on the run. -/
theorem Run.replay {task : Task ν} {ts rest : List Token} {e : Expr ν} (h : Run task ts e rest) :
    Replays ts e rest task := by
  induction h with
  | @name t ts n m e rest hkind hrun ih =>
    obtain ⟨ws, rfl, hws⟩ := ih
    exact ⟨t, ws, rfl, fun us hus => .name hkind (hws us hus)⟩
  | @number t ts n m v e rest hkind hread hfinite hrun ih =>
    obtain ⟨ws, rfl, hws⟩ := ih
    exact ⟨t, ws, rfl, fun us hus => .number hkind hread hfinite (hws us hus)⟩
  | @constant t ts n m c e rest hkind hlookup hrun ih =>
    obtain ⟨ws, rfl, hws⟩ := ih
    exact ⟨t, ws, rfl, fun us hus => .constant hkind hlookup (hws us hus)⟩
  | @group t tc ts ts' n m inner e rest hword hinner hclose hrun ihinner ih =>
    obtain ⟨ti, vs, rfl, hvs⟩ := ihinner
    obtain ⟨ws, rfl, hws⟩ := ih
    refine ⟨t, ti :: vs ++ tc :: ws, by simp, fun us hus => ?_⟩
    have hinner' := hvs (tc :: (ws ++ us)) (.of_head rfl)
    simpa using Run.group hword hinner' hclose (hws us hus)
  | @negation t ts ts' n m inner e rest hword hinner hrun ihinner ih =>
    obtain ⟨ti, vs, rfl, hvs⟩ := ihinner
    obtain ⟨ws, rfl, hws⟩ := ih
    refine ⟨t, ti :: vs ++ ws, by simp, fun us hus => ?_⟩
    have hinner' := hvs (ws ++ us) (hus.append ws)
    simpa using Run.negation hword hinner' (hws us hus)
  | @derivative t ts ts' n m inner e rest hkeyword hinner hwrt hrun ihinner ih =>
    obtain ⟨ti, vs, rfl, hvs⟩ := ihinner
    obtain ⟨ws, rfl, hws⟩ := ih
    refine ⟨t, ti :: vs ++ ws, by simp, fun us hus => ?_⟩
    have hlike := hus.append ws
    simpa using Run.derivative hkeyword (hvs (ws ++ us) hlike) (hlike.unnamed hwrt) (hws us hus)
  | @derivativeBy t tw tx ts ts' n m inner e rest hkeyword hinner hwrt hkind hrun ihinner ih =>
    obtain ⟨ti, vs, rfl, hvs⟩ := ihinner
    obtain ⟨ws, rfl, hws⟩ := ih
    refine ⟨t, ti :: vs ++ tw :: tx :: ws, by simp, fun us hus => ?_⟩
    have hinner' := hvs (tw :: tx :: (ws ++ us)) (.of_head rfl)
    simpa using Run.derivativeBy hkeyword hinner' hwrt hkind (hws us hus)
  | @stop ts n m lhs hstops => exact ⟨[], rfl, fun us hus => .stop (hus.stops m hstops)⟩
  | @binary t ts ts' n m op lhs rhs e rest hop hword hm hrhs hrun ihrhs ih =>
    obtain ⟨ti, vs, rfl, hvs⟩ := ihrhs
    obtain ⟨ws, rfl, hws⟩ := ih
    refine ⟨t :: ti :: vs ++ ws, by simp, fun us hus => ?_⟩
    have hrhs' := hvs (ws ++ us) (hus.append ws)
    simpa using Run.binary hop hword hm hrhs' (hws us hus)
  | @juxtaposed t ts ts' n m lhs rhs e rest hfactor hm hrhs hrun ihrhs ih =>
    obtain ⟨ti, vs, hts, hvs⟩ := ihrhs
    obtain ⟨rfl, rfl⟩ := List.cons.inj hts
    obtain ⟨ws, rfl, hws⟩ := ih
    refine ⟨t :: vs ++ ws, by simp, fun us hus => ?_⟩
    have hrhs' := hvs (ws ++ us) (hus.append ws)
    simpa using Run.juxtaposed hfactor hm hrhs' (hws us hus)
  | @factorial t ts n m lhs e rest hword hm hrun ih =>
    obtain ⟨ws, rfl, hws⟩ := ih
    exact ⟨t :: ws, rfl, fun us hus => .factorial hword hm (hws us hus)⟩

/-- The same for an operand whose tokens are known. -/
theorem Run.replay_append {n m : Nat} {vs rest : List Token} {e : Expr ν} (h : Run (.operand n m) (vs ++ rest) e rest)
    (us : List Token) (hus : StopsLike us rest) : Run (.operand n m) (vs ++ us) e us := by
  obtain ⟨t, vs', hvs, hreplay⟩ := h.replay
  obtain rfl : vs = t :: vs' := List.append_cancel_right hvs
  exact hreplay us hus

/-! ## Levels and thresholds -/

/-- The threshold of a task. -/
def Task.threshold : Task ν → Nat
  | .operand _ m => m
  | .loop _ m _ => m

/-- Where a run ends it has stopped. -/
theorem Run.stopsAt {task : Task ν} {ts rest : List Token} {e : Expr ν} (h : Run task ts e rest) :
    StopsAt task.threshold rest := by
  induction h <;> assumption

/-- What is left of a run with more levels and above a lower threshold. -/
def Eases (ts : List Token) (e : Expr ν) (rest : List Token) : Task ν → Prop
  | .operand n m => ∀ n' m', n ≤ n' → m' ≤ m → StopsAt m' rest → Run (.operand n' m') ts e rest
  | .loop n m lhs => ∀ n' m', n ≤ n' → m' ≤ m → StopsAt m' rest → Run (.loop n' m' lhs) ts e rest

/-- With one level for the operation itself, an operand is eased as the loop after its beginning is. -/
theorem eases_operand {n m : Nat} {ts ts' rest : List Token} {lhs e : Expr ν} (hgo : Eases ts' e rest (.loop n m lhs))
    (hstart : ∀ n' m', n ≤ n' → Run (.loop n' m' lhs) ts' e rest → Run (.operand (n' + 1) m') ts e rest) :
    Eases ts e rest (.operand (n + 1) m) := by
  intro n' m' hn hm hstops
  obtain ⟨n', rfl⟩ := Nat.exists_eq_succ_of_ne_zero (Nat.ne_of_gt (Nat.lt_of_lt_of_le (Nat.succ_pos n) hn))
  have hn : n ≤ n' := Nat.le_of_succ_le_succ hn
  exact hstart n' m' hn (hgo n' m' hn hm hstops)

/-- So is a round of the loop. -/
theorem eases_loop {n m : Nat} {ts ts' rest : List Token} {lhs lhs' e : Expr ν}
    (hgo : Eases ts' e rest (.loop n m lhs'))
    (hround : ∀ n' m', n ≤ n' → m' ≤ m → Run (.loop n' m' lhs') ts' e rest → Run (.loop (n' + 1) m' lhs) ts e rest) :
    Eases ts e rest (.loop (n + 1) m lhs) := by
  intro n' m' hn hm hstops
  obtain ⟨n', rfl⟩ := Nat.exists_eq_succ_of_ne_zero (Nat.ne_of_gt (Nat.lt_of_lt_of_le (Nat.succ_pos n) hn))
  have hn : n ≤ n' := Nat.le_of_succ_le_succ hn
  exact hround n' m' hn hm (hgo n' m' hn hm hstops)

/-- **A run needs no more than its levels and no less than its threshold**, by induction on the run. An operand inside
    it keeps the threshold that its operator gives it. -/
theorem Run.ease {task : Task ν} {ts rest : List Token} {e : Expr ν} (h : Run task ts e rest) :
    Eases ts e rest task := by
  induction h with
  | @name t ts n m e rest hkind hrun ih => exact eases_operand ih fun n' m' _ hgo => .name hkind hgo
  | @number t ts n m v e rest hkind hread hfinite hrun ih =>
    exact eases_operand ih fun n' m' _ hgo => .number hkind hread hfinite hgo
  | @constant t ts n m c e rest hkind hlookup hrun ih =>
    exact eases_operand ih fun n' m' _ hgo => .constant hkind hlookup hgo
  | @group t tc ts ts' n m inner e rest hword hinner hclose hrun ihinner ih =>
    refine eases_operand ih fun n' m' hn hgo => ?_
    exact .group hword (ihinner n' lowest hn le_rfl hinner.stopsAt) hclose hgo
  | @negation t ts ts' n m inner e rest hword hinner hrun ihinner ih =>
    refine eases_operand ih fun n' m' hn hgo => ?_
    exact .negation hword (ihinner n' _ hn le_rfl hinner.stopsAt) hgo
  | @derivative t ts ts' n m inner e rest hkeyword hinner hwrt hrun ihinner ih =>
    refine eases_operand ih fun n' m' hn hgo => ?_
    exact .derivative hkeyword (ihinner n' lowest hn le_rfl hinner.stopsAt) hwrt hgo
  | @derivativeBy t tw tx ts ts' n m inner e rest hkeyword hinner hwrt hkind hrun ihinner ih =>
    refine eases_operand ih fun n' m' hn hgo => ?_
    exact .derivativeBy hkeyword (ihinner n' lowest hn le_rfl hinner.stopsAt) hwrt hkind hgo
  | @stop ts n m lhs hstops => exact fun n' m' _ _ hstops' => .stop hstops'
  | @binary t ts ts' n m op lhs rhs e rest hop hword hm hrhs hrun ihrhs ih =>
    refine eases_loop ih fun n' m' hn hm' hgo => ?_
    exact .binary hop hword (Nat.lt_of_le_of_lt hm' hm) (ihrhs n' _ hn le_rfl hrhs.stopsAt) hgo
  | @juxtaposed t ts ts' n m lhs rhs e rest hfactor hm hrhs hrun ihrhs ih =>
    refine eases_loop ih fun n' m' hn hm' hgo => ?_
    exact .juxtaposed hfactor (Nat.lt_of_le_of_lt hm' hm) (ihrhs n' _ hn le_rfl hrhs.stopsAt) hgo
  | @factorial t ts n m lhs e rest hword hm hrun ih =>
    exact eases_loop ih fun n' m' _ hm' hgo => .factorial hword (Nat.lt_of_le_of_lt hm' hm) hgo

/-! ## Words alone -/

/-- Tokens of the same words differ at most in their spans. -/
theorem exists_cons_of_words {us ts : List Token} {t : Token} (h : us.map Token.word = (t :: ts).map Token.word) :
    ∃ s us', us = ⟨t.kind, t.text, s⟩ :: us' ∧ us'.map Token.word = ts.map Token.word := by
  obtain ⟨⟨kind, text, s⟩, us', rfl, hword, hus'⟩ := List.map_eq_cons_iff.mp h
  obtain ⟨rfl, rfl⟩ := Prod.mk.inj hword
  exact ⟨s, us', rfl, hus'⟩

/-- Where the input goes on is a matter of the next word. -/
theorem StopsLike.of_words {us ts : List Token} (h : us.map Token.word = ts.map Token.word) : StopsLike us ts := by
  cases ts with
  | nil =>
    rw [List.map_nil, List.map_eq_nil_iff] at h
    rw [h]
    exact .nil []
  | cons t ts =>
    obtain ⟨s, us', rfl, -⟩ := exists_cons_of_words h
    constructor
    · intro m hm t' ht' rule hrule
      obtain rfl := Option.some.inj ht'
      have haccepts : ∀ r : ExtensionRule, r.token.accepts ⟨t.kind, t.text, s⟩ = r.token.accepts t := by
        intro r
        cases r.token <;> rfl
      rw [Grammar.extensionRule?, funext haccepts] at hrule
      exact hm t rfl rule hrule
    · intro hunnamed t' ht'
      obtain rfl := Option.some.inj ht'
      exact hunnamed t rfl

/-- What is left of a run on tokens of the same words: the same, up to spans. -/
def Respans (ts : List Token) (e : Expr ν) (rest : List Token) : Task ν → Prop
  | .operand n m => ∀ us, us.map Token.word = ts.map Token.word → ∃ e' rest', Run (.operand n m) us e' rest' ∧
      e'.unspanned = e.unspanned ∧ rest'.map Token.word = rest.map Token.word
  | .loop n m lhs => ∀ us lhs', us.map Token.word = ts.map Token.word → lhs'.unspanned = lhs.unspanned →
      ∃ e' rest', Run (.loop n m lhs') us e' rest' ∧ e'.unspanned = e.unspanned ∧
        rest'.map Token.word = rest.map Token.word

/-- What a loop begins with on other tokens of the same words, and how the task leads to it. -/
def Restarts (task : Task ν) (us : List Token) (n m : Nat) (lhs : Expr ν) (ts' : List Token) : Prop :=
  ∃ us' lhs', us'.map Token.word = ts'.map Token.word ∧ lhs'.unspanned = lhs.unspanned ∧
    ∀ {e rest}, Run (.loop n m lhs') us' e rest → Run task us e rest

theorem Restarts.exists_run {task : Task ν} {us ts' rest : List Token} {n m : Nat} {lhs e : Expr ν}
    (h : Restarts task us n m lhs ts') (hgo : Respans ts' e rest (.loop n m lhs)) :
    ∃ e' rest', Run task us e' rest' ∧ e'.unspanned = e.unspanned ∧ rest'.map Token.word = rest.map Token.word := by
  obtain ⟨us', lhs', hus', hlhs, htask⟩ := h
  obtain ⟨e', rest', hrun, he, hrest⟩ := hgo us' lhs' hus' hlhs
  exact ⟨e', rest', htask hrun, he, hrest⟩

/-- **A run depends on the words of its tokens alone**, apart from the spans of what it gives; by induction on the
    run. -/
theorem Run.respan {task : Task ν} {ts rest : List Token} {e : Expr ν} (h : Run task ts e rest) :
    Respans ts e rest task := by
  induction h with
  | @name t ts n m e rest hkind hrun ih =>
    intro us hts
    obtain ⟨s, us, rfl, hus⟩ := exists_cons_of_words hts
    exact Restarts.exists_run ⟨us, .var s t.text, hus, rfl, .name (t := ⟨_, _, s⟩) hkind⟩ ih
  | @number t ts n m v e rest hkind hread hfinite hrun ih =>
    intro us hts
    obtain ⟨s, us, rfl, hus⟩ := exists_cons_of_words hts
    exact Restarts.exists_run ⟨us, .literal s v, hus, rfl, .number (t := ⟨_, _, s⟩) hkind hread hfinite⟩ ih
  | @constant t ts n m c e rest hkind hlookup hrun ih =>
    intro us hts
    obtain ⟨s, us, rfl, hus⟩ := exists_cons_of_words hts
    exact Restarts.exists_run ⟨us, .constant s c, hus, rfl, .constant (t := ⟨_, _, s⟩) hkind hlookup⟩ ih
  | @group t tc ts ts' n m inner e rest hword hinner hclose hrun ihinner ih =>
    intro us hts
    obtain ⟨s, us, rfl, hus⟩ := exists_cons_of_words hts
    obtain ⟨inner', us', hinner', hsame, hts'⟩ := ihinner us hus
    obtain ⟨sc, us', rfl, hus'⟩ := exists_cons_of_words hts'
    exact Restarts.exists_run ⟨us', .paren (s.merge sc) inner', hus', by rw [Expr.unspanned, Expr.unspanned, hsame],
      .group (t := ⟨_, _, s⟩) hword hinner' hclose⟩ ih
  | @negation t ts ts' n m inner e rest hword hinner hrun ihinner ih =>
    intro us hts
    obtain ⟨s, us, rfl, hus⟩ := exists_cons_of_words hts
    obtain ⟨inner', us', hinner', hsame, hus'⟩ := ihinner us hus
    exact Restarts.exists_run ⟨us', .unary (s.merge inner'.span) .neg inner', hus',
      by rw [Expr.unspanned, Expr.unspanned, hsame], .negation (t := ⟨_, _, s⟩) hword hinner'⟩ ih
  | @derivative t ts ts' n m inner e rest hkeyword hinner hwrt hrun ihinner ih =>
    intro us hts
    obtain ⟨s, us, rfl, hus⟩ := exists_cons_of_words hts
    obtain ⟨inner', us', hinner', hsame, hus'⟩ := ihinner us hus
    -- the guessed variable does not depend on spans
    have hvariable : inner'.primaryVariable? = inner.primaryVariable? := by
      rw [← Expr.primaryVariable?_unspanned, hsame, Expr.primaryVariable?_unspanned]
    exact Restarts.exists_run
      ⟨us', .derivative (s.merge inner'.span) inner' (inner'.primaryVariable?.getD "x"), hus',
        by rw [Expr.unspanned, Expr.unspanned, hsame, hvariable],
        .derivative (t := ⟨_, _, s⟩) hkeyword hinner' ((StopsLike.of_words hus').unnamed hwrt)⟩ ih
  | @derivativeBy t tw tx ts ts' n m inner e rest hkeyword hinner hwrt hkind hrun ihinner ih =>
    intro us hts
    obtain ⟨s, us, rfl, hus⟩ := exists_cons_of_words hts
    obtain ⟨inner', us', hinner', hsame, hts'⟩ := ihinner us hus
    obtain ⟨sw, us', rfl, hts''⟩ := exists_cons_of_words hts'
    obtain ⟨sx, us', rfl, hus'⟩ := exists_cons_of_words hts''
    exact Restarts.exists_run ⟨us', .derivative ((s.merge inner'.span).merge sx) inner' tx.text, hus',
      by rw [Expr.unspanned, Expr.unspanned, hsame], .derivativeBy (t := ⟨_, _, s⟩) hkeyword hinner' hwrt hkind⟩ ih
  | @stop ts n m lhs hstops =>
    intro us lhs' hus hlhs
    exact ⟨lhs', us, .stop ((StopsLike.of_words hus).stops m hstops), hlhs, hus⟩
  | @binary t ts ts' n m op lhs rhs e rest hop hword hm hrhs hrun ihrhs ih =>
    intro us lhs' hts hlhs
    obtain ⟨s, us, rfl, hus⟩ := exists_cons_of_words hts
    obtain ⟨rhs', us', hrhs', hsame, hus'⟩ := ihrhs us hus
    exact Restarts.exists_run ⟨us', .binary (lhs'.span.merge rhs'.span) op lhs' rhs', hus',
      by rw [Expr.unspanned, Expr.unspanned, hlhs, hsame], .binary (t := ⟨_, _, s⟩) hop hword hm hrhs'⟩ ih
  | @juxtaposed t ts ts' n m lhs rhs e rest hfactor hm hrhs hrun ihrhs ih =>
    intro us lhs' hts hlhs
    obtain ⟨rhs', us', hrhs', hsame, hus'⟩ := ihrhs us hts
    obtain ⟨s, us, rfl, -⟩ := exists_cons_of_words hts
    exact Restarts.exists_run ⟨us', .binary (lhs'.span.merge rhs'.span) .juxtapose lhs' rhs', hus',
      by rw [Expr.unspanned, Expr.unspanned, hlhs, hsame], .juxtaposed (t := ⟨_, _, s⟩) hfactor hm hrhs'⟩ ih
  | @factorial t ts n m lhs e rest hword hm hrun ih =>
    intro us lhs' hts hlhs
    obtain ⟨s, us, rfl, hus⟩ := exists_cons_of_words hts
    exact Restarts.exists_run ⟨us, .unary (lhs'.span.merge s) .factorial lhs', hus,
      by rw [Expr.unspanned, Expr.unspanned, hlhs], .factorial (t := ⟨_, _, s⟩) hword hm⟩ ih

end Parsing

end Formula
