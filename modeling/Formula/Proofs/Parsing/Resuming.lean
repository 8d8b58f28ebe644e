import Formula.Proofs.Parsing.Replay

/-!
# `Formula.Proofs.Parsing.Resuming` — what a step that succeeds leaves to do

What a rule has built does not depend on the tokens behind it, if only they stop what it has begun. So a task that has
got through a rule is as good as the loop that is left to do, in front of any such tokens.

## Contents
- `Repeatable` — steps whose success depends on what they take.
- `ComesTo` — the way of a task to the loop; `comesTo_of_start`, `comesTo_of_extension`.
-/

namespace Formula

namespace Parsing

/-! ## Steps that succeed -/

section Repeatable

variable {α β : Type}

/-- **A step that can be repeated**: where it succeeds it does so in front of any other tokens at which all stops. -/
def Repeatable (x : Parsing α) : Prop :=
  ∀ k ts a c, x.run ⟨k, ts⟩ = .ok a c →
    ∃ vs, ts = vs ++ c.rest ∧ ∀ us, StopsLike us c.rest → ∀ k, ∃ k', x.run ⟨k, vs ++ us⟩ = .ok a ⟨k', us⟩

theorem Repeatable.pure (a : α) : Repeatable (Pure.pure a : Parsing α) := by
  intro k ts a' c h
  cases h
  exact ⟨[], rfl, fun us _ k => ⟨k, rfl⟩⟩

theorem Repeatable.bind {x : Parsing α} {f : α → Parsing β} (hx : Repeatable x) (hf : ∀ a, Repeatable (f a)) :
    Repeatable (x >>= f) := by
  intro k ts b c h
  obtain ⟨a, ⟨k₁, ts₁⟩, hxrun, hfrun⟩ := exists_of_run_bind h
  obtain ⟨vs, rfl, hvs⟩ := hx k ts a ⟨k₁, ts₁⟩ hxrun
  obtain ⟨ws, rfl, hws⟩ := hf a k₁ ts₁ b c hfrun
  refine ⟨vs ++ ws, (List.append_assoc vs ws c.rest).symm, fun us hus k => ?_⟩
  obtain ⟨k', hxrun'⟩ := hvs (ws ++ us) (hus.append ws) k
  obtain ⟨k'', hfrun'⟩ := hws us hus k'
  exact ⟨k'', by rw [List.append_assoc, run_bind_ok hxrun', hfrun']⟩

theorem repeatable_expect (text : String) : Repeatable (expect text) := by
  intro k ts t c h
  obtain ⟨ts', rfl, rfl, hreads⟩ := expect_ok h
  exact ⟨[t], rfl, fun us _ k => ⟨k + 1, run_expect hreads k us⟩⟩

variable {ν : Type}

/-- A derivative without a variable looks at what follows it. -/
theorem repeatable_readDerivative (keyword : Token) (e : Expr ν) : Repeatable (readDerivative keyword e) := by
  intro k ts d c h
  rcases readDerivative_ok h with ⟨hwrt, rfl, rfl⟩ | ⟨tw, tx, ts', rfl, hwrt, hkind, rfl, rfl⟩
  · exact ⟨[], rfl, fun us hus k => ⟨k, run_readDerivative (hus.unnamed hwrt) keyword e k⟩⟩
  · exact ⟨[tw, tx], rfl, fun us _ k => ⟨k + 1 + 1, run_readDerivative_by hwrt hkind keyword e k us⟩⟩

variable [Numeral ν]

theorem repeatable_operand (n m : Nat) : Repeatable (readOperand (ν := ν) .standard n m) := by
  intro k ts e c h
  obtain ⟨t, vs, rfl, hreplay⟩ := ((run_of_loops n).1 h).1.replay
  exact ⟨t :: vs, rfl, fun us hus k => (hreplay us hus).exec k⟩

end Repeatable

variable {ν : Type} [Numeral ν]

/-! ## The way to the loop -/

/-- **One task comes to another** after some tokens, whatever follows them, if only it stops what is left behind. -/
def ComesTo (task : Task ν) (vs : List Token) (task' : Task ν) (ts : List Token) : Prop :=
  ∀ us, StopsLike us ts → ∀ k, ∃ k', task.step.run ⟨k, vs ++ us⟩ = task'.step.run ⟨k', us⟩

theorem ComesTo.run {task task' : Task ν} {vs ts us rest : List Token} {e : Expr ν} (h : ComesTo task vs task' ts)
    (hus : StopsLike us ts) (hrun : Run task' us e rest) : Run task (vs ++ us) e rest := by
  obtain ⟨k, hk⟩ := h us hus 0
  obtain ⟨k', hexec⟩ := hrun.exec k
  exact run_of_exec (hk.trans hexec)

/-- A start rule that succeeds comes to the loop. -/
theorem comesTo_of_start {start : Start} {token : TokenMatch} {t : Token} {ts : List Token} {n m k : Nat} {lhs : Expr ν}
    {c : Cursor} (hrule : Grammar.standard.startRule? t = some ⟨token, start⟩) (hbegins : Begins t start)
    (h : (start.build (readOperand .standard n)).run ⟨k, t :: ts⟩ = .ok lhs c) :
    ∃ vs, ts = vs ++ c.rest ∧ ComesTo (.operand (n + 1) m) (t :: vs) (.loop n m lhs) c.rest := by
  have hrepeat : ∃ vs, ts = vs ++ c.rest ∧ ∀ us, StopsLike us c.rest → ∀ k, ∃ k',
      (start.build (readOperand .standard n)).run ⟨k, t :: (vs ++ us)⟩ = .ok lhs ⟨k', us⟩ := by
    cases hbegins with
    | name hkind =>
      cases h
      exact ⟨[], rfl, fun us _ k => ⟨k + 1, rfl⟩⟩
    | number hkind =>
      obtain ⟨v, hv, hfinite, rfl, rfl⟩ := readLiteral_ok (run_of_current h)
      refine ⟨[], rfl, fun us _ k => ⟨k + 1, (run_bind_ok (run_current k t us)).trans ?_⟩⟩
      rw [readLiteral, hv]
      simp only [hfinite, if_true]
      rfl
    | constant hkind =>
      obtain ⟨v, hv, rfl, rfl⟩ := readConstant_ok (run_of_current h)
      refine ⟨[], rfl, fun us _ k => ⟨k + 1, (run_bind_ok (run_current k t us)).trans ?_⟩⟩
      rw [readConstant, hv]
      rfl
    | group hword =>
      obtain ⟨vs, hvs, hus⟩ := ((repeatable_operand n lowest).bind fun inner =>
        (repeatable_expect ")").bind fun closing => .pure _) _ _ _ _ (run_of_demand h)
      refine ⟨vs, hvs, fun us hlike k => ?_⟩
      obtain ⟨k', hrun⟩ := hus us hlike (k + 1)
      exact ⟨k', (run_bind_ok (run_demand (reads_of_word hword) k _)).trans hrun⟩
    | negation hword =>
      obtain ⟨vs, hvs, hus⟩ := ((repeatable_operand n _).bind fun inner => .pure _) _ _ _ _ (run_of_demand h)
      refine ⟨vs, hvs, fun us hlike k => ?_⟩
      obtain ⟨k', hrun⟩ := hus us hlike (k + 1)
      exact ⟨k', (run_bind_ok (run_demand (reads_of_word hword) k _)).trans hrun⟩
    | derivative hkeyword =>
      obtain ⟨vs, hvs, hus⟩ := ((repeatable_operand n lowest).bind fun inner =>
        repeatable_readDerivative t inner) _ _ _ _ (run_of_demand h)
      refine ⟨vs, hvs, fun us hlike k => ?_⟩
      obtain ⟨k', hrun⟩ := hus us hlike (k + 1)
      exact ⟨k', (run_bind_ok (run_demand (reads_of_isKeyword hkeyword) k _)).trans hrun⟩
    | integral hkeyword => cases h
  obtain ⟨vs, rfl, hus⟩ := hrepeat
  refine ⟨vs, rfl, fun us hlike k => ?_⟩
  obtain ⟨k', hbuild⟩ := hus us hlike k
  refine ⟨k', ?_⟩
  rw [List.cons_append, Task.step, readOperand_run hrule, run_bind_ok hbuild]
  rfl

/-- So does an extension rule. -/
theorem comesTo_of_extension {rule : ExtensionRule} {t : Token} {ts : List Token} {n m k : Nat} {lhs lhs' : Expr ν}
    {c : Cursor} (hrule : Grammar.standard.extensionRule? t = some rule) (hm : m < rule.precedence)
    (hcontinues : Continues t rule)
    (h : (rule.build (readOperand .standard n) lhs).run ⟨k, t :: ts⟩ = .ok lhs' c) :
    ∃ vs, ts = vs ++ c.rest ∧ ComesTo (.loop (n + 1) m lhs) (t :: vs) (.loop n m lhs') c.rest := by
  have hrepeat : ∃ vs, ts = vs ++ c.rest ∧ ∀ us, StopsLike us c.rest → ∀ k, ∃ k',
      (rule.build (readOperand .standard n) lhs).run ⟨k, t :: (vs ++ us)⟩ = .ok lhs' ⟨k', us⟩ := by
    cases hcontinues with
    | binary hop hword =>
      obtain ⟨vs, hvs, hus⟩ := ((repeatable_operand n _).bind fun rhs => .pure _) _ _ _ _ (run_of_current h)
      exact ⟨vs, hvs, fun us hlike k => hus us hlike (k + 1)⟩
    | factorial hword =>
      cases h
      exact ⟨[], rfl, fun us _ k => ⟨k + 1, rfl⟩⟩
    | juxtaposed hfactor =>
      obtain ⟨rhs, c', hrhs, hpure⟩ := exists_of_run_bind (x := readOperand .standard n _) h
      obtain ⟨t', vs, hvs, hreplay⟩ := ((run_of_loops n).1 hrhs).1.replay
      obtain ⟨rfl, rfl⟩ := List.cons.inj hvs
      cases hpure
      refine ⟨vs, rfl, fun us hlike k => ?_⟩
      obtain ⟨k', hrun⟩ := (hreplay us hlike).exec k
      exact ⟨k', run_bind_ok hrun⟩
  obtain ⟨vs, rfl, hus⟩ := hrepeat
  refine ⟨vs, rfl, fun us hlike k => ?_⟩
  obtain ⟨k', hbuild⟩ := hus us hlike k
  refine ⟨k', ?_⟩
  rw [List.cons_append, Task.step, climb_run_step hrule hm, run_bind_ok hbuild]
  rfl

end Parsing

end Formula
