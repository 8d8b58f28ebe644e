import Formula.Proofs.Parsing.Blame

/-!
# `Formula.Proofs.Parsing.Outcomes` — what tokens decide, whatever follows them

Tokens that can be read as an expression decide what comes of reading them with fewer levels: the same expression, or
the complaint that it is nested too deeply, at one and the same token of them. What follows the tokens plays no part in
it, if only it stops what they have begun. Where none of them is the keyword of a derivative, this holds also of what
would name a variable of one.

## Contents
- `Decided` — what a step comes to is decided by some tokens; `Decided.bind`.
- `StopsAfter` — tokens at which all stops that stops at others.
- `decided_of_run` — the tokens of a run decide what comes of its task with any number of levels.
-/

namespace Formula

/-- The complaint about the nesting at a token. -/
def nestedAt (t : Token) : ParseError := .diagnosed ⟨.nestedTooDeeply, .offset t.span.start⟩

namespace Parsing

/-! ## Steps -/

section Steps

variable {α β : Type} {x : Parsing α} {a : α} {t : Token} {vs ws : List Token} {P Q : List Token → Prop}

/-- **What a step comes to is decided by some tokens**, whatever follows them that has a property: it takes them all and
    gives a value, or it complains of the nesting at one of them. -/
def Decided (vs : List Token) (Q : List Token → Prop) (x : Parsing α) (a : α) : Prop :=
  (∀ us, Q us → ∀ k, ∃ k', x.run ⟨k, vs ++ us⟩ = .ok a ⟨k', us⟩) ∨
  ∃ t ∈ vs, ∀ us, Q us → ∀ k, ∃ c, x.run ⟨k, vs ++ us⟩ = .error (nestedAt t) c

theorem Decided.pure (Q : List Token → Prop) (a : α) : Decided [] Q (Pure.pure a : Parsing α) a :=
  .inl fun _ _ k => ⟨k, rfl⟩

/-- A step that takes one token. -/
theorem decided_token (Q : List Token → Prop) (h : ∀ k us, x.run ⟨k, t :: us⟩ = .ok a ⟨k + 1, us⟩) :
    Decided [t] Q x a :=
  .inl fun us _ k => ⟨k + 1, h k us⟩

/-- A step that gives up at its first token. -/
theorem decided_nested (Q : List Token → Prop) (a : α)
    (h : ∀ k us, x.run ⟨k, t :: us⟩ = (complainHere fun _ => .nestedTooDeeply).run ⟨k, t :: us⟩) (vs : List Token) :
    Decided (t :: vs) Q x a := by
  refine .inr ⟨t, List.mem_cons_self, fun us _ k => ⟨⟨k, t :: (vs ++ us)⟩, ?_⟩⟩
  rw [List.cons_append, h, complainHere_run]
  rfl

/-- What is decided of a step is decided of one that does the same from its first token on. -/
theorem Decided.congr {y : Parsing α} (h : ∀ k us, y.run ⟨k, t :: us⟩ = x.run ⟨k, t :: us⟩)
    (hx : Decided (t :: vs) Q x a) : Decided (t :: vs) Q y a := by
  simpa only [Decided, List.cons_append, h] using hx

/-- **Steps one after the other**: what follows the first is what the second takes and what follows that. -/
theorem Decided.bind {f : α → Parsing β} {b : β} (hx : Decided vs Q x a) (hf : Decided ws P (f a) b)
    (hQ : ∀ us, P us → Q (ws ++ us)) : Decided (vs ++ ws) P (x >>= f) b := by
  rcases hx with hx | ⟨t, ht, hx⟩
  · -- The first step leaves all that the second is about, so that what comes of the second comes of both.
    rcases hf with hf | ⟨t, ht, hf⟩
    · refine .inl fun us hus k => ?_
      obtain ⟨k', hxrun⟩ := hx (ws ++ us) (hQ us hus) k
      obtain ⟨k'', hfrun⟩ := hf us hus k'
      exact ⟨k'', by rw [List.append_assoc, run_bind_ok hxrun, hfrun]⟩
    · refine .inr ⟨t, List.mem_append_right vs ht, fun us hus k => ?_⟩
      obtain ⟨k', hxrun⟩ := hx (ws ++ us) (hQ us hus) k
      obtain ⟨c, hfrun⟩ := hf us hus k'
      exact ⟨c, by rw [List.append_assoc, run_bind_ok hxrun, hfrun]⟩
  · refine .inr ⟨t, List.mem_append_left ws ht, fun us hus k => ?_⟩
    obtain ⟨c, hxrun⟩ := hx (ws ++ us) (hQ us hus) k
    exact ⟨c, by rw [List.append_assoc, run_bind_error hxrun]⟩

theorem Decided.map (f : α → β) (hx : Decided vs Q x a) : Decided vs Q (x >>= fun a => Pure.pure (f a)) (f a) := by
  have h : Decided (vs ++ []) Q (x >>= fun a => Pure.pure (f a)) (f a) := hx.bind (.pure Q (f a)) fun _ hus => hus
  rwa [List.append_nil] at h

end Steps

/-! ## Rules -/

/-- Tokens at which all stops that stops at others. -/
def StopsAfter (rest us : List Token) : Prop := ∀ m, StopsAt m rest → StopsAt m us

/-- Only the next token decides. -/
theorem StopsAfter.append {rest us : List Token} (h : StopsAfter rest us) (vs : List Token) :
    StopsAfter (vs ++ rest) (vs ++ us) := by
  cases vs with
  | nil => exact h
  | cons v vs => exact fun m hm t ht => hm t ht

variable {ν : Type} [Numeral ν]

/-- What the tokens of a run decide of its task: an operand takes at least one token, a loop may take none. -/
def Decides (ts : List Token) (e : Expr ν) (rest : List Token) : Task ν → Prop
  | .operand _ m => ∃ t vs, ts = t :: (vs ++ rest) ∧
      ∀ n, Decided (t :: vs) (StopsAfter rest) (readOperand .standard n m) e
  | .loop _ m lhs => ∃ vs, ts = vs ++ rest ∧ ∀ n, Decided vs (StopsAfter rest) (climb .standard n m lhs) e

section Rules

variable {t : Token} {ts rest : List Token} {n n' m : Nat} {lhs lhs' e : Expr ν}

/-- A start rule and the loop after it. -/
theorem Decides.start (hgo : Decides ts e rest (.loop n m lhs)) {token : TokenMatch} {start : Start}
    (hrule : Grammar.standard.startRule? t = some ⟨token, start⟩) (vs : List Token)
    (hbuild : ∀ n, Decided (t :: vs) (StopsAfter ts) (start.build (readOperand .standard n)) lhs) :
    Decides (t :: (vs ++ ts)) e rest (.operand n' m) := by
  obtain ⟨ws, rfl, hws⟩ := hgo
  refine ⟨t, vs ++ ws, by rw [List.append_assoc], fun n => ?_⟩
  cases n with
  | zero => exact decided_nested _ e (fun k us => by rw [readOperand]) (vs ++ ws)
  | succ n =>
    refine Decided.congr (fun k us => readOperand_run hrule n m k us) ?_
    exact (hbuild n).bind (hws n) fun us hus => hus.append ws

/-- An extension rule and the loop after it. -/
theorem Decides.round (hgo : Decides ts e rest (.loop n m lhs')) {rule : ExtensionRule}
    (hrule : Grammar.standard.extensionRule? t = some rule) (hm : m < rule.precedence) (vs : List Token)
    (hbuild : ∀ n, Decided (t :: vs) (StopsAfter ts) (rule.build (readOperand .standard n) lhs) lhs') :
    Decides (t :: (vs ++ ts)) e rest (.loop n' m lhs) := by
  obtain ⟨ws, rfl, hws⟩ := hgo
  refine ⟨t :: (vs ++ ws), by rw [List.cons_append, List.append_assoc], fun n => ?_⟩
  cases n with
  | zero => exact decided_nested _ e (fun k us => climb_run_nested hrule hm k us lhs) (vs ++ ws)
  | succ n =>
    refine Decided.congr (fun k us => climb_run_step hrule hm n k us lhs) ?_
    exact (hbuild n).bind (hws n) fun us hus => hus.append ws

end Rules

/-- **The tokens of a run decide what comes of its task with any number of levels**, whatever follows them, where none of
    them is the keyword of a derivative; by induction on the run. -/
theorem decided_of_run {task : Task ν} {ts rest : List Token} {e : Expr ν} (h : Run task ts e rest)
    (hplain : ∀ t ∈ ts, t.isKeyword "derivative" = false) : Decides ts e rest task := by
  induction h with
  | @name t ts n m e rest hkind hrun ih =>
    refine (ih (List.forall_mem_cons.mp hplain).2).start (startRule?_name hkind) [] fun n => ?_
    exact decided_token _ fun k us => rfl
  | @number t ts n m v e rest hkind hread hfinite hrun ih =>
    refine (ih (List.forall_mem_cons.mp hplain).2).start (startRule?_number hkind) [] fun n => ?_
    refine decided_token _ fun k us => (run_bind_ok (run_current k t us)).trans ?_
    rw [readLiteral, hread]
    simp only [hfinite, if_true]
    rfl
  | @constant t ts n m c e rest hkind hlookup hrun ih =>
    refine (ih (List.forall_mem_cons.mp hplain).2).start (startRule?_constant hkind) [] fun n => ?_
    refine decided_token _ fun k us => (run_bind_ok (run_current k t us)).trans ?_
    rw [readConstant, hlookup]
    rfl
  | @group t tc ts ts' n m inner e rest hword hinner hclose hrun ihinner ih =>
    obtain ⟨ti, vs, rfl, hvs⟩ := ihinner (List.forall_mem_cons.mp hplain).2
    have hgo := ih fun t ht => hplain t (by simp [ht])
    rw [show t :: (ti :: (vs ++ tc :: ts')) = t :: (ti :: vs ++ [tc] ++ ts') by simp]
    refine hgo.start (startRule?_open hword) (ti :: vs ++ [tc]) fun n => ?_
    have hopen := decided_token (fun _ => True) (run_demand (reads_of_word hword))
    have hend := decided_token (StopsAfter ts') (run_expect hclose)
    refine hopen.bind ((hvs n).bind (hend.map _) ?_) fun _ _ => trivial
    exact fun us hus => hus.append [tc]
  | @negation t ts ts' n m inner e rest hword hinner hrun ihinner ih =>
    obtain ⟨ti, vs, rfl, hvs⟩ := ihinner (List.forall_mem_cons.mp hplain).2
    have hgo := ih fun t ht => hplain t (by simp [ht])
    refine hgo.start (startRule?_minus hword) (ti :: vs) fun n => ?_
    have hminus := decided_token (fun _ => True) (run_demand (reads_of_word hword))
    exact hminus.bind ((hvs n).map _) fun _ _ => trivial
  -- A derivative without a variable takes the one that is named behind it: what follows would play a part.
  | @derivative t ts ts' n m inner e rest hkeyword hinner hwrt hrun ihinner ih =>
    rw [(List.forall_mem_cons.mp hplain).1] at hkeyword
    cases hkeyword
  | @derivativeBy t tw tx ts ts' n m inner e rest hkeyword hinner hwrt hkind hrun ihinner ih =>
    rw [(List.forall_mem_cons.mp hplain).1] at hkeyword
    cases hkeyword
  | @stop ts n m lhs hstops =>
    exact ⟨[], rfl, fun n => .inl fun us hus k => ⟨k, climb_run_of_stops (hus m hstops) n k lhs⟩⟩
  | @binary t ts ts' n m op lhs rhs e rest hop hword hm hrhs hrun ihrhs ih =>
    obtain ⟨ti, vs, rfl, hvs⟩ := ihrhs (List.forall_mem_cons.mp hplain).2
    have hgo := ih fun t ht => hplain t (by simp [ht])
    refine hgo.round (extensionRule?_binary hop hword) hm (ti :: vs) fun n => ?_
    have hoperator := decided_token (fun _ => True) (run_current · t ·)
    exact hoperator.bind ((hvs n).map _) fun _ _ => trivial
  | @juxtaposed t ts ts' n m lhs rhs e rest hfactor hm hrhs hrun ihrhs ih =>
    obtain ⟨ti, vs, hts, hvs⟩ := ihrhs hplain
    obtain ⟨rfl, rfl⟩ := List.cons.inj hts
    have hgo := ih fun t ht => hplain t (by simp [ht])
    obtain ⟨token, hrule⟩ := extensionRule?_juxtaposed hfactor
    refine hgo.round hrule hm vs fun n => ?_
    exact (hvs n).map _
  | @factorial t ts n m lhs e rest hword hm hrun ih =>
    refine (ih (List.forall_mem_cons.mp hplain).2).round (extensionRule?_factorial hword) hm [] fun n => ?_
    exact decided_token _ fun k us => rfl

end Parsing

end Formula
