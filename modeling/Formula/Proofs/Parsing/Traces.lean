import Formula.Proofs.Expr.Operands
import Formula.Proofs.Parsing.Replay

/-!
# `Formula.Proofs.Parsing.Traces` — the tokens of each node

Every node of an expression that has been read was read from tokens next to each other: its span starts with the first
of them and stops with the last, and they alone are read as the node again. For an operand that is what its run says.
For what the loop has built so far it holds because the loop could have stopped there: with nothing behind the tokens
that it has taken, the run that has led to it ends.

## Contents
- `Covers` — the span of tokens, and what follows for tokens in order.
- `Traced` — a tree with the tokens of each of its nodes; `Traced.subtree`, `Traced.children`.
- `Regains` — the way of a run to the loop that it is in.
- `traced_of_run`.
-/

namespace Formula

/-! ## Spans of tokens -/

theorem InOrder.of_sublist {ts us : List Token} (h : InOrder ts) (hus : us.Sublist ts) : InOrder us :=
  ⟨fun t ht => h.1 t (hus.subset ht), h.2.sublist hus⟩

theorem InOrder.left {us vs : List Token} (h : InOrder (us ++ vs)) : InOrder us :=
  h.of_sublist (List.sublist_append_left us vs)

theorem InOrder.right {us vs : List Token} (h : InOrder (us ++ vs)) : InOrder vs :=
  h.of_sublist (List.sublist_append_right us vs)

theorem InOrder.tail {t : Token} {ts : List Token} (h : InOrder (t :: ts)) : InOrder ts :=
  h.of_sublist (List.sublist_cons_self t ts)

theorem InOrder.stop_le_start {us vs : List Token} (h : InOrder (us ++ vs)) {a b : Token} (ha : a ∈ us) (hb : b ∈ vs) :
    a.span.stop ≤ b.span.start :=
  (List.pairwise_append.mp h.2).2.2 a ha b hb

/-- The first token starts first. -/
theorem InOrder.head_start_le {us : List Token} (h : InOrder us) {a b : Token} (ha : a ∈ us.head?) (hb : b ∈ us) :
    a.span.start ≤ b.span.start := by
  obtain ⟨us, rfl⟩ : ∃ us', us = a :: us' := ⟨_, List.eq_cons_of_mem_head? ha⟩
  rcases List.mem_cons.mp hb with rfl | hb
  · exact Nat.le_refl _
  · have hsplit : InOrder ([a] ++ us) := h
    have hle := hsplit.stop_le_start List.mem_cons_self hb
    have hlt := h.1 a List.mem_cons_self
    omega

/-- The last token stops last. -/
theorem InOrder.stop_le_getLast {us : List Token} (h : InOrder us) {a b : Token} (ha : a ∈ us) (hb : b ∈ us.getLast?) :
    a.span.stop ≤ b.span.stop := by
  obtain ⟨us, rfl⟩ : ∃ us', us = us' ++ [b] := ⟨_, (List.dropLast_append_getLast? b hb).symm⟩
  rcases List.mem_append.mp ha with ha | ha
  · have hle := h.stop_le_start ha List.mem_cons_self
    have hlt := h.1 b (by simp)
    omega
  · rw [List.mem_singleton.mp ha]

/-- **The tokens that a span covers**: it starts with the first of them and stops with the last. -/
def Covers (us : List Token) (s : Span) : Prop :=
  ∃ a ∈ us.head?, ∃ b ∈ us.getLast?, s = ⟨a.span.start, b.span.stop⟩

theorem covers_token (t : Token) : Covers [t] t.span := ⟨t, rfl, t, rfl, rfl⟩

/-- The span of tokens is not empty. -/
theorem Covers.start_lt_stop {us : List Token} {s : Span} (h : Covers us s) (hin : InOrder us) : s.start < s.stop := by
  obtain ⟨a, ha, b, hb, rfl⟩ := h
  exact Nat.lt_of_le_of_lt (hin.head_start_le ha (List.mem_of_mem_getLast? hb)) (hin.1 b (List.mem_of_mem_getLast? hb))

/-- Spans that are merged cover what is between them as well. -/
theorem Covers.merge {us m vs : List Token} {s s' : Span} (h : Covers us s) (h' : Covers vs s')
    (hin : InOrder (us ++ (m ++ vs))) : Covers (us ++ (m ++ vs)) (s.merge s') := by
  obtain ⟨a, ha, b, hb, rfl⟩ := h
  obtain ⟨c, hc, d, hd, rfl⟩ := h'
  have hmem {x : Token} (hx : x ∈ vs) : x ∈ m ++ vs := List.mem_append_right m hx
  have hac := hin.stop_le_start (List.mem_of_mem_head? ha) (hmem (List.mem_of_mem_head? hc))
  have hbd := hin.stop_le_start (List.mem_of_mem_getLast? hb) (hmem (List.mem_of_mem_getLast? hd))
  have ha' := hin.1 a (List.mem_append_left _ (List.mem_of_mem_head? ha))
  have hd' := hin.1 d (List.mem_append_right us (hmem (List.mem_of_mem_getLast? hd)))
  refine ⟨a, ?_, d, ?_, ?_⟩
  · simp [Option.mem_def.mp ha]
  · simp [Option.mem_def.mp hd]
  · simp only [Span.merge, Span.mk.injEq]
    omega

/-- The span of tokens contains that of any tokens among them. -/
theorem Covers.contains {us vs : List Token} {s s' : Span} (h : Covers us s) (h' : Covers vs s') (hvs : vs <:+: us)
    (hin : InOrder us) : s.contains s' = true := by
  obtain ⟨a, ha, b, hb, rfl⟩ := h
  obtain ⟨c, hc, d, hd, rfl⟩ := h'
  rw [Span.contains_iff]
  exact ⟨hin.head_start_le ha (hvs.subset (List.mem_of_mem_head? hc)),
    hin.stop_le_getLast (hvs.subset (List.mem_of_mem_getLast? hd)) hb⟩

/-- The spans of tokens that follow one another do so themselves. -/
theorem Covers.stop_le_start {us vs : List Token} {s s' : Span} (h : Covers us s) (h' : Covers vs s')
    (hin : InOrder (us ++ vs)) : s.stop ≤ s'.start := by
  obtain ⟨a, ha, b, hb, rfl⟩ := h
  obtain ⟨c, hc, d, hd, rfl⟩ := h'
  exact hin.stop_le_start (List.mem_of_mem_getLast? hb) (List.mem_of_mem_head? hc)

namespace Parsing

variable {ν : Type} [Numeral ν]

/-! ## Traces -/

/-- **Tokens that are read as an expression on their own**, which covers them. -/
structure ReadFrom (us : List Token) (e : Expr ν) : Prop where
  run : Run (.operand maxNesting lowest) us e []
  covers : Covers us e.span

/-- **A tree with the tokens of each node**: those of the children stand among those of the node, in their order. -/
inductive Traced : List Token → Expr ν → Prop where
  | leaf {us e} : ReadFrom us e → e.children = [] → Traced us e
  | one {us vs e c} : ReadFrom us e → e.children = [c] → Traced vs c → vs <:+: us → Traced us e
  | two {ls ms rs e l r} : ReadFrom (ls ++ (ms ++ rs)) e → e.children = [l, r] → Traced ls l → Traced rs r →
      Traced (ls ++ (ms ++ rs)) e

theorem Traced.readFrom {us : List Token} {e : Expr ν} (h : Traced us e) : ReadFrom us e := by
  cases h <;> assumption

/-- Each node has its own tokens. -/
theorem Traced.subtree {us : List Token} {e n : Expr ν} (h : Traced us e) (hn : n ∈ e.subtrees) :
    ∃ vs, vs <:+: us ∧ Traced vs n := by
  induction h with
  | @leaf us e hread hchildren =>
    rcases Expr.mem_subtrees_iff.mp hn with rfl | ⟨c, hc, -⟩
    · exact ⟨us, List.infix_refl us, .leaf hread hchildren⟩
    · rw [hchildren] at hc
      cases hc
  | @one us vs e c hread hchildren htraced hvs ih =>
    rcases Expr.mem_subtrees_iff.mp hn with rfl | ⟨c', hc, hn⟩
    · exact ⟨us, List.infix_refl us, .one hread hchildren htraced hvs⟩
    · rw [hchildren, List.mem_singleton] at hc
      obtain ⟨ws, hws, hn⟩ := ih (hc ▸ hn)
      exact ⟨ws, hws.trans hvs, hn⟩
  | @two ls ms rs e l r hread hchildren hl hr ihl ihr =>
    rcases Expr.mem_subtrees_iff.mp hn with rfl | ⟨c, hc, hn⟩
    · exact ⟨_, List.infix_refl _, .two hread hchildren hl hr⟩
    · rw [hchildren] at hc
      rcases List.mem_pair.mp hc with rfl | rfl
      · obtain ⟨ws, hws, hn⟩ := ihl hn
        exact ⟨ws, hws.trans (List.prefix_append ls _).isInfix, hn⟩
      · obtain ⟨ws, hws, hn⟩ := ihr hn
        exact ⟨ws, hws.trans ((List.suffix_append ms rs).trans (List.suffix_append ls _)).isInfix, hn⟩

/-- **The spans of the children** lie within the node's and follow one another. -/
theorem Traced.children {us : List Token} {e : Expr ν} (h : Traced us e) (hin : InOrder us) :
    (∀ c ∈ e.children, e.span.contains c.span = true) ∧ e.children.Pairwise fun a b => a.span.stop ≤ b.span.start := by
  cases h with
  | leaf hread hchildren =>
    rw [hchildren]
    exact ⟨fun c hc => (List.not_mem_nil hc).elim, .nil⟩
  | one hread hchildren htraced hvs =>
    rw [hchildren]
    refine ⟨fun c hc => ?_, List.pairwise_singleton _ _⟩
    rw [List.mem_singleton.mp hc]
    exact hread.covers.contains htraced.readFrom.covers hvs hin
  | @two ls ms rs e l r hread hchildren hl hr =>
    rw [hchildren]
    refine ⟨fun c hc => ?_, List.pairwise_pair.mpr ?_⟩
    · rcases List.mem_pair.mp hc with rfl | rfl
      · exact hread.covers.contains hl.readFrom.covers (List.prefix_append ls _).isInfix hin
      · exact hread.covers.contains hr.readFrom.covers
          ((List.suffix_append ms rs).trans (List.suffix_append ls _)).isInfix hin
    · exact hl.readFrom.covers.stop_le_start hr.readFrom.covers
        (hin.of_sublist ((List.Sublist.refl ls).append (List.sublist_append_right ms rs)))

/-! ## The way to the loop -/

/-- **The way to the loop**: an operand that begins with some tokens comes to the loop with `lhs`, and goes on with
    whatever the loop does then, provided that what follows the tokens stops what the run has left behind. -/
def Regains (ws : List Token) (lhs : Expr ν) (ts : List Token) (n : Nat) : Prop :=
  ∀ us e rest, StopsLike us ts → Run (.loop n lowest lhs) us e rest → Run (.operand maxNesting lowest) (ws ++ us) e rest

/-- Where nothing follows, the loop stops, and the tokens are read as what it has built. -/
theorem Regains.run {ws ts : List Token} {lhs : Expr ν} {n : Nat} (h : Regains ws lhs ts n) :
    Run (.operand maxNesting lowest) ws lhs [] := by
  have hrun := h [] lhs [] (.nil ts) (.stop (stopsAt_nil lowest))
  rwa [List.append_nil] at hrun

/-- What a start rule of an operand with fewer levels does, it does with all of them. -/
theorem regains_of_start {ws ts : List Token} {lhs : Expr ν} {n : Nat} (hn : n + 1 ≤ maxNesting)
    (hstart : ∀ us e rest, StopsLike us ts → Run (.loop n lowest lhs) us e rest →
      Run (.operand (n + 1) lowest) (ws ++ us) e rest) : Regains ws lhs ts n := by
  intro us e rest hus hrun
  have hoperand := hstart us e rest hus hrun
  exact hoperand.ease maxNesting lowest hn le_rfl hoperand.stopsAt

/-- A round of the loop goes on with the way to it. -/
theorem Regains.round {ws vs ts' : List Token} {lhs lhs' : Expr ν} {n : Nat}
    (h : Regains ws lhs (vs ++ ts') (n + 1))
    (hround : ∀ us e rest, StopsLike us ts' → Run (.loop n lowest lhs') us e rest →
      Run (.loop (n + 1) lowest lhs) (vs ++ us) e rest) : Regains (ws ++ vs) lhs' ts' n := by
  intro us e rest hus hrun
  rw [List.append_assoc]
  exact h (vs ++ us) e rest (hus.append vs) (hround us e rest hus hrun)

/-- The tokens that a run takes, with those that the expression that it begins with was read from. -/
def Traces (ts : List Token) (e : Expr ν) (rest : List Token) : Task ν → Prop
  | .operand n _ => n ≤ maxNesting → InOrder ts → ∃ vs, ts = vs ++ rest ∧ Traced vs e
  | .loop n _ lhs => n ≤ maxNesting → ∀ ws, InOrder (ws ++ ts) → Regains ws lhs ts n → Traced ws lhs →
      ∃ vs, ts = vs ++ rest ∧ Traced (ws ++ vs) e

/-- A start rule has taken some tokens, and the loop goes on from what it has built of them. -/
theorem exists_traced_of_start {n m : Nat} (ws : List Token) {ts' rest : List Token} {lhs e : Expr ν}
    (hgo : Traces ts' e rest (.loop n m lhs)) (hn : n + 1 ≤ maxNesting) (hin : InOrder (ws ++ ts'))
    (hstart : ∀ us e rest, StopsLike us ts' → Run (.loop n lowest lhs) us e rest →
      Run (.operand (n + 1) lowest) (ws ++ us) e rest)
    (hlhs : Run (.operand maxNesting lowest) ws lhs [] → Traced ws lhs) :
    ∃ vs, ws ++ ts' = vs ++ rest ∧ Traced vs e := by
  have hregains := regains_of_start hn hstart
  obtain ⟨vs, rfl, htraced⟩ := hgo (Nat.le_of_succ_le hn) ws hin hregains (hlhs hregains.run)
  exact ⟨ws ++ vs, (List.append_assoc ws vs rest).symm, htraced⟩

/-- An extension rule has taken some more. -/
theorem exists_traced_of_extension {n m : Nat} {ws : List Token} (vs : List Token) {ts' rest : List Token}
    {lhs lhs' e : Expr ν} (hgo : Traces ts' e rest (.loop n m lhs')) (hn : n + 1 ≤ maxNesting)
    (hin : InOrder (ws ++ (vs ++ ts'))) (hregains : Regains ws lhs (vs ++ ts') (n + 1))
    (hround : ∀ us e rest, StopsLike us ts' → Run (.loop n lowest lhs') us e rest →
      Run (.loop (n + 1) lowest lhs) (vs ++ us) e rest)
    (hlhs : Run (.operand maxNesting lowest) (ws ++ vs) lhs' [] → Traced (ws ++ vs) lhs') :
    ∃ us, vs ++ ts' = us ++ rest ∧ Traced (ws ++ us) e := by
  have hregains' := hregains.round hround
  rw [← List.append_assoc] at hin
  obtain ⟨us, rfl, htraced⟩ := hgo (Nat.le_of_succ_le hn) (ws ++ vs) hin hregains' (hlhs hregains'.run)
  rw [List.append_assoc] at htraced
  exact ⟨vs ++ us, (List.append_assoc vs us rest).symm, htraced⟩

/-- **Every node of an expression that is read has its own tokens**, by induction on the run. -/
theorem traced_of_run {task : Task ν} {ts rest : List Token} {e : Expr ν} (h : Run task ts e rest) :
    Traces ts e rest task := by
  induction h with
  | @name t ts n m e rest hkind hrun ih =>
    intro hn hin
    exact exists_traced_of_start [t] ih hn hin (fun _ _ _ _ hloop => .name hkind hloop)
      fun hread => .leaf ⟨hread, covers_token t⟩ rfl
  | @number t ts n m v e rest hkind hread hfinite hrun ih =>
    intro hn hin
    exact exists_traced_of_start [t] ih hn hin (fun _ _ _ _ hloop => .number hkind hread hfinite hloop)
      fun hread => .leaf ⟨hread, covers_token t⟩ rfl
  | @constant t ts n m c e rest hkind hlookup hrun ih =>
    intro hn hin
    exact exists_traced_of_start [t] ih hn hin (fun _ _ _ _ hloop => .constant hkind hlookup hloop)
      fun hread => .leaf ⟨hread, covers_token t⟩ rfl
  | @group t tc ts ts' n m inner e rest hword hinner hclose hrun ihinner ih =>
    intro hn hin
    obtain ⟨vs, rfl, htraced⟩ := ihinner (Nat.le_of_succ_le hn) hin.tail
    have hts : t :: (vs ++ tc :: ts') = [t] ++ (vs ++ [tc]) ++ ts' := by simp
    rw [hts] at hin ⊢
    refine exists_traced_of_start _ ih hn hin (fun us _ _ _ hloop => ?_) fun hread => ?_
    · simpa using Run.group hword (hinner.replay_append (tc :: us) (.of_head rfl)) hclose hloop
    · exact .one ⟨hread, (covers_token t).merge (covers_token tc) hin.left⟩ rfl htraced ⟨[t], [tc], by simp⟩
  | @negation t ts ts' n m inner e rest hword hinner hrun ihinner ih =>
    intro hn hin
    obtain ⟨vs, rfl, htraced⟩ := ihinner (Nat.le_of_succ_le hn) hin.tail
    have hts : t :: (vs ++ ts') = [t] ++ ([] ++ vs) ++ ts' := by simp
    rw [hts] at hin ⊢
    refine exists_traced_of_start _ ih hn hin (fun _ _ _ hus hloop => ?_) fun hread => ?_
    · exact Run.negation hword (hinner.replay_append _ hus) hloop
    · exact .one ⟨hread, (covers_token t).merge htraced.readFrom.covers hin.left⟩ rfl htraced ⟨[t], [], by simp⟩
  | @derivative t ts ts' n m inner e rest hkeyword hinner hwrt hrun ihinner ih =>
    intro hn hin
    obtain ⟨vs, rfl, htraced⟩ := ihinner (Nat.le_of_succ_le hn) hin.tail
    have hts : t :: (vs ++ ts') = [t] ++ ([] ++ vs) ++ ts' := by simp
    rw [hts] at hin ⊢
    refine exists_traced_of_start _ ih hn hin (fun _ _ _ hus hloop => ?_) fun hread => ?_
    · exact Run.derivative hkeyword (hinner.replay_append _ hus) (hus.unnamed hwrt) hloop
    · exact .one ⟨hread, (covers_token t).merge htraced.readFrom.covers hin.left⟩ rfl htraced ⟨[t], [], by simp⟩
  | @derivativeBy t tw tx ts ts' n m inner e rest hkeyword hinner hwrt hkind hrun ihinner ih =>
    intro hn hin
    obtain ⟨vs, rfl, htraced⟩ := ihinner (Nat.le_of_succ_le hn) hin.tail
    have hts : t :: (vs ++ tw :: tx :: ts') = [t] ++ ([] ++ vs) ++ ([tw] ++ [tx]) ++ ts' := by simp
    rw [hts] at hin ⊢
    have hcovers := (covers_token t).merge htraced.readFrom.covers hin.left.left
    refine exists_traced_of_start _ ih hn hin (fun us _ _ _ hloop => ?_) fun hread => ?_
    · simpa using Run.derivativeBy hkeyword (hinner.replay_append (tw :: tx :: us) (.of_head rfl)) hwrt hkind hloop
    · exact .one ⟨hread, hcovers.merge (covers_token tx) hin.left⟩ rfl htraced ⟨[t], [tw, tx], by simp⟩
  | @stop ts n m lhs hstops =>
    intro _ ws _ _ htraced
    exact ⟨[], rfl, by rwa [List.append_nil]⟩
  | @binary t ts ts' n m op lhs rhs e rest hop hword hm hrhs hrun ihrhs ih =>
    intro hn ws hin hregains hlhs
    obtain ⟨vs, rfl, htraced⟩ := ihrhs (Nat.le_of_succ_le hn) hin.right.tail
    have hts : t :: (vs ++ ts') = [t] ++ vs ++ ts' := rfl
    rw [hts] at hin hregains ⊢
    refine exists_traced_of_extension _ ih hn hin hregains (fun _ _ _ hus hloop => ?_) fun hread => ?_
    · exact Run.binary hop hword (Nat.lt_of_le_of_lt (Nat.zero_le m) hm) (hrhs.replay_append _ hus) hloop
    · have hin' : InOrder (ws ++ ([t] ++ vs)) := (List.append_assoc ws _ ts' ▸ hin).left
      exact .two ⟨hread, hlhs.readFrom.covers.merge htraced.readFrom.covers hin'⟩ rfl hlhs htraced
  | @juxtaposed t ts ts' n m lhs rhs e rest hfactor hm hrhs hrun ihrhs ih =>
    intro hn ws hin hregains hlhs
    obtain ⟨vs, hts, htraced⟩ := ihrhs (Nat.le_of_succ_le hn) hin.right
    -- the factor begins with the token that the rule looked at
    obtain ⟨t', vs', hts', -⟩ := hrhs.replay
    obtain ⟨rfl, -⟩ := List.cons.inj hts'
    obtain rfl : vs = t :: vs' := List.append_cancel_right (hts.symm.trans hts')
    rw [hts] at hin hregains hrhs ⊢
    refine exists_traced_of_extension ([] ++ (t :: vs')) ih hn hin hregains (fun _ _ _ hus hloop => ?_) fun hread => ?_
    · exact Run.juxtaposed hfactor (Nat.lt_of_le_of_lt (Nat.zero_le m) hm) (hrhs.replay_append _ hus) hloop
    · have hin' : InOrder (ws ++ ([] ++ (t :: vs'))) := (List.append_assoc ws _ ts' ▸ hin).left
      exact .two ⟨hread, hlhs.readFrom.covers.merge htraced.readFrom.covers hin'⟩ rfl hlhs htraced
  | @factorial t ts n m lhs e rest hword hm hrun ih =>
    intro hn ws hin hregains hlhs
    refine exists_traced_of_extension [t] ih hn hin hregains (fun _ _ _ _ hloop => ?_) fun hread => ?_
    · exact .factorial hword (Nat.lt_of_le_of_lt (Nat.zero_le m) hm) hloop
    · have hin' : InOrder (ws ++ ([] ++ [t])) := (List.append_assoc ws [t] ts ▸ hin).left
      exact .one ⟨hread, hlhs.readFrom.covers.merge (covers_token t) hin'⟩ rfl hlhs (List.prefix_append ws [t]).isInfix

end Parsing

end Formula
