import Formula.Proofs.Parsing.Nesting

/-!
# `Formula.Proofs.Parsing.Advancing` — the parser only moves forwards, and goes by what is ahead

Whatever the grammar, a step of the parser takes some of the tokens ahead and gives a value or an error, and it does so
whatever was consumed before. Each level of nesting is paid for with tokens: of three levels at most two are entered
before another token is taken. So the nesting is given up only where there are tokens enough, and how many they have to
be is counted along with those that a step takes.

## Contents
- `Cursor.advance`.
- `Takes` — what a step makes of the tokens ahead, closed under sequences; the steps on single tokens.
- `takes_start_build`, `takes_extension_build` — the rules of any grammar.
- `takes_loops` — the two loops of the parser; `exists_run_of_parseAll` — a list of tokens that is read to its end.
-/

namespace Formula

/-- The cursor after so many further tokens. -/
def Cursor.advance (c : Cursor) (i : Nat) : Cursor := ⟨c.consumed + i, c.rest.drop i⟩

theorem Cursor.advance_advance (c : Cursor) (i j : Nat) : (c.advance i).advance j = c.advance (i + j) := by
  simp only [Cursor.advance, List.drop_drop, Nat.add_assoc]

theorem ParseError.not_nestedTooDeeply_fault (f : Fault) : ¬ (ParseError.fault f).NestedTooDeeply := by
  rintro ⟨l, h⟩
  cases h

theorem ParseError.not_nestedTooDeeply_complain {complaint : Complaint} (h : complaint ≠ .nestedTooDeeply) (o : Nat) :
    ¬ (ParseError.complain complaint o).NestedTooDeeply := by
  rintro ⟨l, h'⟩
  cases h'
  exact h rfl

theorem ParseError.not_nestedTooDeeply_complainAtEnd {complaint : Complaint} (h : complaint ≠ .nestedTooDeeply) :
    ¬ (ParseError.complainAtEnd complaint).NestedTooDeeply := by
  rintro ⟨l, h'⟩
  cases h'
  exact h rfl

namespace Parsing

variable {α β : Type}

/-- **What a step makes of the tokens ahead**, whatever was consumed before them: it takes some of them and gives a
    value or an error. With a value it takes at least `least`, and it gives up on account of the nesting only where two
    for each token make `deep`. -/
def Takes (least deep : Nat) (x : Parsing α) : Prop :=
  ∀ ts : List Token, ∃ i, i ≤ ts.length ∧
    ((∃ a, least ≤ i ∧ ∀ k, x.run ⟨k, ts⟩ = .ok a (Cursor.advance ⟨k, ts⟩ i)) ∨
      ∃ err : ParseError, (err.NestedTooDeeply → deep ≤ 2 * ts.length) ∧
        ∀ k, x.run ⟨k, ts⟩ = .error err (Cursor.advance ⟨k, ts⟩ i))

variable {least least' deep deep' : Nat}

theorem Takes.mono {x : Parsing α} (h : Takes least deep x) (hleast : least' ≤ least) (hdeep : deep' ≤ deep) :
    Takes least' deep' x := by
  intro ts
  obtain ⟨i, hi, ⟨a, hle, hrun⟩ | ⟨err, herr, hrun⟩⟩ := h ts
  · exact ⟨i, hi, Or.inl ⟨a, Nat.le_trans hleast hle, hrun⟩⟩
  · exact ⟨i, hi, Or.inr ⟨err, fun hnested => Nat.le_trans hdeep (herr hnested), hrun⟩⟩

/-- A step that gives a value has moved the cursor on. -/
theorem Takes.exists_advance {x : Parsing α} (h : Takes least deep x) {c c' : Cursor} {a : α}
    (hrun : x.run c = .ok a c') : ∃ i, i ≤ c.rest.length ∧ least ≤ i ∧ c' = c.advance i := by
  obtain ⟨i, hi, ⟨a', hle, hok⟩ | ⟨err, -, herror⟩⟩ := h c.rest
  · obtain ⟨-, rfl⟩ := EStateM.Result.ok.inj ((hok c.consumed).symm.trans hrun)
    exact ⟨i, hi, hle, rfl⟩
  · cases (herror c.consumed).symm.trans hrun

/-- A step that gives up on account of the nesting had tokens enough for it. -/
theorem Takes.deep_le {x : Parsing α} (h : Takes least deep x) {c c' : Cursor} {err : ParseError}
    (hrun : x.run c = .error err c') (hnested : err.NestedTooDeeply) : deep ≤ 2 * c.rest.length := by
  obtain ⟨i, -, ⟨a, -, hok⟩ | ⟨err', hdeep, herror⟩⟩ := h c.rest
  · cases (hok c.consumed).symm.trans hrun
  · obtain ⟨rfl, -⟩ := EStateM.Result.error.inj ((herror c.consumed).symm.trans hrun)
    exact hdeep hnested

/-- **A sequence of steps** takes what its steps take. Where the second one gives up, the first one has taken tokens. -/
theorem Takes.bind {x : Parsing α} {f : α → Parsing β} (hx : Takes least deep x) (hf : ∀ a, Takes least' deep' (f a))
    (hdeep : deep ≤ deep' + 2 * least) : Takes (least + least') deep (x >>= f) := by
  intro ts
  obtain ⟨i, hi, ⟨a, hle, hrun⟩ | ⟨err, herr, hrun⟩⟩ := hx ts
  · obtain ⟨j, hj, hout⟩ := hf a (ts.drop i)
    rw [List.length_drop] at hj hout
    refine ⟨i + j, by omega, ?_⟩
    rcases hout with ⟨b, hle', hrun'⟩ | ⟨err, herr, hrun'⟩
    · refine Or.inl ⟨b, by omega, fun k => ?_⟩
      rw [run_bind_ok (hrun k), ← Cursor.advance_advance]
      exact hrun' (k + i)
    · refine Or.inr ⟨err, fun hnested => ?_, fun k => ?_⟩
      · have hdeep' := herr hnested
        omega
      · rw [run_bind_ok (hrun k), ← Cursor.advance_advance]
        exact hrun' (k + i)
  · exact ⟨i, hi, Or.inr ⟨err, herr, fun k => run_bind_error (hrun k)⟩⟩

/-- A sequence whose second step never gives up. -/
theorem Takes.andThen {x : Parsing α} {f : α → Parsing β} (hx : Takes least deep x)
    (hf : ∀ a, Takes 0 deep (f a)) : Takes least deep (x >>= f) :=
  hx.bind hf (Nat.le_add_right deep _)

theorem Takes.pure (a : α) : Takes 0 deep (pure a : Parsing α) :=
  fun _ => ⟨0, Nat.zero_le _, Or.inl ⟨a, Nat.le_refl 0, fun _ => rfl⟩⟩

/-! ## Steps on single tokens -/

/-- An error on account of anything but the nesting. -/
theorem takes_throw {err : ParseError} (h : ¬ err.NestedTooDeeply) : Takes least deep (throw err : Parsing α) :=
  fun _ => ⟨0, Nat.zero_le _, Or.inr ⟨err, fun hnested => absurd hnested h, fun _ => rfl⟩⟩

theorem takes_fault (f : Fault) : Takes least deep (throw (.fault f) : Parsing α) :=
  takes_throw (ParseError.not_nestedTooDeeply_fault f)

theorem takes_complain {complaint : Complaint} (h : complaint ≠ .nestedTooDeeply) (o : Nat) :
    Takes least deep (throw (.complain complaint o) : Parsing α) :=
  takes_throw (ParseError.not_nestedTooDeeply_complain h o)

/-- A step that takes the next token. -/
theorem takes_of_cons {x : Parsing α} {f : Token → Parsing α} {err : ParseError} (herr : ¬ err.NestedTooDeeply)
    (hnil : ∀ k, x.run ⟨k, []⟩ = .error err ⟨k, []⟩)
    (hcons : ∀ k t ts, x.run ⟨k, t :: ts⟩ = (f t).run ⟨k + 1, ts⟩) (hf : ∀ t, Takes 0 deep (f t)) : Takes 1 deep x := by
  intro ts
  cases ts with
  | nil => exact ⟨0, Nat.zero_le _, Or.inr ⟨err, fun hnested => absurd hnested herr, hnil⟩⟩
  | cons t ts =>
    obtain ⟨i, hi, hout⟩ := hf t ts
    refine ⟨1 + i, by rw [List.length_cons]; omega, ?_⟩
    rcases hout with ⟨a, -, hrun⟩ | ⟨err', herr', hrun⟩
    · refine Or.inl ⟨a, Nat.le_add_right 1 i, fun k => ?_⟩
      rw [hcons, hrun, ← Cursor.advance_advance]
      rfl
    · refine Or.inr ⟨err', fun hnested => ?_, fun k => ?_⟩
      · exact Nat.le_trans (herr' hnested) (by rw [List.length_cons]; omega)
      · rw [hcons, hrun, ← Cursor.advance_advance]
        rfl

theorem takes_current : Takes 1 deep current :=
  takes_of_cons (ParseError.not_nestedTooDeeply_fault .atEnd) (fun _ => rfl) (fun _ _ _ => rfl) fun t => .pure t

theorem takes_demand (text : String) : Takes 1 deep (demand text) := by
  refine takes_of_cons (ParseError.not_nestedTooDeeply_fault (.expected text none)) (fun _ => rfl)
    (f := fun t => if t.reads text then Pure.pure t else throw (.fault (.expected text (some t.text))))
    (fun _ _ _ => rfl) fun t => ?_
  split
  · exact .pure t
  · exact takes_fault _

theorem takes_complainHere {complaint : Option String → Complaint} (h : ∀ got, complaint got ≠ .nestedTooDeeply) :
    Takes least deep (complainHere complaint : Parsing α) := by
  intro ts
  cases ts with
  | nil =>
    have hnested := ParseError.not_nestedTooDeeply_complainAtEnd (h none)
    exact ⟨0, Nat.zero_le _, Or.inr ⟨_, fun hdeep => absurd hdeep hnested, fun _ => rfl⟩⟩
  | cons t ts =>
    have hnested := ParseError.not_nestedTooDeeply_complain (h (some t.text)) t.span.start
    exact ⟨0, Nat.zero_le _, Or.inr ⟨_, fun hdeep => absurd hdeep hnested, fun _ => rfl⟩⟩

/-- A step that looks at the next token first. -/
theorem takes_of_peek {f : Option Token → Parsing α} (hf : ∀ next, Takes least deep (f next)) :
    Takes least deep (peek? 0 >>= f) := by
  intro ts
  obtain ⟨i, hi, hout⟩ := hf ts.head? ts
  refine ⟨i, hi, ?_⟩
  simp only [run_bind_ok (run_peek _ ts)]
  exact hout

theorem takes_next : Takes 0 deep next? := by
  intro ts
  cases ts with
  | nil => exact ⟨0, Nat.zero_le _, Or.inl ⟨none, Nat.le_refl 0, fun _ => rfl⟩⟩
  | cons t ts => exact ⟨1, by simp, Or.inl ⟨some t, Nat.zero_le 1, fun _ => rfl⟩⟩

theorem takes_expect (text : String) : Takes 0 deep (expect text) := by
  have hexpected (got : Option String) : Complaint.expected text got ≠ .nestedTooDeeply := by
    intro h
    cases h
  refine takes_of_peek fun next => ?_
  cases next with
  | none => exact takes_complainHere hexpected
  | some t =>
    simp only
    split
    · exact takes_current.mono (Nat.zero_le 1) (Nat.le_refl deep)
    · exact takes_complainHere hexpected

theorem takes_readVariable : Takes 1 deep readVariable := by
  have hmissing : ¬ (ParseError.complainAtEnd (.variableMissing none)).NestedTooDeeply :=
    ParseError.not_nestedTooDeeply_complainAtEnd nofun
  refine takes_of_cons hmissing (fun _ => rfl)
    (f := fun t => if t.kind = .name then Pure.pure t else
      throw (.complain (.variableMissing (some t.text)) t.span.start)) (fun _ _ _ => rfl) fun t => ?_
  split
  · exact .pure t
  · exact takes_complain (by nofun) _

variable {ν : Type}

theorem takes_readLiteral [Numeral ν] (t : Token) : Takes 0 deep (readLiteral t : Parsing (Expr ν)) := by
  rw [readLiteral]
  split
  · exact takes_fault _
  · split
    · exact .pure _
    · exact takes_complain (by nofun) _

theorem takes_readConstant (t : Token) : Takes 0 deep (readConstant t : Parsing (Expr ν)) := by
  rw [readConstant]
  split
  · exact .pure _
  · exact takes_complain (by nofun) _

theorem takes_readDerivative (keyword : Token) (e : Expr ν) : Takes 0 deep (readDerivative keyword e) := by
  refine takes_of_peek fun next => ?_
  cases next with
  | none => exact .pure _
  | some t =>
    simp only
    split
    · have hname : Takes 0 deep readVariable := takes_readVariable.mono (Nat.zero_le 1) (Nat.le_refl deep)
      exact takes_next.andThen fun _ => hname.andThen fun _ => .pure _
    · exact .pure _

/-! ## The rules -/

variable {operand : Nat → Parsing (Expr ν)}

/-- What a start rule builds takes a token before it reads an operand. -/
theorem takes_start_build [Numeral ν] (h : ∀ m, Takes 1 deep (operand m)) (start : Start) :
    Takes 1 (deep + 2) (start.build operand) := by
  have hoperand (m : Nat) : Takes 0 deep (operand m) := (h m).mono (Nat.zero_le 1) (Nat.le_refl deep)
  cases start with
  | «variable» => exact takes_current.andThen fun t => .pure _
  | number => exact takes_current.andThen takes_readLiteral
  | constant => exact takes_current.andThen takes_readConstant
  | group =>
    have hrest (opening : Token) := (hoperand lowest).andThen fun inner =>
      (takes_expect ")").andThen fun closing => .pure (Expr.paren (opening.span.merge closing.span) inner)
    exact (takes_demand "(").bind hrest (Nat.le_refl _)
  | negation =>
    have hrest (minus : Token) := (hoperand UnaryOp.neg.binding.threshold).andThen fun e =>
      .pure (Expr.unary (minus.span.merge e.span) .neg e)
    exact (takes_demand "-").bind hrest (Nat.le_refl _)
  | derivative =>
    have hrest (keyword : Token) := (hoperand lowest).andThen fun e => takes_readDerivative keyword e
    exact (takes_demand "derivative").bind hrest (Nat.le_refl _)
  | integral =>
    exact takes_current.andThen fun t => takes_complain (by nofun) _

/-- What an extension rule builds may begin with an operand. -/
theorem takes_extension_build (h : ∀ m, Takes 1 deep (operand m)) (rule : ExtensionRule) (lhs : Expr ν) :
    Takes 1 deep (rule.build operand lhs) := by
  obtain ⟨token, operator, extension⟩ := rule
  cases extension with
  | binary =>
    cases operator with
    | binary op =>
      have hrest := ((h op.binding.threshold).mono (Nat.zero_le 1) (Nat.le_refl deep)).andThen fun rhs =>
        .pure (Expr.binary (lhs.span.merge rhs.span) op lhs rhs)
      exact takes_current.andThen fun _ => hrest
    | unary op => exact takes_fault _
  | unary =>
    cases operator with
    | binary op => exact takes_fault _
    | unary op => exact takes_current.andThen fun t => .pure _
  | juxtaposed => exact (h _).andThen fun rhs => .pure _

/-! ## The two loops -/

variable [Numeral ν]

/-- Where no level is left, an operand is given up. -/
theorem takes_nestedTooDeeply : Takes least 0 (complainHere (fun _ => .nestedTooDeeply) : Parsing α) := by
  intro ts
  cases ts with
  | nil => exact ⟨0, Nat.zero_le _, Or.inr ⟨_, fun _ => Nat.zero_le _, fun _ => rfl⟩⟩
  | cons t ts => exact ⟨0, Nat.zero_le _, Or.inr ⟨_, fun _ => Nat.zero_le _, fun _ => rfl⟩⟩

/-- **The two loops of the parser**, with any grammar and by induction on the levels that are left. To give up an
    operand takes one token more than half of the levels, and to give up the loop that many. -/
theorem takes_loops (g : Grammar) (n : Nat) : (∀ m, Takes 1 (n - 1) (readOperand (ν := ν) g n m)) ∧
    ∀ m (lhs : Expr ν), Takes 0 (n - 2) (climb g n m lhs) := by
  induction n with
  | zero =>
    constructor
    · intro m
      rw [readOperand]
      exact takes_nestedTooDeeply
    · intro m lhs
      rw [climb_zero_eq]
      refine takes_of_peek fun next => ?_
      cases nextExtension? g m next with
      | none => exact .pure lhs
      | some rule => exact takes_nestedTooDeeply
  | succ n ih =>
    obtain ⟨hread, hclimb⟩ := ih
    constructor
    · intro m
      have hmissing (got : Option String) : Complaint.operandMissing got ≠ .nestedTooDeeply := by
        intro h
        cases h
      rw [readOperand_succ_eq]
      refine takes_of_peek fun next => ?_
      cases nextStart? g next with
      | none => exact takes_complainHere hmissing
      | some rule =>
        have hbuild := (takes_start_build hread rule.start).mono (Nat.le_refl 1) (show n + 1 - 1 ≤ n - 1 + 2 by omega)
        exact hbuild.bind (hclimb m) (by omega)
    · intro m lhs
      rw [climb_succ_eq]
      refine takes_of_peek fun next => ?_
      cases nextExtension? g m next with
      | none => exact .pure lhs
      | some rule =>
        have hbuild := (takes_extension_build hread rule lhs).bind (hclimb m) (show n - 1 ≤ n - 2 + 2 * 1 by omega)
        exact hbuild.mono (Nat.zero_le _) (show n + 1 - 2 ≤ n - 1 by omega)

/-! ## Whole lists of tokens -/

/-- A list of tokens that is read as an expression is taken to its end. -/
theorem exists_run_of_parseAll {g : Grammar} {ts : List Token} {e : Expr ν} (h : parseAll g ts = .ok e) :
    (readOperand g maxNesting lowest).run ⟨0, ts⟩ = .ok e ⟨ts.length, []⟩ := by
  cases hread : (readOperand (ν := ν) g maxNesting lowest).run ⟨0, ts⟩ with
  | error err c =>
    rw [parseAll_of_run_error hread] at h
    cases h
  | ok e' c =>
    obtain ⟨i, hi, -, rfl⟩ := ((takes_loops g maxNesting).1 lowest).exists_advance hread
    rw [parseAll_of_run_ok hread, Cursor.advance, Nat.zero_add] at h
    cases hnext : ts[i]? with
    | some t =>
      rw [hnext] at h
      cases h
    | none =>
      rw [hnext] at h
      cases h
      obtain rfl : i = ts.length := Nat.le_antisymm hi (List.getElem?_eq_none_iff.mp hnext)
      rw [Cursor.advance, Nat.zero_add, List.drop_length]

end Parsing

end Formula
