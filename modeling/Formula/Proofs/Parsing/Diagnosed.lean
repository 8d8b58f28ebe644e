import Formula.Proofs.Parsing.Parsed

/-!
# `Formula.Proofs.Parsing.Diagnosed` — the parser's errors are the input's

The rules take faults into account that the tables would have to be blamed for: a rule without its token, a number that
cannot be read, an operator of the wrong kind. None of them happens with the standard grammar on the tokens of a text,
since every rule is chosen by the token that it then asks for. What remains are diagnoses, and each of them points at
the start of a token or at the end of the input.

## Contents
- `ParseError.PointsInto` — a diagnosis at one of some tokens or at the end.
- `Diagnosed`, `KeepsTo` — a step that keeps to some tokens, whether it succeeds or not.
- `diagnosed_extension`, `diagnosed_start` — the rules; `loops_keepTo` — the two loops.
- `pointsInto_of_parseAll` — whole lists of tokens.
-/

namespace Formula

open Lexis

/-- **A diagnosis that points at one of the tokens**, or at the end of the input. -/
def ParseError.PointsInto (ts : List Token) (err : ParseError) : Prop :=
  ∃ d, err = .diagnosed d ∧ (d.location = .endOfInput ∨ ∃ t ∈ ts, d.location = .offset t.span.start)

theorem ParseError.pointsInto_complain {ts : List Token} {t : Token} (h : t ∈ ts) (complaint : Complaint) :
    (ParseError.complain complaint t.span.start).PointsInto ts :=
  ⟨_, rfl, Or.inr ⟨t, h, rfl⟩⟩

theorem ParseError.pointsInto_complainAtEnd (ts : List Token) (complaint : Complaint) :
    (ParseError.complainAtEnd complaint).PointsInto ts :=
  ⟨_, rfl, Or.inl rfl⟩

namespace Parsing

variable {α β : Type} {ts : List Token}

/-- **What a step comes to that keeps to some tokens**: it leaves a rest of them, or its error points at one. -/
def Diagnosed (ts : List Token) : EStateM.Result ParseError Cursor α → Prop
  | .ok _ c => c.rest <:+ ts
  | .error err _ => err.PointsInto ts

/-- A step that keeps to some tokens from wherever it begins among them. -/
def KeepsTo (ts : List Token) (x : Parsing α) : Prop := ∀ c, c.rest <:+ ts → Diagnosed ts (x.run c)

theorem Diagnosed.bind {x : Parsing α} {f : α → Parsing β} {c : Cursor} (hx : Diagnosed ts (x.run c))
    (hf : ∀ a, KeepsTo ts (f a)) : Diagnosed ts ((x >>= f).run c) := by
  cases hrun : x.run c with
  | ok a c' =>
    rw [hrun] at hx
    rw [run_bind_ok hrun]
    exact hf a c' hx
  | error err c' =>
    rw [hrun] at hx
    rw [run_bind_error hrun]
    exact hx

theorem KeepsTo.bind {x : Parsing α} {f : α → Parsing β} (hx : KeepsTo ts x) (hf : ∀ a, KeepsTo ts (f a)) :
    KeepsTo ts (x >>= f) :=
  fun c hc => (hx c hc).bind hf

theorem KeepsTo.pure (a : α) : KeepsTo ts (pure a) := fun _ hc => hc

theorem tail_suffix {t : Token} {rest : List Token} (h : t :: rest <:+ ts) : rest <:+ ts :=
  List.IsSuffix.trans (List.suffix_cons t rest) h

/-! ## Steps on single tokens -/

/-- A complaint about the next token points at it, and a complaint about its absence at the end of the input. -/
theorem complainHere_keepsTo (complaint : Option String → Complaint) :
    KeepsTo ts (complainHere complaint : Parsing α) := by
  rintro ⟨k, rest⟩ hc
  cases rest with
  | nil => exact ParseError.pointsInto_complainAtEnd ts _
  | cons t rest => exact ParseError.pointsInto_complain (hc.subset List.mem_cons_self) _

theorem expect_keepsTo (text : String) : KeepsTo ts (expect text) := by
  rintro ⟨k, rest⟩ hc
  cases rest with
  | nil => exact ParseError.pointsInto_complainAtEnd ts _
  | cons t rest =>
    show Diagnosed ts ((if t.reads text then current else complainHere (.expected text)).run ⟨k, t :: rest⟩)
    split
    · exact tail_suffix hc
    · exact complainHere_keepsTo _ _ hc

theorem readVariable_keepsTo : KeepsTo ts readVariable := by
  rintro ⟨k, rest⟩ hc
  cases rest with
  | nil => exact ParseError.pointsInto_complainAtEnd ts _
  | cons t rest =>
    show Diagnosed ts ((if t.kind = .name then (pure t : Parsing Token) else throw _).run ⟨k + 1, rest⟩)
    split
    · exact tail_suffix hc
    · exact ParseError.pointsInto_complain (hc.subset List.mem_cons_self) _

variable {ν : Type}

theorem readConstant_keepsTo {t : Token} (ht : t ∈ ts) : KeepsTo ts (readConstant t : Parsing (Expr ν)) := by
  intro c hc
  rw [readConstant]
  split
  · exact hc
  · exact ParseError.pointsInto_complain ht _

/-- What comes after the operand of a derivative. -/
theorem readDerivative_keepsTo (keyword : Token) (e : Expr ν) : KeepsTo ts (readDerivative keyword e) := by
  rintro ⟨k, rest⟩ hc
  rw [readDerivative, run_bind_ok (run_peek k rest)]
  cases rest with
  | nil => exact hc
  | cons tw rest =>
    simp only [List.head?_cons]
    split
    · exact (readVariable_keepsTo.bind fun name => .pure _) ⟨k + 1, rest⟩ (tail_suffix hc)
    · exact hc

/-! ## Going on from an expression -/

variable {operand : Nat → Parsing (Expr ν)} {k : Nat} {t : Token} {rest : List Token}

/-- An extension rule finds the token that it was chosen by, and it carries an operator of its own kind. -/
theorem diagnosed_extension (hread : ∀ m, KeepsTo ts (operand m)) {rule : ExtensionRule}
    (hcontinues : Continues t rule) (lhs : Expr ν) (hc : t :: rest <:+ ts) :
    Diagnosed ts ((rule.build operand lhs).run ⟨k, t :: rest⟩) := by
  have hrest : rest <:+ ts := tail_suffix hc
  cases hcontinues with
  | binary hop hword => exact ((hread _).bind fun rhs => .pure _) ⟨k + 1, rest⟩ hrest
  | factorial hword => exact hrest
  | juxtaposed hfactor => exact ((hread _).bind fun rhs => .pure _) ⟨k, t :: rest⟩ hc

variable [Numeral ν]

/-- The loop with one more level. -/
theorem climb_keepsTo_of {n : Nat}
    (h : ∀ n', n = n' + 1 → (∀ m, KeepsTo ts (readOperand (ν := ν) .standard n' m)) ∧
      ∀ m (lhs : Expr ν), KeepsTo ts (climb .standard n' m lhs)) (m : Nat) (lhs : Expr ν) :
    KeepsTo ts (climb .standard n m lhs) := by
  rintro ⟨k, rest⟩ hc
  by_cases hstops : Stops .standard m rest
  · rw [climb_run_of_stops hstops]
    exact hc
  · obtain ⟨t, rest, rule, rfl, hrule, hm⟩ := exists_rule_of_not_stops hstops
    cases n with
    | zero =>
      rw [climb_run_nested hrule hm]
      exact complainHere_keepsTo _ _ hc
    | succ n =>
      obtain ⟨hread, hclimb⟩ := h n rfl
      rw [climb_run_step hrule hm]
      exact (diagnosed_extension hread (continues_of_extensionRule? hrule) lhs hc).bind (hclimb m)

/-! ## Beginning an expression -/

variable [Arithmetic ν] [LawfulNumeral ν]

/-- The text of a number can be read. -/
theorem readLiteral_keepsTo (ht : t ∈ ts) (hword : IsWord .number t.text) :
    KeepsTo ts (readLiteral t : Parsing (Expr ν)) := by
  intro c hc
  obtain ⟨v, hv, -⟩ := LawfulNumeral.exists_read (ν := ν) hword.number
  rw [readLiteral, hv]
  simp only
  split
  · exact hc
  · exact ParseError.pointsInto_complain ht _

/-- A start rule finds the token that it was chosen by. -/
theorem diagnosed_start (hts : Genuine ts) (hread : ∀ m, KeepsTo ts (operand m)) {start : Start}
    (hbegins : Begins t start) (hc : t :: rest <:+ ts) : Diagnosed ts ((start.build operand).run ⟨k, t :: rest⟩) := by
  have ht : t ∈ ts := hc.subset List.mem_cons_self
  have hrest : rest <:+ ts := tail_suffix hc
  cases hbegins with
  | name hkind => exact hrest
  | number hkind =>
    have hword := hts t ht
    rw [hkind] at hword
    exact readLiteral_keepsTo ht hword ⟨k + 1, rest⟩ hrest
  | constant hkind => exact readConstant_keepsTo ht ⟨k + 1, rest⟩ hrest
  | group hword =>
    rw [Start.build, run_bind_ok (run_demand (reads_of_word hword) k rest)]
    exact ((hread _).bind fun inner => (expect_keepsTo ")").bind fun closing => .pure _) _ hrest
  | negation hword =>
    rw [Start.build, run_bind_ok (run_demand (reads_of_word hword) k rest)]
    exact ((hread _).bind fun inner => .pure _) _ hrest
  | derivative hkeyword =>
    rw [Start.build, run_bind_ok (run_demand (reads_of_isKeyword hkeyword) k rest)]
    exact ((hread _).bind fun inner => readDerivative_keepsTo t inner) _ hrest
  | integral hkeyword => exact ParseError.pointsInto_complain ht _

/-! ## The two loops -/

/-- **The two loops keep to the tokens**, by induction on the levels that are left. -/
theorem loops_keepTo (hts : Genuine ts) (n : Nat) : (∀ m, KeepsTo ts (readOperand (ν := ν) .standard n m)) ∧
    ∀ m (lhs : Expr ν), KeepsTo ts (climb .standard n m lhs) := by
  induction n with
  | zero =>
    constructor
    · intro m
      rw [readOperand]
      exact complainHere_keepsTo _
    · exact climb_keepsTo_of fun n' hn => by cases hn
  | succ n ih =>
    obtain ⟨hread, hclimb⟩ := ih
    constructor
    · rintro m ⟨k, rest⟩ hc
      rcases missing_or_exists_startRule .standard rest with hmissing | ⟨t, rest, rule, rfl, hrule⟩
      · rw [readOperand_run_missing hmissing]
        exact complainHere_keepsTo _ _ hc
      · rw [readOperand_run hrule]
        exact (diagnosed_start hts hread (begins_of_startRule? hrule) hc).bind (hclimb m)
    · refine climb_keepsTo_of fun n' hn => ?_
      obtain rfl := Nat.succ.inj hn
      exact ⟨hread, hclimb⟩

/-- **Tokens that are no expression have a diagnosis** at one of them or at their end. -/
theorem pointsInto_of_parseAll (hts : Genuine ts) {err : ParseError}
    (h : (parseAll .standard ts : Except ParseError (Expr ν)) = .error err) : err.PointsInto ts := by
  have hread := (loops_keepTo (ν := ν) hts maxNesting).1 lowest ⟨0, ts⟩ (List.suffix_refl ts)
  cases hrun : (readOperand (ν := ν) .standard maxNesting lowest).run ⟨0, ts⟩ with
  | error err' c =>
    rw [hrun] at hread
    obtain rfl := Except.error.inj ((parseAll_of_run_error hrun).symm.trans h)
    exact hread
  | ok e c =>
    -- an expression was read, and a token comes after it
    rw [parseAll_of_run_ok hrun] at h
    cases hnext : ts[c.consumed]? with
    | none =>
      rw [hnext] at h
      cases h
    | some t =>
      rw [hnext] at h
      cases h
      exact ParseError.pointsInto_complain (List.mem_of_getElem? hnext) _

end Parsing

end Formula
