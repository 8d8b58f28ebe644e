import Formula.Proofs.Parsing.Nesting
import Formula.Proofs.Parsing.Parsed
import Formula.Proofs.Parsing.Resuming

/-!
# `Formula.Proofs.Parsing.Blame` — a failure of the parser and the token it is blamed on

The parser looks one token ahead and never takes back what it has read. So a failure at a token depends on nothing
behind that token. And the parser complains as soon as it can: what has been begun in front of the token can still be
finished, by a name where an operand is due, and by a parenthesis for each group that is open. Only the limit of nesting
is another matter.

## Contents
- `Closing`, `Task.Alike` — what may complete a task.
- `FailsAt`, `Blames`, `Blamed` — what it means that a task fails at the first token that is wrong.
- `Judges` — steps on single tokens.
- `blamed_of_start`, `blamed_of_extension` — the rules; `loops_failEarly` — the two loops.
-/

namespace Formula

open Lexis

/-- The location of the next token, or the end of the input. -/
def locationOf : List Token → Location
  | t :: _ => .offset t.span.start
  | [] => .endOfInput

namespace Parsing

variable {ν : Type} [Numeral ν]

/-! ## Completions -/

/-- Tokens at which everything ends: none, or a closing parenthesis first. -/
def Closing (us : List Token) : Prop := ∀ t ∈ us.head?, t.word = (.symbol, ")")

theorem closing_nil : Closing [] := fun t ht => by cases ht

theorem Closing.stopsLike {us : List Token} (h : Closing us) (ts : List Token) : StopsLike us ts := by
  cases us with
  | nil => exact .nil ts
  | cons t us => exact .close (h t rfl) us ts

theorem Closing.stopsAt {us : List Token} (h : Closing us) (m : Nat) : StopsAt m us :=
  (h.stopsLike []).stops m (stopsAt_nil m)

theorem Closing.unnamed {us : List Token} (h : Closing us) : ∀ t ∈ us.head?, t.isKeyword "wrt" = false :=
  (h.stopsLike []).unnamed fun t ht => by cases ht

/-- A name, which completes anything that an operand is due in. -/
def aName : Token := ⟨.name, "x", .nowhere⟩

/-- A closing parenthesis, which completes a group. -/
def aClose : Token := ⟨.symbol, ")", .nowhere⟩

theorem genuine_aName : Genuine [aName] := by
  intro t ht
  obtain rfl := List.mem_singleton.mp ht
  exact (isName_iff "x").mp isName_x

theorem genuine_aClose : Genuine [aClose] := by
  intro t ht
  obtain rfl := List.mem_singleton.mp ht
  rfl

theorem closing_aClose (us : List Token) : Closing (aClose :: us) := fun _ ht => by
  obtain rfl := Option.some.inj ht
  rfl

/-- A name is an operand. -/
theorem run_aName (n m : Nat) {us : List Token} (hus : Closing us) :
    Run (.operand (n + 1) m) (aName :: us) (.var .nowhere "x" : Expr ν) us :=
  .name rfl (.stop (hus.stopsAt m))

/-- Factors that follow each other stop alike. -/
theorem StopsLike.factor {t t' : Token} (h : BeginsFactor t.word) (h' : BeginsFactor t'.word) (us ts : List Token) :
    StopsLike (t :: us) (t' :: ts) := by
  obtain ⟨token, hrule⟩ := extensionRule?_juxtaposed h
  obtain ⟨token', hrule'⟩ := extensionRule?_juxtaposed h'
  constructor
  · intro m hm t'' ht'' rule hr
    obtain rfl := Option.some.inj ht''
    obtain rfl := Option.some.inj (hrule.symm.trans hr)
    exact hm t' rfl (.juxtaposed token') hrule'
  · intro _ t'' ht''
    obtain rfl := Option.some.inj ht''
    cases hwrt : t.isKeyword "wrt" with
    | false => rfl
    | true => exact absurd h (not_beginsFactor_keyword hwrt)

/-- How a completion begins where a task has taken no token: with a name where it is to read an operand; and a loop
    that goes on must not stop sooner what has been left behind for it. -/
def Task.Alike (vs ws us rest : List Token) : Task ν → Prop
  | .operand _ _ => vs = [] → ∃ t ∈ ws.head?, t.kind = .name
  | .loop _ _ _ => StopsLike (vs ++ (ws ++ us)) (vs ++ rest)

omit [Numeral ν] in
theorem Task.alike_of_cons (task : Task ν) (t : Token) (vs ws us rest : List Token) :
    task.Alike (t :: vs) ws us rest := by
  cases task with
  | operand n m => exact fun h => absurd h (List.cons_ne_nil t vs)
  | loop n m lhs => exact .of_head rfl

/-! ## Errors -/

/-- **A step fails at a token.** It has taken `vs`, and the error lies where `rest` begins; it fails alike whatever
    follows the first token of `rest`. -/
structure FailsAt {α : Type} (x : Parsing α) (vs rest : List Token) (err : ParseError) : Prop where
  isAt : ∃ complaint, err = .diagnosed ⟨complaint, locationOf rest⟩
  fails : ∀ us, us.head? = rest.head? → ∀ k, ∃ c, x.run ⟨k, vs ++ us⟩ = .error err c

/-- **A task fails at the first token that is wrong**: unless it is nested too deeply, what it has taken can be
    completed in front of anything at which all ends. -/
structure Blames (task : Task ν) (vs rest : List Token) (err : ParseError) : Prop
    extends FailsAt task.step vs rest err where
  completes : ¬ err.NestedTooDeeply → ∀ us, Closing us →
    ∃ ws e, Genuine ws ∧ task.Alike vs ws us rest ∧ Run task (vs ++ (ws ++ us)) e us

/-- A task fails at the first token that is wrong among those that it is given. -/
def Blamed (task : Task ν) (ts : List Token) (err : ParseError) : Prop :=
  ∃ vs rest, ts = vs ++ rest ∧ Blames task vs rest err

/-- **A task whose every failure is early.** -/
def Task.FailsEarly (task : Task ν) : Prop :=
  ∀ k ts err c, Genuine ts → task.step.run ⟨k, ts⟩ = .error err c → Blamed task ts err

/-- The complaint that needs no token is about the next one or about the end. -/
theorem complainHere_run {α : Type} (complaint : Option String → Complaint) (k : Nat) (ts : List Token) :
    (complainHere complaint : Parsing α).run ⟨k, ts⟩ =
      .error (.diagnosed ⟨complaint (ts.head?.map Token.text), locationOf ts⟩) ⟨k, ts⟩ := by
  cases ts <;> rfl

theorem locationOf_of_head {us ts : List Token} (h : us.head? = ts.head?) : locationOf us = locationOf ts := by
  cases us <;> cases ts <;> simp_all [locationOf]

/-- An error of what a task comes to is an error of the task. -/
theorem Blamed.of_comesTo {task : Task ν} {n m : Nat} {lhs : Expr ν} {t : Token} {vs ts : List Token}
    {err : ParseError} (h : Blamed (.loop n m lhs) ts err) (hcomes : ComesTo task (t :: vs) (.loop n m lhs) ts) :
    Blamed task (t :: (vs ++ ts)) err := by
  obtain ⟨vs', rest, rfl, hblames⟩ := h
  refine ⟨t :: (vs ++ vs'), rest, by simp, ⟨hblames.isAt, fun us hus k => ?_⟩, fun hnested us hus => ?_⟩
  · obtain ⟨k', hk'⟩ := hcomes (vs' ++ us) ((StopsLike.of_head hus).append vs') k
    obtain ⟨c, hc⟩ := hblames.fails us hus k'
    refine ⟨c, ?_⟩
    rw [← hc, ← hk', ← List.cons_append, List.append_assoc]
  · obtain ⟨ws, e, hws, halike, hrun⟩ := hblames.completes hnested us hus
    have hrun' := hcomes.run halike hrun
    rw [← List.append_assoc] at hrun'
    exact ⟨ws, e, hws, task.alike_of_cons t _ ws us rest, hrun'⟩

/-- An error of an operand is an error of the operation that it belongs to, which has begun with a token of its own
    and ends with some more. -/
theorem Blames.of_operand {task : Task ν} {n m : Nat} {t : Token} {vs rest : List Token} {err : ParseError}
    (ending : List Token) (h : Blames (.operand n m : Task ν) vs rest err) (hgenuine : Genuine ending)
    (hfails : ∀ us k c, (Task.operand n m : Task ν).step.run ⟨k + 1, us⟩ = .error err c →
      task.step.run ⟨k, t :: us⟩ = .error err c)
    (hcloses : ∀ us, Closing us → Closing (ending ++ us))
    (hcompletes : ∀ us ts (e : Expr ν), Closing us → Run (.operand n m) ts e (ending ++ us) →
      ∃ e', Run task (t :: ts) e' us) :
    Blames task (t :: vs) rest err where
  isAt := h.isAt
  fails us hus k := by
    obtain ⟨c, hc⟩ := h.fails us hus (k + 1)
    exact ⟨c, hfails (vs ++ us) k c hc⟩
  completes hnested us hus := by
    obtain ⟨ws, e, hws, -, hrun⟩ := h.completes hnested (ending ++ us) (hcloses us hus)
    obtain ⟨e', hrun'⟩ := hcompletes us _ e hus hrun
    refine ⟨ws ++ ending, e', hws.append hgenuine, task.alike_of_cons t vs _ us rest, ?_⟩
    rwa [List.append_assoc]

/-- An error where an operand is due: a name could stand there. -/
theorem FailsAt.blames_operand {n m : Nat} {ts : List Token} {err : ParseError}
    (h : FailsAt (Task.operand (n + 1) m : Task ν).step [] ts err) :
    Blames (.operand (n + 1) m : Task ν) [] ts err where
  toFailsAt := h
  completes _ _ hus := ⟨[aName], _, genuine_aName, fun _ => ⟨aName, rfl, rfl⟩, run_aName n m hus⟩

/-- Running out of levels is no matter of completions. -/
theorem FailsAt.blames_nested {task : Task ν} {ts : List Token} {err : ParseError} (h : FailsAt task.step [] ts err)
    (hnested : err.NestedTooDeeply) : Blames task [] ts err where
  toFailsAt := h
  completes hnot := absurd hnested hnot

/-! ## Steps on single tokens that fail -/

/-- **A step that judges the next token alone**: where it fails it points there, and it fails alike wherever that token
    comes next. -/
def Judges {α : Type} (x : Parsing α) : Prop :=
  ∀ k ts err c, x.run ⟨k, ts⟩ = .error err c → FailsAt x [] ts err

/-- Any step that either takes a token or complains about it is one. -/
theorem judges_of_next {α : Type} {x : Parsing α}
    (hnil : ∃ complaint, ∀ k, ∃ c, x.run ⟨k, []⟩ = .error (.complainAtEnd complaint) c)
    (hcons : ∀ t, (∀ k ts, ∃ a c, x.run ⟨k, t :: ts⟩ = .ok a c) ∨
      ∃ complaint, ∀ k ts, ∃ c, x.run ⟨k, t :: ts⟩ = .error (.complain complaint t.span.start) c) : Judges x := by
  intro k ts err c h
  cases ts with
  | nil =>
    obtain ⟨complaint, hfails⟩ := hnil
    obtain ⟨c', hc⟩ := hfails k
    cases hc.symm.trans h
    refine ⟨⟨complaint, rfl⟩, fun us hus k => ?_⟩
    obtain rfl := List.head?_eq_none_iff.mp hus
    exact hfails k
  | cons t ts =>
    rcases hcons t with htakes | ⟨complaint, hfails⟩
    · obtain ⟨a, c', hc⟩ := htakes k ts
      cases hc.symm.trans h
    · obtain ⟨c', hc⟩ := hfails k ts
      cases hc.symm.trans h
      refine ⟨⟨complaint, rfl⟩, fun us hus k => ?_⟩
      obtain ⟨us, rfl⟩ : ∃ us', us = t :: us' := ⟨_, List.eq_cons_of_mem_head? hus⟩
      exact hfails k us

theorem judges_expect (text : String) : Judges (expect text) := by
  refine judges_of_next ⟨_, fun k => ⟨⟨k, []⟩, rfl⟩⟩ fun t => ?_
  by_cases hreads : t.reads text = true
  · exact Or.inl fun k ts => ⟨_, _, run_expect hreads k ts⟩
  · refine Or.inr ⟨.expected text (some t.text), fun k ts => ⟨⟨k, t :: ts⟩, ?_⟩⟩
    show (if t.reads text then current else complainHere (.expected text)).run ⟨k, t :: ts⟩ = _
    rw [if_neg hreads]
    rfl

theorem judges_readVariable : Judges readVariable := by
  refine judges_of_next ⟨_, fun k => ⟨⟨k, []⟩, rfl⟩⟩ fun t => ?_
  by_cases hkind : t.kind = .name
  · exact Or.inl fun k ts => ⟨_, _, run_readVariable hkind k ts⟩
  · refine Or.inr ⟨.variableMissing (some t.text), fun k ts => ⟨⟨k + 1, ts⟩, ?_⟩⟩
    show (if t.kind = .name then (pure t : Parsing Token) else throw _).run ⟨k + 1, ts⟩ = _
    rw [if_neg hkind]
    rfl

omit [Numeral ν] in
/-- After the keyword for it, a derivative reads its variable. -/
theorem run_readDerivative_wrt {tw : Token} (hwrt : tw.isKeyword "wrt" = true) (keyword : Token) (e : Expr ν) (k : Nat)
    (ts : List Token) : (readDerivative keyword e).run ⟨k, tw :: ts⟩ = (readVariable >>= fun name =>
      pure (.derivative ((keyword.span.merge e.span).merge name.span) e name.text)).run ⟨k + 1, ts⟩ := by
  rw [readDerivative, run_bind_ok (run_peek k (tw :: ts))]
  simp only [List.head?_cons, hwrt, if_true]
  rfl

omit [Numeral ν] in
theorem readDerivative_error {keyword : Token} {e : Expr ν} {k : Nat} {ts : List Token} {err : ParseError} {c : Cursor}
    (h : (readDerivative keyword e).run ⟨k, ts⟩ = .error err c) :
    ∃ tw ts', ts = tw :: ts' ∧ tw.isKeyword "wrt" = true ∧ FailsAt (readDerivative keyword e) [tw] ts' err := by
  by_cases hwrt : ∀ t ∈ ts.head?, t.isKeyword "wrt" = false
  · rw [run_readDerivative hwrt] at h
    cases h
  · simp only [not_forall, Bool.not_eq_false] at hwrt
    obtain ⟨tw, htw, hwrt⟩ := hwrt
    obtain ⟨ts, rfl⟩ : ∃ ts', ts = tw :: ts' := ⟨_, List.eq_cons_of_mem_head? htw⟩
    rw [run_readDerivative_wrt hwrt] at h
    rcases error_of_run_bind h with hname | ⟨name, c', -, hpure⟩
    · obtain ⟨hat, hfails⟩ := judges_readVariable _ _ _ _ hname
      refine ⟨tw, ts, rfl, hwrt, hat, fun us hus k => ?_⟩
      obtain ⟨c, hc⟩ := hfails us hus (k + 1)
      exact ⟨c, (run_readDerivative_wrt hwrt keyword e k us).trans (run_bind_error hc)⟩
    · cases hpure

/-! ## Beginning an expression -/

section Start

variable {token : TokenMatch} {t : Token} {ts : List Token} {n m k : Nat} {err : ParseError} {c : Cursor}

/-- An error of a start rule is an error of the operand. -/
theorem operand_error {start : Start} (hrule : Grammar.standard.startRule? t = some ⟨token, start⟩)
    (h : (start.build (readOperand (ν := ν) .standard n)).run ⟨k, t :: ts⟩ = .error err c) :
    (Task.operand (n + 1) m : Task ν).step.run ⟨k, t :: ts⟩ = .error err c := by
  rw [Task.step, readOperand_run hrule]
  exact run_bind_error h

/-- What a start rule complains about its own token. -/
theorem blamed_of_first {start : Start} (hrule : Grammar.standard.startRule? t = some ⟨token, start⟩)
    (complaint : Complaint) (h : ∀ k us, ∃ c, (start.build (readOperand (ν := ν) .standard n)).run ⟨k, t :: us⟩ =
      .error (.complain complaint t.span.start) c) (ts : List Token) :
    Blamed (.operand (n + 1) m : Task ν) (t :: ts) (.complain complaint t.span.start) := by
  refine ⟨[], t :: ts, rfl, FailsAt.blames_operand ⟨⟨complaint, rfl⟩, fun us hus k => ?_⟩⟩
  obtain ⟨us, rfl⟩ : ∃ us', us = t :: us' := ⟨_, List.eq_cons_of_mem_head? hus⟩
  obtain ⟨c, hc⟩ := h k us
  exact ⟨c, operand_error hrule hc⟩

/-- A group fails inside, or where it should be closed. -/
theorem blamed_of_group (hrule : Grammar.standard.startRule? t = some ⟨token, .group⟩) (hword : t.word = (.symbol, "("))
    (hinside : (Task.operand n lowest : Task ν).FailsEarly) (hts : Genuine ts)
    (h : (Start.group.build (readOperand (ν := ν) .standard n)).run ⟨k, t :: ts⟩ = .error err c) :
    Blamed (.operand (n + 1) m : Task ν) (t :: ts) err := by
  have hbuild : ∀ k us, (Start.group.build (readOperand (ν := ν) .standard n)).run ⟨k, t :: us⟩ =
      (readOperand .standard n lowest >>= fun inner => expect ")" >>= fun closing =>
        pure (.paren (t.span.merge closing.span) inner)).run ⟨k + 1, us⟩ :=
    fun k us => run_bind_ok (run_demand (reads_of_word hword) k us)
  rw [hbuild] at h
  rcases error_of_run_bind h with hinner | ⟨inner, ⟨k₁, ts₁⟩, hinner, h⟩
  · obtain ⟨vs, rest, rfl, hblames⟩ := hinside _ _ _ _ hts hinner
    refine ⟨t :: vs, rest, rfl, hblames.of_operand [aClose] genuine_aClose ?_ (fun us _ => closing_aClose us) ?_⟩
    · exact fun us k c herr => operand_error hrule ((hbuild k us).trans (run_bind_error herr))
    · exact fun us ts e hus hrun => ⟨_, .group hword hrun rfl (.stop (hus.stopsAt m))⟩
  · rcases error_of_run_bind h with hclose | ⟨closing, c₂, -, hpure⟩
    · obtain ⟨hat, hfails⟩ := judges_expect _ _ _ _ _ hclose
      obtain ⟨ti, vs, rfl, hreplay⟩ := ((run_of_loops n).1 hinner).1.replay
      refine ⟨t :: ti :: vs, ts₁, rfl, ⟨hat, fun us hus k => ?_⟩, fun _ us hus => ?_⟩
      · obtain ⟨k', hrun⟩ := (hreplay us (.of_head hus)).exec (k + 1)
        obtain ⟨c', herr⟩ := hfails us hus k'
        exact ⟨c', operand_error hrule ((hbuild k _).trans ((run_bind_ok hrun).trans (run_bind_error herr)))⟩
      · have hrun := hreplay (aClose :: us) (.close rfl us ts₁)
        exact ⟨[aClose], _, genuine_aClose, Task.alike_of_cons _ t _ _ us ts₁,
          .group hword hrun rfl (.stop (hus.stopsAt m))⟩
    · cases hpure

/-- A negation fails inside. -/
theorem blamed_of_negation (hrule : Grammar.standard.startRule? t = some ⟨token, .negation⟩)
    (hword : t.word = (.symbol, "-")) (hinside : (Task.operand n UnaryOp.neg.binding.threshold : Task ν).FailsEarly)
    (hts : Genuine ts)
    (h : (Start.negation.build (readOperand (ν := ν) .standard n)).run ⟨k, t :: ts⟩ = .error err c) :
    Blamed (.operand (n + 1) m : Task ν) (t :: ts) err := by
  have hbuild : ∀ k us, (Start.negation.build (readOperand (ν := ν) .standard n)).run ⟨k, t :: us⟩ =
      (readOperand .standard n UnaryOp.neg.binding.threshold >>= fun inner =>
        pure (.unary (t.span.merge inner.span) .neg inner)).run ⟨k + 1, us⟩ :=
    fun k us => run_bind_ok (run_demand (reads_of_word hword) k us)
  rw [hbuild] at h
  rcases error_of_run_bind h with hinner | ⟨inner, c₁, -, hpure⟩
  · obtain ⟨vs, rest, rfl, hblames⟩ := hinside _ _ _ _ hts hinner
    refine ⟨t :: vs, rest, rfl, hblames.of_operand [] genuine_nil ?_ (fun us hus => hus) ?_⟩
    · exact fun us k c herr => operand_error hrule ((hbuild k us).trans (run_bind_error herr))
    · exact fun us ts e hus hrun => ⟨_, .negation hword hrun (.stop (hus.stopsAt m))⟩
  · cases hpure

/-- A derivative fails inside, or at the variable that it is taken by. -/
theorem blamed_of_derivative (hrule : Grammar.standard.startRule? t = some ⟨token, .derivative⟩)
    (hkeyword : t.isKeyword "derivative" = true) (hinside : (Task.operand n lowest : Task ν).FailsEarly)
    (hts : Genuine ts)
    (h : (Start.derivative.build (readOperand (ν := ν) .standard n)).run ⟨k, t :: ts⟩ = .error err c) :
    Blamed (.operand (n + 1) m : Task ν) (t :: ts) err := by
  have hbuild : ∀ k us, (Start.derivative.build (readOperand (ν := ν) .standard n)).run ⟨k, t :: us⟩ =
      (readOperand .standard n lowest >>= fun inner => readDerivative t inner).run ⟨k + 1, us⟩ :=
    fun k us => run_bind_ok (run_demand (reads_of_isKeyword hkeyword) k us)
  rw [hbuild] at h
  rcases error_of_run_bind h with hinner | ⟨inner, ⟨k₁, ts₁⟩, hinner, hby⟩
  · obtain ⟨vs, rest, rfl, hblames⟩ := hinside _ _ _ _ hts hinner
    refine ⟨t :: vs, rest, rfl, hblames.of_operand [] genuine_nil ?_ (fun us hus => hus) ?_⟩
    · exact fun us k c herr => operand_error hrule ((hbuild k us).trans (run_bind_error herr))
    · exact fun us ts e hus hrun => ⟨_, .derivative hkeyword hrun hus.unnamed (.stop (hus.stopsAt m))⟩
  · obtain ⟨tw, ts₂, rfl, hwrt, hat, hfails⟩ := readDerivative_error hby
    obtain ⟨ti, vs, rfl, hreplay⟩ := ((run_of_loops n).1 hinner).1.replay
    have hrun : ∀ us, Run (.operand n lowest) (ti :: (vs ++ tw :: us)) inner (tw :: us) :=
      fun us => hreplay (tw :: us) (.of_head rfl)
    refine ⟨t :: ti :: (vs ++ [tw]), ts₂, by simp, ⟨hat, fun us hus k => ?_⟩, fun _ us hus => ?_⟩
    · obtain ⟨k', hexec⟩ := (hrun us).exec (k + 1)
      obtain ⟨c', herr⟩ := hfails us hus k'
      refine ⟨c', ?_⟩
      rw [List.cons_append, List.cons_append, List.append_assoc]
      exact operand_error hrule ((hbuild k _).trans ((run_bind_ok hexec).trans herr))
    · have hderivative := Run.derivativeBy hkeyword (hrun (aName :: us)) hwrt rfl (.stop (hus.stopsAt m))
      have happend : t :: ti :: (vs ++ tw :: aName :: us) = t :: ti :: (vs ++ [tw]) ++ ([aName] ++ us) := by simp
      rw [happend] at hderivative
      exact ⟨[aName], _, genuine_aName, Task.alike_of_cons _ t _ _ us ts₂, hderivative⟩

variable [Arithmetic ν] [LawfulNumeral ν]

/-- **Where an expression begins, a failure is early**, one case for each start rule. -/
theorem blamed_of_start {start : Start} (hrule : Grammar.standard.startRule? t = some ⟨token, start⟩)
    (hinside : ∀ m, (Task.operand n m : Task ν).FailsEarly) (hts : Genuine (t :: ts))
    (h : (start.build (readOperand (ν := ν) .standard n)).run ⟨k, t :: ts⟩ = .error err c) :
    Blamed (.operand (n + 1) m : Task ν) (t :: ts) err := by
  have hbegins : Begins t start := begins_of_startRule? hrule
  have hword : IsWord t.kind t.text := hts t List.mem_cons_self
  cases hbegins with
  | name hkind => cases h
  | number hkind =>
    rw [hkind] at hword
    obtain ⟨v, hv, -⟩ := LawfulNumeral.exists_read (ν := ν) hword.number
    have hbuild : ∀ k us, (Start.number.build (readOperand (ν := ν) .standard n)).run ⟨k, t :: us⟩ =
        (if Numeral.isFinite v then pure (.literal t.span v) else
          throw (.complain .numberTooLarge t.span.start) : Parsing (Expr ν)).run ⟨k + 1, us⟩ := by
      intro k us
      refine (run_bind_ok (run_current k t us)).trans ?_
      rw [readLiteral, hv]
    rw [hbuild] at h
    split at h
    · cases h
    · next hinfinite =>
      cases h
      refine blamed_of_first hrule _ (fun k us => ⟨⟨k + 1, us⟩, ?_⟩) ts
      rw [hbuild, if_neg hinfinite]
      rfl
  | constant hkind =>
    rw [hkind] at hword
    have hconstant : ∃ v, Constant.lookup? t.text = some v := by
      rcases hword.constant with htext | htext <;> rw [htext] <;> exact ⟨_, rfl⟩
    obtain ⟨v, hv⟩ := hconstant
    have hbuild : (readConstant t : Parsing (Expr ν)).run ⟨k + 1, ts⟩ = .error err c :=
      (run_bind_ok (run_current k t ts)).symm.trans h
    rw [readConstant, hv] at hbuild
    cases hbuild
  | group hparen => exact blamed_of_group hrule hparen (hinside lowest) hts.tail h
  | negation hminus => exact blamed_of_negation hrule hminus (hinside _) hts.tail h
  | derivative hkeyword => exact blamed_of_derivative hrule hkeyword (hinside lowest) hts.tail h
  | integral hkeyword =>
    cases h
    exact blamed_of_first hrule _ (fun k us => ⟨⟨k + 1, us⟩, rfl⟩) ts

end Start

/-! ## Going on from an expression -/

/-- An operation fails inside its right operand, which for a factor is at the very token that the rule looks at. -/
theorem blamed_of_extension {rule : ExtensionRule} {t : Token} {ts : List Token} {n m k : Nat} {lhs : Expr ν}
    {err : ParseError} {c : Cursor} (hrule : Grammar.standard.extensionRule? t = some rule) (hm : m < rule.precedence)
    (hinside : ∀ m, (Task.operand n m : Task ν).FailsEarly) (hts : Genuine (t :: ts))
    (h : (rule.build (readOperand .standard n) lhs).run ⟨k, t :: ts⟩ = .error err c) :
    Blamed (.loop (n + 1) m lhs) (t :: ts) err := by
  have hloop : ∀ k us c, (rule.build (readOperand .standard n) lhs).run ⟨k, t :: us⟩ = .error err c →
      (Task.loop (n + 1) m lhs).step.run ⟨k, t :: us⟩ = .error err c := fun k us c herr =>
    (climb_run_step hrule hm n k us lhs).trans (run_bind_error herr)
  cases continues_of_extensionRule? hrule with
  | @binary op hop hword =>
    rcases error_of_run_bind (x := readOperand .standard n op.binding.threshold) (c := ⟨k + 1, ts⟩) h with
      hrhs | ⟨rhs, c₁, -, hpure⟩
    · obtain ⟨vs, rest, rfl, hblames⟩ := hinside _ _ _ _ _ hts.tail hrhs
      refine ⟨t :: vs, rest, rfl, hblames.of_operand [] genuine_nil ?_ (fun us hus => hus) ?_⟩
      · exact fun us k c herr => hloop k us c (run_bind_error (x := readOperand .standard n _) herr)
      · exact fun us ts e hus hrun => ⟨_, .binary hop hword hm hrun (.stop (hus.stopsAt m))⟩
    · cases hpure
  | factorial hword => cases h
  | juxtaposed hfactor =>
    rcases error_of_run_bind (x := readOperand .standard n _) h with hrhs | ⟨rhs, c₁, -, hpure⟩
    · obtain ⟨vs, rest, hvs, hblames⟩ := hinside _ _ _ _ _ hts hrhs
      refine ⟨vs, rest, hvs, ⟨hblames.isAt, fun us hus k => ?_⟩, fun hnested us hus => ?_⟩
      · have hhead : (vs ++ us).head? = some t := by
          rw [List.head?_append, hus, ← List.head?_append, ← hvs, List.head?_cons]
        obtain ⟨c, hc⟩ := hblames.fails us hus k
        obtain ⟨us', hus'⟩ : ∃ us', vs ++ us = t :: us' := ⟨_, List.eq_cons_of_mem_head? hhead⟩
        rw [hus'] at hc ⊢
        exact ⟨c, hloop k us' c (run_bind_error (x := readOperand .standard n _) hc)⟩
      · obtain ⟨ws, e, hws, halike, hrun⟩ := hblames.completes hnested us hus
        cases vs with
        | cons t' vs =>
          obtain ⟨rfl, rfl⟩ := List.cons.inj hvs
          exact ⟨ws, _, hws, Task.alike_of_cons _ t vs ws us rest, .juxtaposed hfactor hm hrun (.stop (hus.stopsAt m))⟩
        | nil =>
          -- the factor is completed by a name, which is a factor as well
          obtain ⟨tn, htn, hkind⟩ := halike rfl
          obtain ⟨ws, rfl⟩ : ∃ ws', ws = tn :: ws' := ⟨_, List.eq_cons_of_mem_head? htn⟩
          obtain rfl : t :: ts = rest := hvs
          exact ⟨tn :: ws, _, hws, StopsLike.factor (Or.inl hkind) hfactor (ws ++ us) ts,
            .juxtaposed (Or.inl hkind) hm hrun (.stop (hus.stopsAt m))⟩
    · cases hpure

/-! ## The two loops -/

/-- A task that complains where it is, about whatever token that is. -/
theorem failsAt_of_complainHere {task : Task ν} {complaint : Option String → Complaint} {k : Nat} {ts : List Token}
    {err : ParseError} {c : Cursor} (herr : task.step.run ⟨k, ts⟩ = .error err c)
    (h : ∀ us, us.head? = ts.head? → ∀ k, task.step.run ⟨k, us⟩ = (complainHere complaint).run ⟨k, us⟩) :
    FailsAt task.step [] ts err ∧ ∃ l, err = .diagnosed ⟨complaint (ts.head?.map Token.text), l⟩ := by
  have hrun : ∀ us, us.head? = ts.head? → ∀ k, task.step.run ⟨k, us⟩ =
      .error (.diagnosed ⟨complaint (ts.head?.map Token.text), locationOf ts⟩) ⟨k, us⟩ := fun us hus k => by
    rw [h us hus k, complainHere_run, hus, locationOf_of_head hus]
  cases (hrun ts rfl k).symm.trans herr
  exact ⟨⟨⟨_, rfl⟩, fun us hus k => ⟨_, hrun us hus k⟩⟩, _, rfl⟩

/-- The loop with one more level. -/
theorem loop_failsEarly_of {n : Nat} (h : ∀ n', n = n' + 1 → (∀ m, (Task.operand n' m : Task ν).FailsEarly) ∧
      ∀ m lhs, (Task.loop n' m lhs : Task ν).FailsEarly) (m : Nat) (lhs : Expr ν) :
    (Task.loop n m lhs).FailsEarly := by
  intro k ts err c hts herr
  by_cases hstops : StopsAt m ts
  · have hok : (Task.loop n m lhs).step.run ⟨k, ts⟩ = .ok lhs ⟨k, ts⟩ := climb_run_of_stops hstops n k lhs
    rw [hok] at herr
    cases herr
  · obtain ⟨t, ts, rule, rfl, hrule, hm⟩ := exists_rule_of_not_stops hstops
    cases n with
    | zero =>
      obtain ⟨hfails, hnested⟩ := failsAt_of_complainHere herr fun us hus k => by
        obtain ⟨us, rfl⟩ : ∃ us', us = t :: us' := ⟨_, List.eq_cons_of_mem_head? hus⟩
        exact climb_run_nested hrule hm k us lhs
      exact ⟨[], t :: ts, rfl, hfails.blames_nested hnested⟩
    | succ n =>
      obtain ⟨hinside, hgoes⟩ := h n rfl
      rcases error_of_run_bind ((climb_run_step hrule hm n k ts lhs).symm.trans herr) with
        hbuild | ⟨lhs', c₁, hbuild, hloop⟩
      · exact blamed_of_extension hrule hm hinside hts hbuild
      · obtain ⟨vs, rfl, hcomes⟩ := comesTo_of_extension hrule hm (continues_of_extensionRule? hrule) hbuild
        exact (hgoes m lhs' _ _ err c hts.tail.right hloop).of_comesTo hcomes

variable [Arithmetic ν] [LawfulNumeral ν]

/-- **Every failure of the two loops is early**, by induction on the levels that are left. -/
theorem loops_failEarly (n : Nat) : (∀ m, (Task.operand n m : Task ν).FailsEarly) ∧
    ∀ m lhs, (Task.loop n m lhs : Task ν).FailsEarly := by
  induction n with
  | zero =>
    refine ⟨fun m k ts err c _ herr => ?_, loop_failsEarly_of fun n' hn => by cases hn⟩
    obtain ⟨hfails, hnested⟩ := failsAt_of_complainHere herr fun us _ k => by rw [Task.step, readOperand]
    exact ⟨[], ts, rfl, hfails.blames_nested hnested⟩
  | succ n ih =>
    refine ⟨fun m k ts err c hts herr => ?_, loop_failsEarly_of fun n' hn => ?_⟩
    · rcases missing_or_exists_startRule .standard ts with hmissing | ⟨t, ts, ⟨token, start⟩, rfl, hrule⟩
      · obtain ⟨hfails, -⟩ := failsAt_of_complainHere herr fun us hus k =>
          readOperand_run_missing (hus ▸ hmissing) n m k
        exact ⟨[], ts, rfl, hfails.blames_operand⟩
      · rcases error_of_run_bind ((readOperand_run hrule n m k ts).symm.trans herr) with
          hbuild | ⟨lhs, c₁, hbuild, hloop⟩
        · exact blamed_of_start hrule ih.1 hts hbuild
        · obtain ⟨vs, rfl, hcomes⟩ := comesTo_of_start hrule (begins_of_startRule? hrule) hbuild
          exact (ih.2 m lhs _ _ err c hts.tail.right hloop).of_comesTo hcomes
    · obtain rfl := Nat.succ.inj hn
      exact ih

end Parsing

end Formula
