import Formula.Proofs.Parsing.Composition
import Formula.Proofs.Parsing.Language
import Formula.Proofs.Parsing.Outcomes
import Formula.Proofs.RoundTrip

/-!
# `Formula.Proofs.DefaultVariable` — the variable of a derivative that names none

A derivative that names no variable is taken by the primary variable of its operand. That is found by a walk over the
tree; but the tokens of an expression stand in the order of the walk, so that it is the first name in the text. Writing
it down behind the operand changes nothing: the tokens before it keep their places, and they alone decide whether the
operand can be read, and if not, where it is nested too deeply.

## Contents
- `firstName?`; `Parsing.Composes.primaryVariable?_eq` — the primary variable is the first name.
- `Parsing.parseAll_derivative` — the tokens of an operand decide what comes of a derivative, with its variable and
  without; `exists_decided_of_parseAll` — those that can be read do.
- `exists_tokens_derivative` — the tokens of the two texts.
- `parseText_derivative_unspanned`, `parseText_derivative_wrt` — both texts are read alike.
-/

namespace Formula

open Lexis Parsing

/-! ## The first name -/

/-- The first name among tokens. -/
def firstName? (ts : List Token) : Option String := (ts.find? (·.kind == .name)).map Token.text

theorem firstName?_append (us vs : List Token) : firstName? (us ++ vs) = (firstName? us <|> firstName? vs) := by
  rw [firstName?, List.find?_append]
  cases h : us.find? (·.kind == .name) <;> simp [firstName?, h]

theorem firstName?_cons_name {t : Token} (h : t.kind = .name) (us : List Token) :
    firstName? (t :: us) = some t.text := by
  simp [firstName?, h]

theorem firstName?_cons {t : Token} (h : t.kind ≠ .name) (us : List Token) : firstName? (t :: us) = firstName? us := by
  simp [firstName?, h]

/-- A first name is a name. -/
theorem isName_firstName? {ts : List Token} (h : Genuine ts) : ∀ x ∈ firstName? ts, IsName x := by
  intro x hx
  obtain ⟨t, ht, rfl⟩ := Option.map_eq_some_iff.mp hx
  have hword := h t (List.mem_of_find?_eq_some ht)
  have hkind : t.kind = .name := by simpa using List.find?_some ht
  rw [hkind] at hword
  exact (isName_iff t.text).mpr hword

/-- A symbol is no name. -/
theorem firstName?_cons_symbol {t : Token} {x : String} (h : t.word = (.symbol, x)) (us : List Token) :
    firstName? (t :: us) = firstName? us := by
  refine firstName?_cons ?_ us
  rw [(Prod.mk.inj h).1]
  decide

variable {ν : Type} [Numeral ν]

/-- **The primary variable is the first name** among the tokens that compose an expression, where none of them is the
    keyword of a derivative; by induction on how they compose it. -/
theorem Parsing.Composes.primaryVariable?_eq {us : List Token} {e : Expr ν} (h : Composes us e) (hgen : Genuine us)
    (hplain : ∀ t ∈ us, t.isKeyword "derivative" = false) : e.primaryVariable? = firstName? us := by
  induction h with
  | name hkind => rw [firstName?_cons_name hkind, Expr.primaryVariable?]
  | number hkind _ =>
    rw [firstName?_cons (by rw [hkind]; decide)]
    rfl
  | constant hkind _ =>
    rw [firstName?_cons (by rw [hkind]; decide)]
    rfl
  | @group t tc us inner hword hinner hclose ih =>
    have hclose' : tc.word = (.symbol, ")") := word_of_reads_close (hgen tc (by simp)) hclose
    have hinner' := ih (fun t ht => hgen t (by simp [ht])) fun t ht => hplain t (by simp [ht])
    rw [firstName?_cons_symbol hword, firstName?_append, firstName?_cons_symbol hclose', ← hinner',
      Expr.primaryVariable?]
    cases inner.primaryVariable? <;> rfl
  | @negation t us inner hword hinner ih =>
    rw [firstName?_cons_symbol hword, Expr.primaryVariable?]
    exact ih hgen.tail (List.forall_mem_cons.mp hplain).2
  | @derivative t us inner hkeyword hinner ih =>
    rw [(List.forall_mem_cons.mp hplain).1] at hkeyword
    cases hkeyword
  | @derivativeBy t us tw tx inner hkeyword hinner hwrt hkind ih =>
    rw [(List.forall_mem_cons.mp hplain).1] at hkeyword
    cases hkeyword
  | @binary us t vs op l r hop hl hword hr ihl ihr =>
    have hl' := ihl hgen.left fun t ht => hplain t (List.mem_append_left _ ht)
    have hr' := ihr hgen.right.tail fun t ht => hplain t (by simp [ht])
    rw [firstName?_append, firstName?_cons_symbol hword, ← hl', ← hr', Expr.primaryVariable?]
  | @juxtaposed us vs l r hl hr ihl ihr =>
    have hl' := ihl hgen.left fun t ht => hplain t (List.mem_append_left _ ht)
    have hr' := ihr hgen.right fun t ht => hplain t (List.mem_append_right _ ht)
    rw [firstName?_append, ← hl', ← hr', Expr.primaryVariable?]
  | @factorial us t inner hinner hword ih =>
    have hinner' := ih hgen.left fun t ht => hplain t (List.mem_append_left _ ht)
    rw [firstName?_append, firstName?_cons_symbol hword, ← hinner', Expr.primaryVariable?]
    cases inner.primaryVariable? <;> rfl

/-! ## Tokens -/

namespace Parsing

variable {t tw tx : Token} {ts : List Token} {inner : Expr ν}

/-- **A derivative with its variable and without is read alike**, where the tokens of the operand decide what comes of
    reading it with one level less than there are. -/
theorem parseAll_derivative (hkeyword : t.isKeyword "derivative" = true)
    (h : ∀ n, Decided ts (StopsAfter []) (readOperand .standard n lowest) inner) (hwrt : tw.isKeyword "wrt" = true)
    (hname : tx.kind = .name) :
    (parseAll .standard (t :: ts) =
        .ok (.derivative (t.span.merge inner.span) inner (inner.primaryVariable?.getD "x")) ∧
      parseAll .standard (t :: (ts ++ [tw, tx])) =
        .ok (.derivative ((t.span.merge inner.span).merge tx.span) inner tx.text)) ∨
    ∃ err : ParseError, err.NestedTooDeeply ∧ parseAll (ν := ν) .standard (t :: ts) = .error err ∧
      parseAll (ν := ν) .standard (t :: (ts ++ [tw, tx])) = .error err := by
  have hkind : tw.kind = .keyword := by
    rw [Token.isKeyword, Bool.and_eq_true, beq_iff_eq] at hwrt
    exact hwrt.1
  -- A keyword extends nothing, so that `wrt` stops whatever the end of the tokens stops.
  have hstops : StopsAfter [] [tw, tx] := fun m _ => stopsAt_of_none (extensionRule?_keyword hkind) [tx] m
  obtain ⟨n, hlevels⟩ : ∃ n, maxNesting = n + 1 := ⟨_, rfl⟩
  rcases h n with hok | ⟨tok, -, herr⟩
  · have hrun : ∀ us, StopsAfter [] us → Run (.operand n lowest) (ts ++ us) inner us := by
      intro us hus
      obtain ⟨k, hexec⟩ := hok us hus 0
      have hstep : (Task.operand n lowest : Task ν).step.run ⟨0, ts ++ us⟩ = .ok inner ⟨k, us⟩ := hexec
      exact run_of_exec hstep
    have hbare : Run (.operand n lowest) ts inner [] := by
      simpa using hrun [] fun m _ => stopsAt_nil m
    rw [parseAll_iff_run, parseAll_iff_run, hlevels]
    refine .inl ⟨?_, ?_⟩
    · exact .derivative hkeyword hbare closing_nil.unnamed (.stop (stopsAt_nil _))
    · exact .derivativeBy hkeyword (hrun [tw, tx] hstops) hwrt hname (.stop (stopsAt_nil _))
  · have hfails : ∀ us, StopsAfter [] us → parseAll (ν := ν) .standard (t :: (ts ++ us)) = .error (nestedAt tok) := by
      intro us hus
      obtain ⟨c, hinner⟩ := herr us hus 1
      have hbuild : (Start.derivative.build (readOperand (ν := ν) .standard n)).run ⟨0, t :: (ts ++ us)⟩ =
          .error (nestedAt tok) c :=
        (run_bind_ok (run_demand (reads_of_isKeyword hkeyword) 0 _)).trans (run_bind_error hinner)
      refine parseAll_of_run_error (c := c) ?_
      rw [hlevels]
      exact operand_error (startRule?_derivative hkeyword) hbuild
    have hbare := hfails [] fun m _ => stopsAt_nil m
    rw [List.append_nil] at hbare
    exact .inr ⟨nestedAt tok, ⟨_, rfl⟩, hbare, hfails [tw, tx] hstops⟩

end Parsing

/-- **The tokens of a derivative**: one for the keyword, then those of the operand, and where a variable is named, two
    more behind them. -/
theorem exists_tokens_derivative {text x : String} {ts : List Token} (hts : tokensOf text = .ok ts) (hx : IsName x) :
    ∃ t tw tx us, t.word = (.keyword, "derivative") ∧ us.map Token.word = ts.map Token.word ∧
      tw.word = (.keyword, "wrt") ∧ tx.word = (.name, x) ∧ tokensOf ("derivative " ++ text) = .ok (t :: us) ∧
      tokensOf ("derivative " ++ text ++ " wrt " ++ x) = .ok (t :: (us ++ [tw, tx])) := by
  have hoperand : Spells text.toList (ts.map Token.word) := (stands_of_tokensOf hts).spells
  have hderivative : Spells "derivative".toList [(.keyword, "derivative")] := IsWord.spells rfl
  have hwrt : Spells "wrt".toList [(.keyword, "wrt")] := IsWord.spells rfl
  have hname : Spells x.toList [(.name, x)] := ((isName_iff x).mp hx).spells
  have hbare : ("derivative " ++ text).toList = "derivative".toList ++ ' ' :: text.toList := by
    rw [String.toList_append]
    rfl
  have hnamed : ("derivative " ++ text ++ " wrt " ++ x).toList =
      "derivative".toList ++ ' ' :: text.toList ++ ' ' :: ("wrt".toList ++ ' ' :: x.toList) := by
    rw [String.toList_append, String.toList_append, hbare, List.append_assoc _ " wrt ".toList]
    rfl
  obtain ⟨all, hall, hwords⟩ := (hderivative.append (delimited_blank _) hoperand.blank).exists_stands 0
  obtain ⟨named, hstands, hnames⟩ := (hwrt.append (delimited_blank _) hname.blank).blank.exists_stands
    (0 + bytes ("derivative".toList ++ ' ' :: text.toList))
  obtain ⟨t, us, rfl, ht, hus⟩ := List.map_eq_cons_iff.mp hwords
  obtain ⟨tw, rest, rfl, htw, hrest⟩ := List.map_eq_cons_iff.mp hnames
  obtain ⟨tx, rest, rfl, htx, hrest⟩ := List.map_eq_cons_iff.mp hrest
  obtain rfl := List.map_eq_nil_iff.mp hrest
  refine ⟨t, tw, tx, us, ht, hus, htw, htx, ?_, ?_⟩
  · rw [tokensOf, TokenTable.tokens, hbare]
    exact hall.scan none
  · rw [tokensOf, TokenTable.tokens, hnamed]
    exact (hall.append (delimited_blank _) hstands).scan none

/-! ## Texts -/

/-- Tokens that can be read decide what comes of reading them with fewer levels, also where they stand at other places;
    the first name among them is the primary variable of what is read there. -/
theorem exists_decided_of_parseAll {ts us : List Token} {e : Expr ν} (hgen : Genuine ts)
    (h : parseAll .standard ts = .ok e) (hplain : ∀ t ∈ ts, t.isKeyword "derivative" = false)
    (hus : us.map Token.word = ts.map Token.word) :
    ∃ inner : Expr ν, inner.primaryVariable? = firstName? ts ∧
      ∀ n, Decided us (StopsAfter []) (readOperand .standard n lowest) inner := by
  -- Behind the keyword the operand is read on tokens of the same words that stand at other places.
  obtain ⟨inner, rest, hrun, hsame, hrest⟩ := (run_of_parseAll h).respan us hus
  obtain rfl := List.map_eq_nil_iff.mp hrest
  have hplain' : ∀ u ∈ us, u.isKeyword "derivative" = false := by
    intro u hu
    have hword : u.word ∈ ts.map Token.word := hus ▸ List.mem_map_of_mem hu
    obtain ⟨t, ht, htu⟩ := List.mem_map.mp hword
    obtain ⟨hkind, htext⟩ := Prod.mk.inj htu
    have htplain := hplain t ht
    rwa [Token.isKeyword, hkind, htext] at htplain
  obtain ⟨t, vs, rfl, hdecided⟩ := decided_of_run hrun hplain'
  rw [List.append_nil]
  refine ⟨inner, ?_, hdecided⟩
  rw [← Expr.primaryVariable?_unspanned, hsame, Expr.primaryVariable?_unspanned]
  exact (composes_of_parseAll h).primaryVariable?_eq hgen hplain

/-- **A derivative that names no variable is taken by the first name of its operand**: it is read as the one that does,
    up to spans, or neither is and both complain of the nesting at the same place. -/
theorem parseText_derivative_unspanned {text : String} {ts : List Token} {e : Expr ν} (hts : tokensOf text = .ok ts)
    (h : parseText text = .ok e) (hplain : ∀ t ∈ ts, t.isKeyword "derivative" = false) :
    (∃ d d' : Expr ν, parseText ("derivative " ++ text) = .ok d ∧
      parseText ("derivative " ++ text ++ " wrt " ++ (firstName? ts).getD "x") = .ok d' ∧ d.unspanned = d'.unspanned) ∨
    ∃ err : ParseError, err.NestedTooDeeply ∧
      (parseText ("derivative " ++ text) : Except InputError (Expr ν)) = .error (.parse err) ∧
      (parseText ("derivative " ++ text ++ " wrt " ++ (firstName? ts).getD "x") : Except InputError (Expr ν)) =
        .error (.parse err) := by
  obtain ⟨ts', hts', hparse⟩ := exists_tokens_of_parseText h
  obtain rfl := Except.ok.inj (hts.symm.trans hts')
  have hgen := genuine_of_tokensOf hts
  have hname : IsName ((firstName? ts).getD "x") := by
    cases hx : firstName? ts with
    | none => exact isName_x
    | some x => exact isName_firstName? hgen x hx
  obtain ⟨t, tw, tx, us, ht, hus, htw, htx, hbare, hnamed⟩ := exists_tokens_derivative hts hname
  obtain ⟨inner, hfirst, hinner⟩ := exists_decided_of_parseAll hgen hparse hplain hus
  obtain ⟨hkind, htext⟩ := Prod.mk.inj htx
  rcases parseAll_derivative (isKeyword_of_word ht) hinner (isKeyword_of_word htw) hkind with
    ⟨hok, hok'⟩ | ⟨err, hnested, herr, herr'⟩
  · refine .inl ⟨_, _, parseText_of_parseAll hbare hok, parseText_of_parseAll hnamed hok', ?_⟩
    rw [Expr.unspanned, Expr.unspanned, htext, hfirst]
  · exact .inr ⟨err, hnested, parseText_of_parseAll_error hbare herr, parseText_of_parseAll_error hnamed herr'⟩

/-- **Naming the first name of the operand changes nothing**: a derivative is read as the same tree with its variable
    and without, or neither is read and both complain of the nesting at the same place. -/
theorem parseText_derivative_wrt {text : String} {ts : List Token} {e : Expr Float} (hts : tokensOf text = .ok ts)
    (h : parseText text = .ok e) (hplain : ∀ t ∈ ts, t.isKeyword "derivative" = false) :
    (∃ d d' : Expr Float, parseText ("derivative " ++ text) = .ok d ∧
      parseText ("derivative " ++ text ++ " wrt " ++ (firstName? ts).getD "x") = .ok d' ∧ d.same d' = true) ∨
    ∃ err : ParseError, err.NestedTooDeeply ∧
      (parseText ("derivative " ++ text) : Except InputError (Expr Float)) = .error (.parse err) ∧
      (parseText ("derivative " ++ text ++ " wrt " ++ (firstName? ts).getD "x") : Except InputError (Expr Float)) =
        .error (.parse err) := by
  rcases parseText_derivative_unspanned hts h hplain with ⟨d, d', hd, hd', hspans⟩ | hnested
  · exact .inl ⟨d, d', hd, hd', Expr.same_of_unspanned hspans (Expr.same_self (written_of_parseText hd).1)⟩
  · exact .inr hnested

/-- A sum in which a number stands before the names. -/
theorem parseText_derivative_wrt_sum :
    let ts : List Token := [⟨.number, "2", ⟨0, 1⟩⟩, ⟨.name, "y", ⟨2, 3⟩⟩, ⟨.symbol, "+", ⟨4, 5⟩⟩, ⟨.name, "x", ⟨6, 7⟩⟩]
    tokensOf "2 y + x" = .ok ts ∧ (∀ t ∈ ts, t.isKeyword "derivative" = false) ∧
      ∃ d d' : Expr Float, parseText "derivative 2 y + x" = .ok d ∧
        parseText "derivative 2 y + x wrt y" = .ok d' ∧ d.same d' = true := by
  intro ts
  let us : List Token := [⟨.keyword, "derivative", ⟨0, 10⟩⟩, ⟨.number, "2", ⟨11, 12⟩⟩, ⟨.name, "y", ⟨13, 14⟩⟩,
    ⟨.symbol, "+", ⟨15, 16⟩⟩, ⟨.name, "x", ⟨17, 18⟩⟩]
  -- Word by word, as running the scan takes much longer to check.
  have hsum : Stands 0 "2 y + x".toList ts :=
    .word (n := 1) rfl (.skip rfl (.word (n := 1) rfl (.skip rfl (.word (n := 1) rfl (.skip rfl
      (.word (n := 1) rfl .nil))))))
  have hderivative : Stands 0 "derivative 2 y + x".toList us :=
    .word (n := 10) rfl (.skip rfl (.word (n := 1) rfl (.skip rfl (.word (n := 1) rfl (.skip rfl
      (.word (n := 1) rfl (.skip rfl (.word (n := 1) rfl .nil))))))))
  have hts : tokensOf "2 y + x" = .ok ts := hsum.scan none
  have hus : tokensOf "derivative 2 y + x" = .ok us := hderivative.scan none
  have hplain : ∀ t ∈ ts, t.isKeyword "derivative" = false := by decide +kernel
  have hparse : (parseAll .standard ts : Except ParseError (Expr Float)) = .ok (.binary ⟨0, 7⟩ .add
      (.binary ⟨0, 3⟩ .juxtapose (.literal ⟨0, 1⟩ 2) (.var ⟨2, 3⟩ "y")) (.var ⟨6, 7⟩ "x")) := by decide +kernel
  have hparse' : (parseAll .standard us : Except ParseError (Expr Float)) = .ok (.derivative ⟨0, 18⟩
      (.binary ⟨11, 18⟩ .add (.binary ⟨11, 14⟩ .juxtapose (.literal ⟨11, 12⟩ 2) (.var ⟨13, 14⟩ "y"))
        (.var ⟨17, 18⟩ "x")) "y") := by decide +kernel
  refine ⟨hts, hplain, ?_⟩
  rcases parseText_derivative_wrt hts (parseText_of_parseAll hts hparse) hplain with hread | ⟨err, -, herr, -⟩
  · exact hread
  · have hok := parseText_of_parseAll hus hparse'
    cases hok.symm.trans herr

end Formula
