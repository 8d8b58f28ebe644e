import Formula.Proofs.Parsing.Parsed

/-!
# `Formula.Proofs.Parsing.Language` — the input language as a grammar, and that the parser keeps to it

The grammar has one symbol and is ambiguous: it says nothing about precedences, nor about which derivative a
variable belongs to. Whatever the parser reads is derived by it.

## Contents
- `Language` — the lists of tokens that the grammar derives.
- `derives_of_run`, `language_of_parseAll` — what is read is in the language.
-/

namespace Formula

open Lexis

/-- **The input language**: the lists of tokens that are derived by the rules

    ```text
    E → name | constant pi or e | number | ( E ) | - E | derivative E | derivative E wrt name
      | E op E, with op one of + - * / ^ | E ! | E F, with F an E that begins with a name, a constant, a number or (
    ```

    Keywords count in any case. -/
inductive Language : List Token → Prop where
  | name {t} : t.kind = .name → Language [t]
  | constant {t} : t.kind = .constant → t.text = "pi" ∨ t.text = "e" → Language [t]
  | number {t} : t.kind = .number → Language [t]
  | group {topen ts tclose} : topen.word = (.symbol, "(") → Language ts → tclose.word = (.symbol, ")") →
      Language (topen :: (ts ++ [tclose]))
  | negation {t ts} : t.word = (.symbol, "-") → Language ts → Language (t :: ts)
  | derivative {t ts} : t.isKeyword "derivative" = true → Language ts → Language (t :: ts)
  | derivativeBy {t ts tw tx} : t.isKeyword "derivative" = true → Language ts → tw.isKeyword "wrt" = true →
      tx.kind = .name → Language (t :: (ts ++ [tw, tx]))
  | operation {us t vs} : Language us → t.kind = .symbol → t.text ∈ ["+", "-", "*", "/", "^"] → Language vs →
      Language (us ++ t :: vs)
  | factorial {ts t} : Language ts → t.word = (.symbol, "!") → Language (ts ++ [t])
  | juxtaposed {us t vs} : Language us → Parsing.BeginsFactor t.word → Language (t :: vs) → Language (us ++ t :: vs)

theorem Language.ne_nil {ts : List Token} (h : Language ts) : ts ≠ [] := by
  cases h <;> simp

/-- The tokens of the binary operators that are written. -/
theorem exists_binaryOp {t : Token} (hkind : t.kind = .symbol) (htext : t.text ∈ ["+", "-", "*", "/", "^"]) :
    ∃ op : BinaryOp, op ≠ .juxtapose ∧ t.word = (.symbol, op.symbol) := by
  simp only [List.mem_cons, List.not_mem_nil, or_false] at htext
  rcases htext with h | h | h | h | h
  · exact ⟨.add, by decide, by rw [Token.word, hkind, h]; rfl⟩
  · exact ⟨.sub, by decide, by rw [Token.word, hkind, h]; rfl⟩
  · exact ⟨.mul, by decide, by rw [Token.word, hkind, h]; rfl⟩
  · exact ⟨.div, by decide, by rw [Token.word, hkind, h]; rfl⟩
  · exact ⟨.pow, by decide, by rw [Token.word, hkind, h]; rfl⟩

namespace Parsing

/-- A token that closes a group is the symbol for it. -/
theorem word_of_reads_close {t : Token} (ht : IsWord t.kind t.text) (h : t.reads ")" = true) :
    t.word = (.symbol, ")") := by
  rw [Token.reads] at h
  split at h
  · next hkind =>
    -- no keyword reads so
    rw [hkind] at ht
    have hletters : t.text.toList.map Char.toLower = [')'] := beq_iff_eq.mp h
    have hmem := ht.keyword
    rw [hletters] at hmem
    exact absurd hmem (by decide)
  · have htext : t.text = ")" := beq_iff_eq.mp h
    rw [htext] at ht
    have hkind : TokenKind.symbol = t.kind := (Prod.mk.inj (Option.some.inj ht)).1
    rw [Token.word, htext, ← hkind]

variable {ν : Type}

/-- What the tokens of a run are: an expression, or what makes a longer one of any that stands before it. -/
def Derives (ts rest : List Token) : Task ν → Prop
  | .operand _ _ => Genuine ts → ∃ vs, ts = vs ++ rest ∧ Language vs
  | .loop _ _ _ => Genuine ts → ∀ us, Language us → ∃ vs, ts = vs ++ rest ∧ Language (us ++ vs)

/-- An expression with what goes on from it. -/
theorem exists_of_operand {n m : Nat} {lhs : Expr ν} {us ts ts' rest : List Token} (hgen : Genuine ts)
    (hts : ts = us ++ ts') (hus : Language us) (hgo : Derives ts' rest (.loop n m lhs)) :
    ∃ vs, ts = vs ++ rest ∧ Language vs := by
  subst hts
  obtain ⟨vs, rfl, hvs⟩ := hgo hgen.right us hus
  exact ⟨us ++ vs, (List.append_assoc us vs rest).symm, hvs⟩

/-- A round of the loop with what goes on from it. -/
theorem exists_of_round {n m : Nat} {lhs : Expr ν} {us ts ts' rest : List Token} (vs : List Token) (hgen : Genuine ts)
    (hts : ts = vs ++ ts') (hvs : Language (us ++ vs)) (hgo : Derives ts' rest (.loop n m lhs)) :
    ∃ ws, ts = ws ++ rest ∧ Language (us ++ ws) := by
  subst hts
  obtain ⟨ws, rfl, hws⟩ := hgo hgen.right (us ++ vs) hvs
  exact ⟨vs ++ ws, (List.append_assoc vs ws rest).symm, by rwa [← List.append_assoc]⟩

variable [Numeral ν]

/-- **What a run reads is derived**, by induction on the run. -/
theorem derives_of_run {task : Task ν} {ts rest : List Token} {e : Expr ν} (h : Run task ts e rest) :
    Derives ts rest task := by
  induction h with
  | @name t ts n m e rest hkind hrun ih => exact fun hgen => exists_of_operand hgen rfl (.name hkind) ih
  | @number t ts n m v e rest hkind hread hfinite hrun ih =>
    exact fun hgen => exists_of_operand hgen rfl (.number hkind) ih
  | @constant t ts n m c e rest hkind hlookup hrun ih =>
    intro hgen
    have hword : IsWord t.kind t.text := hgen t List.mem_cons_self
    rw [hkind] at hword
    exact exists_of_operand hgen rfl (.constant hkind hword.constant) ih
  | @group t tc ts ts' n m inner e rest hword hinner hclose hrun ihinner ih =>
    intro hgen
    obtain ⟨vs, rfl, hvs⟩ := ihinner hgen.tail
    have hmem : tc ∈ t :: (vs ++ tc :: ts') := by simp
    have hlang := Language.group hword hvs (word_of_reads_close (hgen tc hmem) hclose)
    exact exists_of_operand hgen (by simp) hlang ih
  | @negation t ts ts' n m inner e rest hword hinner hrun ihinner ih =>
    intro hgen
    obtain ⟨vs, rfl, hvs⟩ := ihinner hgen.tail
    exact exists_of_operand hgen rfl (Language.negation hword hvs) ih
  | @derivative t ts ts' n m inner e rest hkeyword hinner hwrt hrun ihinner ih =>
    intro hgen
    obtain ⟨vs, rfl, hvs⟩ := ihinner hgen.tail
    exact exists_of_operand hgen rfl (Language.derivative hkeyword hvs) ih
  | @derivativeBy t tw tx ts ts' n m inner e rest hkeyword hinner hwrt hkind hrun ihinner ih =>
    intro hgen
    obtain ⟨vs, rfl, hvs⟩ := ihinner hgen.tail
    exact exists_of_operand hgen (by simp) (Language.derivativeBy hkeyword hvs hwrt hkind) ih
  | @stop ts n m lhs hstops => exact fun _ us hus => ⟨[], rfl, by rwa [List.append_nil]⟩
  | @binary t ts ts' n m op lhs rhs e rest hop hword hm hrhs hrun ihrhs ih =>
    intro hgen us hus
    obtain ⟨vs, rfl, hvs⟩ := ihrhs hgen.tail
    obtain ⟨hkind, htext⟩ := Prod.mk.inj hword
    have hmem : t.text ∈ ["+", "-", "*", "/", "^"] := by
      rw [htext]
      cases op <;> decide
    exact exists_of_round (t :: vs) hgen rfl (.operation hus hkind hmem hvs) ih
  | @juxtaposed t ts ts' n m lhs rhs e rest hfactor hm hrhs hrun ihrhs ih =>
    intro hgen us hus
    obtain ⟨vs, hts, hvs⟩ := ihrhs hgen
    -- the factor is not empty, so that it begins with the token
    obtain ⟨t', vs, rfl⟩ := List.exists_cons_of_ne_nil hvs.ne_nil
    obtain ⟨rfl, rfl⟩ := List.cons.inj hts
    exact exists_of_round (t :: vs) hgen hts (.juxtaposed hus hfactor hvs) ih
  | @factorial t ts n m lhs e rest hword hm hrun ih =>
    intro hgen us hus
    exact exists_of_round [t] hgen rfl (.factorial hus hword) ih

/-- **What the parser accepts is in the language.** -/
theorem language_of_parseAll {ts : List Token} {e : Expr ν} (hts : Genuine ts) (h : parseAll Grammar.standard ts = .ok e) :
    Language ts := by
  obtain ⟨vs, rfl, hvs⟩ := derives_of_run (run_of_parseAll h) hts
  rwa [List.append_nil]

end Parsing

end Formula
