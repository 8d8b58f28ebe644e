import Formula.Proofs.Lexis.Standing
import Formula.Proofs.Lexis.Places
import Formula.Proofs.Search.Joint
import Formula.Proofs.Search.Progress

/-!
# `Formula.Proofs.Lexis.Loop` — reading a text as a loop

Reading goes from place to place: behind a blank it goes on at the next character, and behind a token at the place where
the search of the table has ended. It ends where the text does, or at a character at which no row matches. Nothing else
would end it: where a row matches the empty text, the loop comes back to the same place for ever.

## Contents
- `TokenTable.Goes` — so many rounds of the loop; `Ends` and `Idles`, the places where it ends or goes round for ever.
- `Goes.eq_of_idles` — there is no way on from a place where it idles.
- `tokens_of_goes` — a loop that ends gives what scanning the text gives.
- `rows_of_ofRules`, `read_of_ofRules`, `isPrefix_rows_of_ofRules` — the rows of tables that have been accepted.
-/

namespace Formula

open Lexis

/-! ## Places -/

theorem Place.advance_add (m n : Nat) : ∀ p : Place, p.advance (m + n) = (p.advance m).advance n := by
  induction m with
  | zero => exact fun p => by rw [Nat.zero_add, Place.advance]
  | succ m ih =>
    intro p
    cases hp : p.rest with
    | nil =>
      have hstay (k : Nat) : p.advance k = p := by cases k <;> simp [Place.advance, hp]
      rw [hstay, hstay, hstay]
    | cons c cs => rw [Nat.add_right_comm, Place.advance_succ hp, Place.advance_succ hp, ih]

theorem Place.Reaches.trans {p q r : Place} (hpq : p.Reaches q) (hqr : q.Reaches r) : p.Reaches r := by
  obtain ⟨m, rfl⟩ := hpq
  obtain ⟨n, rfl⟩ := hqr
  exact ⟨m + n, (Place.advance_add m n p).symm⟩

namespace TokenTable

variable {table : TokenTable} {p q : Place}

/-! ## The loop -/

/-- **So many rounds of the loop**, with the tokens that they have given: a round passes over a blank, or over what the
    search of the table has matched. -/
inductive Goes (table : TokenTable) : Place → List Token → Place → Prop where
  | stay {p : Place} : Goes table p [] p
  | blank {p q : Place} {c cs ts} : p.rest = c :: cs → isSkipped c = true → Goes table (p.after c cs) ts q →
      Goes table p ts q
  | word {p q r : Place} {c cs row ts} : p.rest = c :: cs → isSkipped c = false → table.race? p = some (row, r) →
      Goes table r ts q → Goes table p (token row.rule.kind p r :: ts) q

/-- The loop ends at a place: the text does, or no row matches there. -/
def Ends (table : TokenTable) (p : Place) : Prop :=
  p.rest = [] ∨ ∃ c cs, p.rest = c :: cs ∧ isSkipped c = false ∧ table.race? p = none

/-- **The loop idles at a place**: the row that wins there matches the empty text. -/
def Idles (table : TokenTable) (row : TokenRow) (p : Place) : Prop :=
  ∃ c cs, p.rest = c :: cs ∧ isSkipped c = false ∧ table.race? p = some (row, p)

/-- **There is no way on** from a place where the loop idles. -/
theorem Goes.eq_of_idles {ts : List Token} (h : table.Goes p ts q) {row : TokenRow} (hidle : table.Idles row p) :
    q = p := by
  induction h with
  | stay => rfl
  | blank hp hc _ _ =>
    obtain ⟨c, cs, hp', hc', -⟩ := hidle
    rw [hp'] at hp
    obtain ⟨rfl, rfl⟩ := List.cons.inj hp
    rw [hc] at hc'
    cases hc'
  | word _ _ hrace _ ih =>
    obtain ⟨c, cs, hp, hc, hrace'⟩ := id hidle
    obtain ⟨rfl, rfl⟩ := Prod.mk.inj (Option.some.inj (hrace.symm.trans hrace'))
    exact ih hidle

/-- A place where the loop idles is none where it ends. -/
theorem Idles.not_ends {row : TokenRow} (h : table.Idles row p) : ¬ table.Ends p := by
  obtain ⟨c, cs, hp, hc, hrace⟩ := h
  rintro (hnil | ⟨-, -, -, -, hnone⟩)
  · rw [hp] at hnil
    cases hnil
  · rw [hrace] at hnone
    cases hnone

/-- **Where the winner's match ends**: further on, or the loop idles, with a row whose pattern can be skipped. -/
theorem race?_reaches {c : Char} {cs : List Char} {row : TokenRow} (hp : p.rest = c :: cs) (hc : isSkipped c = false)
    (h : table.race? p = some (row, q)) :
    (q = p ∧ row.pattern.route.skippable = true ∧ table.Idles row p) ∨ ∃ n < p.rest.length, q = p.advance (n + 1) := by
  obtain ⟨before, after, -, -, hmatch⟩ := race?_eq_some_iff.mp h
  refine (Route.match?_reaches hmatch).imp_left ?_
  rintro ⟨hskip, rfl⟩
  exact ⟨rfl, row.route_eq ▸ hskip, c, cs, hp, hc, h⟩

/-- The loop goes from a place to places that are further on in the same text, or the same. -/
theorem Goes.reaches {ts : List Token} (h : table.Goes p ts q) : p.Reaches q := by
  induction h with
  | stay => exact .refl _
  | blank hp _ _ ih => exact ih.of_after hp
  | word hp hc hrace _ ih =>
    rcases race?_reaches hp hc hrace with ⟨rfl, -⟩ | ⟨n, -, rfl⟩
    · exact ih
    · exact Place.Reaches.trans ⟨n + 1, rfl⟩ ih

/-! ## The loop and the scan -/

/-- The scan of a text from a place on. -/
def scanFrom (table : TokenTable) (p : Place) : Except LexError (List Token) := table.scan p.before p.offset 0 p.rest

/-- The characters of the token found last are passed over. -/
theorem scan_advance (table : TokenTable) (n : Nat) : ∀ p : Place,
    table.scan p.before p.offset n p.rest = table.scanFrom (p.advance n) := by
  induction n with
  | zero => exact fun p => rfl
  | succ n ih =>
    intro p
    cases hp : p.rest with
    | nil =>
      rw [scanFrom, Place.advance, hp]
      simp only [hp]
      rfl
    | cons c cs =>
      rw [Place.advance_succ hp, ← ih]
      rfl

theorem scanFrom_of_blank {c : Char} {cs : List Char} (hp : p.rest = c :: cs) (hc : isSkipped c = true) :
    table.scanFrom p = table.scanFrom (p.after c cs) := by
  rw [scanFrom, hp, scan, hc]
  rfl

theorem scanFrom_of_none {c : Char} {cs : List Char} (hp : p.rest = c :: cs) (hc : isSkipped c = false)
    (h : table.race? p = none) : table.scanFrom p = .error ⟨p.offset⟩ := by
  obtain ⟨before, rest, offset⟩ := p
  obtain rfl : rest = c :: cs := hp
  rw [scanFrom, scan, hc]
  simp only [Bool.false_eq_true, if_false, h]

theorem scanFrom_of_word {c : Char} {cs : List Char} {row : TokenRow} {n : Nat} (hp : p.rest = c :: cs)
    (hc : isSkipped c = false) (hn : n < p.rest.length) (h : table.race? p = some (row, p.advance (n + 1))) :
    table.scanFrom p =
      (table.scanFrom (p.advance (n + 1))).map (token row.rule.kind p (p.advance (n + 1)) :: ·) := by
  have hcovered : (p.upTo (p.advance (n + 1))).length - 1 = n := by
    rw [Place.upTo_advance, List.length_take]
    omega
  have hscan := table.scan_advance n (p.after c cs)
  rw [← Place.advance_succ hp] at hscan
  rw [← hscan]
  obtain ⟨before, rest, offset⟩ := p
  obtain rfl : rest = c :: cs := hp
  rw [scanFrom, scan, hc]
  simp only [Bool.false_eq_true, if_false, h, hcovered]
  rfl

/-- A loop that ends gives what a scan gives, from any place on. -/
theorem scanFrom_of_goes {ts : List Token} (h : table.Goes p ts q) (hends : table.Ends q) :
    table.scanFrom p = if q.rest = [] then .ok ts else .error ⟨q.offset⟩ := by
  induction h with
  | @stay p =>
    rcases hends with hnil | ⟨c, cs, hp, hc, hnone⟩
    · rw [if_pos hnil, scanFrom, hnil, scan]
    · rw [if_neg (by rw [hp]; exact List.cons_ne_nil c cs), scanFrom_of_none hp hc hnone]
  | blank hp hc _ ih => rw [scanFrom_of_blank hp hc, ih hends]
  | word hp hc hrace hgoes ih =>
    rcases race?_reaches hp hc hrace with ⟨rfl, -, hidle⟩ | ⟨n, hn, rfl⟩
    · -- a loop that idles does not end
      exact absurd (hgoes.eq_of_idles hidle ▸ hends) hidle.not_ends
    · rw [scanFrom_of_word hp hc hn hrace, ih hends]
      split <;> rfl

/-- **A loop that ends gives the tokens of the text**, or the place where there is none. -/
theorem tokens_of_goes {text : String} {ts : List Token} (h : table.Goes (.start text.toList) ts q)
    (hends : table.Ends q) : table.tokens text = if q.rest = [] then .ok ts else .error ⟨q.offset⟩ :=
  scanFrom_of_goes h hends

/-! ## Tables that have been accepted -/

variable [PropertyTables]

/-- What a row of a table is made of: a rule, and the pattern that the rule is read as. -/
def IsRowOf (rule : TokenRule) (row : TokenRow) : Prop := ∃ pattern, rule.read = .ok pattern ∧ row = .of rule pattern

/-- Patterns that are read one after the other. -/
theorem forall₂_of_mapM_read {rules : List TokenRule} : ∀ {patterns : List Pattern},
    rules.mapM TokenRule.read = .ok patterns → List.Forall₂ IsRowOf rules (rules.zipWith TokenRow.of patterns) := by
  induction rules with
  | nil => exact fun _ => .nil
  | cons rule rules ih =>
    intro patterns h
    rw [List.mapM_cons] at h
    cases hread : rule.read with
    | error e =>
      rw [hread] at h
      cases h
    | ok pattern =>
      cases hrest : rules.mapM TokenRule.read with
      | error e =>
        rw [hread, hrest] at h
        cases h
      | ok patterns' =>
        rw [hread, hrest] at h
        cases h
        exact .cons ⟨pattern, hread, rfl⟩ (ih hrest)

/-- **The rows of a table** come of the rules that it was made of, in their order. -/
theorem rows_of_ofRules {rules : List TokenRule} (h : ofRules rules = .ok table) :
    List.Forall₂ IsRowOf rules table.rows := by
  rw [ofRules] at h
  cases hread : rules.mapM TokenRule.read with
  | error e =>
    rw [hread] at h
    cases h
  | ok patterns =>
    rw [hread] at h
    cases h
    exact forall₂_of_mapM_read hread

/-- The rules of a table are those that it was made of. -/
theorem rules_of_ofRules {rules : List TokenRule} (h : ofRules rules = .ok table) : table.rules = rules := by
  have hrows := rows_of_ofRules h
  clear h
  rw [TokenTable.rules]
  generalize table.rows = rows at hrows ⊢
  induction hrows with
  | nil => rfl
  | cons hrow _ ih =>
    obtain ⟨pattern, -, rfl⟩ := hrow
    rw [List.map_cons, ih, TokenRow.of]

/-- **The pattern of a row** is the one that is written in its rule, and is not known to match the empty text. -/
theorem read_of_ofRules {rules : List TokenRule} (h : ofRules rules = .ok table) : ∀ row ∈ table.rows,
    Pattern.read row.rule.pattern = .ok row.pattern ∧ row.pattern.leastLength? ≠ some 0 := by
  have hrows := rows_of_ofRules h
  clear h
  generalize table.rows = rows at hrows ⊢
  induction hrows with
  | nil => simp
  | cons hrow _ ih =>
    refine List.forall_mem_cons.mpr ⟨?_, ih⟩
    obtain ⟨pattern, hread, rfl⟩ := hrow
    rw [TokenRule.read] at hread
    split at hread
    · cases hread
    · next hpattern =>
      split at hread
      · cases hread
      · next hne =>
        cases hread
        exact ⟨hpattern, hne⟩

/-- A list of rules that evaluation accepts, and what it says of the table. -/
theorem exists_of_any_ofRules {rules : List TokenRule} {holds : TokenTable → Bool}
    (h : (ofRules rules).toOption.any holds = true) : ∃ table, ofRules rules = .ok table ∧ holds table = true := by
  cases hrules : ofRules rules with
  | error e =>
    rw [hrules] at h
    cases h
  | ok table =>
    rw [hrules] at h
    exact ⟨table, rfl, h⟩

/-- **A longer list of rules** makes a table with the same rows, and further ones behind them. -/
theorem isPrefix_rows_of_ofRules {rules more : List TokenRule} {table' : TokenTable} (h : ofRules rules = .ok table)
    (h' : ofRules (rules ++ more) = .ok table') : table.rows <+: table'.rows := by
  have hunique : Relator.RightUnique IsRowOf := by
    rintro rule _ _ ⟨pattern, hread, rfl⟩ ⟨pattern', hread', rfl⟩
    rw [hread] at hread'
    cases hread'
    rfl
  have htake := List.forall₂_take rules.length (rows_of_ofRules h')
  rw [List.take_left] at htake
  rw [hunique.forall₂ (rows_of_ofRules h) htake]
  exact List.take_prefix rules.length table'.rows

end TokenTable

end Formula
