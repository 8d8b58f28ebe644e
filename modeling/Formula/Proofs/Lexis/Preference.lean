import Formula.Proofs.Lexis.Loop

/-!
# `Formula.Proofs.Lexis.Preference` — the order of the rows decides

A token is of the kind of the first row whose pattern matches where it starts, and it ends where that pattern's own
preferred match ends. Neither the length of a match nor any row behind the first one has a say in it; so rows that are
put behind those of a table leave the tokens of every text that the table can read as they are.

## Contents
- `firstMatch?` — the rows tried one after the other.
- `TokenTable.race?_eq_firstMatch?` — the search of the table finds the first match.
- `IsFirstMatch`, `isFirstMatch_of_goes`, `isFirstMatch_of_scan` — where the tokens of a text come from.
- `TokenTable.order_decides` — all of it, for any rows, with others put behind them.
-/

namespace Formula

/-! ## Rows one after the other -/

/-- **The rows tried one after the other**: the first one whose pattern matches at a place, and where the match ends that
    this pattern prefers. -/
def firstMatch? (rows : List TokenRow) (p : Place) : Option (TokenRow × Place) :=
  rows.findSome? fun row => (row.pattern.match? p).map fun q => (row, q)

/-- **A token comes of the first match at its place**: it has the kind of the first row that matches there, and the
    extent of that row's match. -/
def IsFirstMatch (rows : List TokenRow) (text : String) (t : Token) : Prop :=
  ∃ p row q, (Place.start text.toList).Reaches p ∧ firstMatch? rows p = some (row, q) ∧
    t = TokenTable.token row.rule.kind p q

namespace TokenTable

variable {table table' : TokenTable}

/-- **One search for all rows of a table** finds their first match. -/
theorem race?_eq_firstMatch? (table : TokenTable) (p : Place) : table.race? p = firstMatch? table.rows p := by
  rw [race?_eq_findSome?, firstMatch?]
  congr 1
  funext row
  rw [row.route_eq, Pattern.match?]

/-! ## Tokens -/

/-- A token that a winner gives. -/
theorem isFirstMatch_of_race? {text : String} {p q : Place} {row : TokenRow}
    (hp : (Place.start text.toList).Reaches p) (hrace : table.race? p = some (row, q)) :
    IsFirstMatch table.rows text (token row.rule.kind p q) :=
  ⟨p, row, q, hp, by rw [← race?_eq_firstMatch?, hrace], rfl⟩

/-- The tokens of a loop, however far it has gone. -/
theorem isFirstMatch_of_goes {text : String} {p q : Place} {ts : List Token} (hp : (Place.start text.toList).Reaches p)
    (hgoes : table.Goes p ts q) : ∀ t ∈ ts, IsFirstMatch table.rows text t := by
  induction hgoes with
  | stay => simp
  | blank hrest _ _ ih => exact ih (hp.trans (.of_after hrest (.refl _)))
  | word hrest hc hrace _ ih =>
    have hr := (Goes.word hrest hc hrace .stay).reaches
    exact List.forall_mem_cons.mpr ⟨isFirstMatch_of_race? hp hrace, ih (hp.trans hr)⟩

/-- **One step of a scan that succeeds**, where no token covers the character: it is a blank, or a row wins there. -/
theorem scan_cons_eq_ok_iff {before : Option Char} {offset : Nat} {c : Char} {cs : List Char} {ts : List Token} :
    table.scan before offset 0 (c :: cs) = .ok ts ↔
      (isSkipped c = true ∧ table.scan (some c) (offset + c.utf8Size) 0 cs = .ok ts) ∨
      (isSkipped c = false ∧ ∃ row q ts', table.race? ⟨before, c :: cs, offset⟩ = some (row, q) ∧
        table.scan (some c) (offset + c.utf8Size) ((Place.upTo ⟨before, c :: cs, offset⟩ q).length - 1) cs = .ok ts' ∧
        ts = token row.rule.kind ⟨before, c :: cs, offset⟩ q :: ts') := by
  rw [scan]
  cases hc : isSkipped c with
  | true => simp
  | false =>
    simp only [Bool.false_eq_true, if_false, false_and, false_or, true_and]
    cases hrace : table.race? ⟨before, c :: cs, offset⟩ with
    | none => simp
    | some m =>
      obtain ⟨row, q⟩ := m
      simp only
      constructor
      · intro h
        cases hrest : table.scan (some c) (offset + c.utf8Size)
            ((Place.upTo ⟨before, c :: cs, offset⟩ q).length - 1) cs with
        | error e =>
          rw [hrest] at h
          cases h
        | ok ts' =>
          rw [hrest] at h
          cases h
          exact ⟨row, q, ts', rfl, hrest, rfl⟩
      · rintro ⟨row', q', ts', heq, hrest, rfl⟩
        obtain ⟨rfl, rfl⟩ := Prod.mk.inj (Option.some.inj heq)
        rw [hrest]
        rfl

/-- The tokens of a scan, by induction on the text. -/
theorem isFirstMatch_of_scan {text : String} (cs : List Char) :
    ∀ (before : Option Char) (offset covered : Nat) {ts : List Token},
      (Place.start text.toList).Reaches ⟨before, cs, offset⟩ → table.scan before offset covered cs = .ok ts →
      ∀ t ∈ ts, IsFirstMatch table.rows text t := by
  induction cs with
  | nil =>
    intro before offset covered ts _ hscan
    cases hscan
    simp
  | cons c cs ih =>
    intro before offset covered ts hp hscan
    have hnext : (Place.start text.toList).Reaches ⟨some c, cs, offset + c.utf8Size⟩ :=
      hp.trans (.of_after rfl (.refl _))
    cases covered with
    | succ n => exact ih _ _ _ hnext hscan
    | zero =>
      obtain ⟨-, hrest⟩ | ⟨-, row, q, ts', hrace, hrest, rfl⟩ := scan_cons_eq_ok_iff.mp hscan
      · exact ih _ _ _ hnext hrest
      · exact List.forall_mem_cons.mpr ⟨isFirstMatch_of_race? hp hrace, ih _ _ _ hnext hrest⟩

/-! ## Rows behind others -/

/-- A winner stays the winner where rows are put behind. -/
theorem race?_of_isPrefix (hrows : table.rows <+: table'.rows) {p : Place} {m : TokenRow × Place}
    (h : table.race? p = some m) : table'.race? p = some m := by
  obtain ⟨rows, hrows⟩ := hrows
  rw [race?_eq_findSome?] at h ⊢
  rw [← hrows, List.findSome?_append, h]
  rfl

theorem Goes.of_isPrefix (hrows : table.rows <+: table'.rows) {p q : Place} {ts : List Token} (h : table.Goes p ts q) :
    table'.Goes p ts q := by
  induction h with
  | stay => exact .stay
  | blank hp hc _ ih => exact .blank hp hc ih
  | word hp hc hrace _ ih => exact .word hp hc (race?_of_isPrefix hrows hrace) ih

/-- A scan that succeeds finds the same where rows are put behind. -/
theorem scan_of_isPrefix (hrows : table.rows <+: table'.rows) (cs : List Char) :
    ∀ (before : Option Char) (offset covered : Nat) {ts : List Token},
      table.scan before offset covered cs = .ok ts → table'.scan before offset covered cs = .ok ts := by
  induction cs with
  | nil => exact fun _ _ _ _ h => h
  | cons c cs ih =>
    intro before offset covered ts h
    cases covered with
    | succ n => exact ih _ _ _ h
    | zero =>
      refine scan_cons_eq_ok_iff.mpr ?_
      obtain ⟨hc, hrest⟩ | ⟨hc, row, q, ts', hrace, hrest, rfl⟩ := scan_cons_eq_ok_iff.mp h
      · exact Or.inl ⟨hc, ih _ _ _ hrest⟩
      · exact Or.inr ⟨hc, row, q, ts', race?_of_isPrefix hrows hrace, ih _ _ _ hrest, rfl⟩

/-- **The order of the rows is all that decides**, whatever their patterns. One search of a table is as good as trying its
    rows one after the other; so every token that is read comes of the first match at its place, also where the text is
    not read to its end. What is read stays the same where further rows are put behind. Of a table of rules, each row is
    a rule with the pattern that is written in it, and further rules behind these make further rows. -/
theorem order_decides [PropertyTables] (table : TokenTable) (text : String) :
    (∀ p, table.race? p = firstMatch? table.rows p) ∧
    (∀ ts q, table.Goes (.start text.toList) ts q → ∀ t ∈ ts, IsFirstMatch table.rows text t) ∧
    (∀ ts, table.tokens text = .ok ts → ∀ t ∈ ts, IsFirstMatch table.rows text t) ∧
    (∀ table' : TokenTable, table.rows <+: table'.rows →
      (∀ ts q, table.Goes (.start text.toList) ts q → table'.Goes (.start text.toList) ts q) ∧
      ∀ ts, table.tokens text = .ok ts → table'.tokens text = .ok ts) ∧
    ∀ rules, ofRules rules = .ok table → table.rules = rules ∧
      (∀ row ∈ table.rows, Pattern.read row.rule.pattern = .ok row.pattern) ∧
      ∀ more table', ofRules (rules ++ more) = .ok table' → table.rows <+: table'.rows := by
  refine ⟨race?_eq_firstMatch? table, fun ts q hgoes => isFirstMatch_of_goes (.refl _) hgoes,
    fun ts htokens => isFirstMatch_of_scan text.toList none 0 0 (.refl _) htokens, fun table' hrows => ?_,
    fun rules h => ⟨rules_of_ofRules h, fun row hrow => (read_of_ofRules h row hrow).1,
      fun more table' h' => isPrefix_rows_of_ofRules h h'⟩⟩
  exact ⟨fun ts q hgoes => hgoes.of_isPrefix hrows,
    fun ts htokens => scan_of_isPrefix hrows text.toList none 0 0 htokens⟩

/-- A name is what the first rule makes of a word that the second one knows as a keyword. -/
theorem order_decides_name : ∃ table table', ofRules [⟨.name, "[a-z]+"⟩] = .ok table ∧
    ofRules ([⟨.name, "[a-z]+"⟩] ++ [⟨.keyword, "let"⟩]) = .ok table' ∧
    table.tokens "let" = .ok [⟨.name, "let", ⟨0, 3⟩⟩] ∧ table'.tokens "let" = .ok [⟨.name, "let", ⟨0, 3⟩⟩] := by
  have hread : (ofRules [⟨.name, "[a-z]+"⟩]).toOption.any
      (fun table => decide (table.tokens "let" = .ok [⟨.name, "let", ⟨0, 3⟩⟩])) = true := by
    decide +kernel
  have haccepted : (ofRules ([⟨.name, "[a-z]+"⟩] ++ [⟨.keyword, "let"⟩])).toOption.any (fun _ => true) = true := by
    decide +kernel
  obtain ⟨table, h, htokens⟩ := exists_of_any_ofRules hread
  obtain ⟨table', h', -⟩ := exists_of_any_ofRules haccepted
  have htokens := of_decide_eq_true htokens
  obtain ⟨-, -, -, hbehind, hrules⟩ := order_decides table "let"
  obtain ⟨-, -, hmore⟩ := hrules _ h
  exact ⟨table, table', h, h', htokens, (hbehind table' (hmore _ table' h')).2 _ htokens⟩

end TokenTable

end Formula
