import Formula.Proofs.Parsing.Runs

/-!
# `Formula.Proofs.Parsing.Parsed` — what is known of an expression that has been read

An expression that the parser gives is over the constructs of the input language, it groups as it was written, and it
is not nested more deeply than the levels that the parser had. So nothing has to be added to write it down, and what
is written is read back within the same levels.

## Contents
- `Genuine` — tokens whose words are words of the input language.
- `Parsed` — the invariant, and one lemma for each way in which an expression is built.
- `Gives`, `gives_of_run` — what holds along a run.
- `parsed_of_parseAll`.
-/

namespace Formula

open Lexis Formula.Expr

/-- Tokens as the standard table gives them. -/
def Genuine (ts : List Token) : Prop := ∀ t ∈ ts, IsWord t.kind t.text

theorem genuine_nil : Genuine [] := fun _ ht => (List.not_mem_nil ht).elim

theorem Genuine.tail {t : Token} {ts : List Token} (h : Genuine (t :: ts)) : Genuine ts :=
  fun t' ht => h t' (List.mem_cons_of_mem t ht)

theorem Genuine.of_suffix {ts ts' : List Token} (h : Genuine ts) (hs : ts' <:+ ts) : Genuine ts' :=
  fun t ht => h t (hs.subset ht)

theorem Genuine.left {ts ts' : List Token} (h : Genuine (ts ++ ts')) : Genuine ts :=
  fun t ht => h t (List.mem_append_left ts' ht)

theorem Genuine.right {ts ts' : List Token} (h : Genuine (ts ++ ts')) : Genuine ts' :=
  fun t ht => h t (List.mem_append_right ts ht)

theorem Genuine.append {ts ts' : List Token} (h : Genuine ts) (h' : Genuine ts') : Genuine (ts ++ ts') :=
  fun t ht => (List.mem_append.mp ht).elim (h t) (h' t)

theorem genuine_of_tokensOf {text : String} {ts : List Token} (h : tokensOf text = .ok ts) : Genuine ts := by
  intro t ht
  have hspells := (exists_tokensOf_iff text (ts.map Token.word)).mp ⟨ts, h, rfl⟩
  exact hspells.isWord t.word (List.mem_map_of_mem ht)

/-- The variable that a derivative is taken by is a name. -/
theorem Expr.Writable.isName_primaryVariable? {ν : Type} {P : ν → Prop} {e : Expr ν} (h : Writable P e) :
    ∀ x ∈ e.primaryVariable?, IsName x := by
  induction e with
  | paren s e ih => exact ih h
  | var s y =>
    intro x hx
    obtain rfl := Option.some.inj hx
    exact h
  | binary s op l r ihl ihr =>
    intro x hx
    rw [primaryVariable?, Option.orElse_eq_orElse, Option.orElse_eq_or, Option.mem_def, Option.or_eq_some_iff] at hx
    rcases hx with hx | ⟨-, hx⟩
    · exact ihl h.1 x hx
    · exact ihr h.2 x hx
  | unary s op e ih => exact ih h
  | derivative s e y ih =>
    intro x hx
    obtain rfl := Option.some.inj hx
    exact h.2
  | integral s e x => cases h
  | definiteIntegral s e x a b => cases h
  | _ =>
    intro x hx
    cases hx

namespace Parsing

variable {ν : Type} [Numeral ν]

/-- **What is known of an expression** that has been read above a threshold, where some tokens are left. -/
structure Parsed (m : Nat) (rest : List Token) (e : Expr ν) : Prop where
  writable : Writable IsPlain e
  grouped : Grouped e
  fits : Fits m e
  closes : ClosesAt rest e

/-- What the parser begins with or has in parentheses. -/
theorem Parsed.of_closed {m : Nat} {rest : List Token} {e : Expr ν} (hw : Writable IsPlain e) (hg : Grouped e)
    (hb : e.binding? = none) (hc : ∀ p, Closes p e) : Parsed m rest e where
  writable := hw
  grouped := hg
  fits := fun b h => by rw [hb] at h; cases h
  closes := fun _ _ rule _ => hc rule.precedence

theorem Parsed.paren {m m' : Nat} {rest rest' : List Token} {e : Expr ν} (h : Parsed m rest e) (s : Span) :
    Parsed m' rest' (.paren s e) :=
  .of_closed h.writable h.grouped rfl fun _ => trivial

theorem Parsed.derivative {m m' : Nat} {rest rest' : List Token} {e : Expr ν} (h : Parsed m rest e) {x : String}
    (hx : IsName x) (s : Span) : Parsed m' rest' (.derivative s e x) :=
  .of_closed ⟨h.writable, hx⟩ h.grouped rfl fun _ => trivial

theorem Parsed.neg {m : Nat} {rest : List Token} {e : Expr ν} (h : Parsed UnaryOp.neg.binding.threshold rest e)
    (hs : StopsAt UnaryOp.neg.binding.threshold rest) (s : Span) : Parsed m rest (.unary s .neg e) where
  writable := h.writable
  grouped := ⟨h.grouped, h.fits⟩
  fits := fits_neg m s e
  closes := fun t ht rule hrule => ⟨hs t ht rule hrule, h.closes t ht rule hrule⟩

theorem Parsed.factorial {m : Nat} {t : Token} {rest : List Token} {e : Expr ν} (h : Parsed m (t :: rest) e)
    (ht : t.word = (.symbol, "!")) (hm : m < UnaryOp.factorial.binding.precedence) (s : Span) :
    Parsed m rest (.unary s .factorial e) where
  writable := h.writable
  grouped := ⟨h.grouped, h.closes t rfl _ (extensionRule?_factorial ht)⟩
  fits := fits_factorial.mpr hm
  closes := fun _ _ _ _ => trivial

/-- An operation whose first token has a rule of the operator's precedence. -/
theorem Parsed.binary {m : Nat} {op : BinaryOp} {t : Token} {rule : ExtensionRule} {ts rest : List Token}
    {l r : Expr ν} (hl : Parsed m (t :: ts) l) (hrule : Grammar.standard.extensionRule? t = some rule)
    (hprec : rule.precedence = op.binding.precedence) (hm : m < op.binding.precedence)
    (hr : Parsed op.binding.threshold rest r) (hs : StopsAt op.binding.threshold rest)
    (ht : op = .juxtapose → StartsTight r) (s : Span) : Parsed m rest (.binary s op l r) where
  writable := ⟨hl.writable, hr.writable⟩
  grouped := ⟨⟨hl.grouped, hprec ▸ hl.closes t rfl rule hrule⟩, hr.grouped, hr.fits, ht⟩
  fits := fits_binary.mpr hm
  closes := fun t ht rule hrule => ⟨hs t ht rule hrule, hr.closes t ht rule hrule⟩

/-- What a run makes of the expression that it begins with, and where it ends. -/
def Gives (ts : List Token) (e : Expr ν) (rest : List Token) : Task ν → Prop
  | .operand n m => Genuine ts → Parsed m rest e ∧ StopsAt m rest ∧ e.levels < n ∧ rest <:+ ts ∧
      ∀ t ∈ ts.head?, BeginsFactor t.word → StartsTight e
  | .loop n m lhs => Genuine ts → Parsed m ts lhs → lhs.levels ≤ n + lhs.spine →
      Parsed m rest e ∧ StopsAt m rest ∧ e.levels ≤ n + lhs.spine ∧ rest <:+ ts ∧ (StartsTight lhs → StartsTight e)

/-- A run that goes on from an expression without a left operand. -/
theorem gives_operand {n m : Nat} {t : Token} {ts ts' rest : List Token} {lhs e : Expr ν}
    (hgo : Gives ts' e rest (.loop n m lhs)) (hspine : lhs.spine = 0) (htight : BeginsFactor t.word → StartsTight lhs)
    (hlhs : Genuine (t :: ts) → Parsed m ts' lhs ∧ lhs.levels ≤ n ∧ ts' <:+ ts) :
    Gives (t :: ts) e rest (.operand (n + 1) m) := by
  intro hgen
  obtain ⟨hparsed, hlevels, hsuffix⟩ := hlhs hgen
  have hsuffix' : ts' <:+ t :: ts := hsuffix.trans (List.suffix_cons t ts)
  obtain ⟨he, hstops, hle, hrest, hstarts⟩ := hgo (hgen.of_suffix hsuffix') hparsed (by rw [hspine]; exact hlevels)
  rw [hspine] at hle
  refine ⟨he, hstops, Nat.lt_succ_of_le hle, hrest.trans hsuffix', fun t' ht hfactor => hstarts (htight ?_)⟩
  obtain rfl := Option.some.inj ht
  exact hfactor

/-- A round of the loop that has given an operation with one more operator on its left edge. -/
theorem gives_loop {n m : Nat} {ts ts' rest : List Token} {lhs lhs' e : Expr ν}
    (hgo : Gives ts' e rest (.loop n m lhs')) (hspine : lhs'.spine = lhs.spine + 1)
    (htight : StartsTight lhs → StartsTight lhs')
    (hround : Genuine ts → Parsed m ts lhs → lhs.levels ≤ n + lhs'.spine →
      Parsed m ts' lhs' ∧ lhs'.levels ≤ n + lhs'.spine ∧ ts' <:+ ts) :
    Gives ts e rest (.loop (n + 1) m lhs) := by
  intro hgen hlhs hlevels
  have hn : n + lhs'.spine = n + 1 + lhs.spine := by omega
  obtain ⟨hparsed, hlevels', hsuffix⟩ := hround hgen hlhs (hn ▸ hlevels)
  obtain ⟨he, hstops, hle, hrest, hstarts⟩ := hgo (hgen.of_suffix hsuffix) hparsed hlevels'
  exact ⟨he, hstops, hn ▸ hle, hrest.trans hsuffix, fun h => hstarts (htight h)⟩

theorem not_beginsFactor_minus {w : Word} (h : w = (.symbol, "-")) : ¬ BeginsFactor w := by
  subst h
  simp [BeginsFactor]

theorem not_beginsFactor_keyword {t : Token} {text : String} (h : t.isKeyword text = true) :
    ¬ BeginsFactor t.word := by
  rw [Token.isKeyword, Bool.and_eq_true, beq_iff_eq] at h
  simp [BeginsFactor, Token.word, h.1]

variable [Arithmetic ν] [LawfulNumeral ν]

/-- A number that has been read is written with digits alone. -/
theorem isPlain_of_read {x : String} {v : ν} (hx : IsWord .number x)
    (hread : (Numeral.read x : Except NumeralError ν) = .ok v) (hfinite : Numeral.isFinite v = true) : IsPlain v := by
  obtain ⟨w, hw, hshape⟩ := LawfulNumeral.exists_read (ν := ν) hx.number
  obtain rfl := Except.ok.inj (hread.symm.trans hw)
  rcases hshape with hshape | hshape
  · exact hshape
  · rw [Numeral.isFinite, hshape] at hfinite
    cases hfinite

/-- A constant that has been read is one of the input language. -/
theorem constant_of_lookup? {x : String} {c : Constant} (hx : IsWord .constant x) (h : Constant.lookup? x = some c) :
    c = .pi ∨ c = .e := by
  rcases hx.constant with rfl | rfl
  · exact Or.inl (Option.some.inj h).symm
  · exact Or.inr (Option.some.inj h).symm

/-- **What is known of every expression that has been read**, by induction on the run. -/
theorem gives_of_run {task : Task ν} {ts rest : List Token} {e : Expr ν} (h : Run task ts e rest) :
    Gives ts e rest task := by
  induction h with
  | @name t ts n m e rest hkind hrun ih =>
    refine gives_operand ih rfl (fun _ => trivial) fun hgen => ⟨?_, Nat.zero_le n, List.suffix_refl ts⟩
    have hword : IsWord t.kind t.text := hgen t List.mem_cons_self
    rw [hkind] at hword
    exact .of_closed ((isName_iff t.text).mpr hword) trivial rfl fun _ => trivial
  | @number t ts n m v e rest hkind hread hfinite hrun ih =>
    refine gives_operand ih rfl (fun _ => trivial) fun hgen => ⟨?_, Nat.zero_le n, List.suffix_refl ts⟩
    have hword : IsWord t.kind t.text := hgen t List.mem_cons_self
    rw [hkind] at hword
    exact .of_closed (isPlain_of_read hword hread hfinite) trivial rfl fun _ => trivial
  | @constant t ts n m c e rest hkind hlookup hrun ih =>
    refine gives_operand ih rfl (fun _ => trivial) fun hgen => ⟨?_, Nat.zero_le n, List.suffix_refl ts⟩
    have hword : IsWord t.kind t.text := hgen t List.mem_cons_self
    rw [hkind] at hword
    exact .of_closed (constant_of_lookup? hword hlookup) trivial rfl fun _ => trivial
  | @group t tc ts ts' n m inner e rest hword hinner hclose hrun ihinner ih =>
    refine gives_operand ih rfl (fun _ => trivial) fun hgen => ?_
    obtain ⟨hparsed, -, hlevels, hsuffix, -⟩ := ihinner hgen.tail
    exact ⟨hparsed.paren _, hlevels, (List.suffix_cons tc ts').trans hsuffix⟩
  | @negation t ts ts' n m inner e rest hword hinner hrun ihinner ih =>
    refine gives_operand ih rfl (fun hfactor => absurd hfactor (not_beginsFactor_minus hword)) fun hgen => ?_
    obtain ⟨hparsed, hstops, hlevels, hsuffix, -⟩ := ihinner hgen.tail
    exact ⟨hparsed.neg hstops _, hlevels, hsuffix⟩
  | @derivative t ts ts' n m inner e rest hkeyword hinner hwrt hrun ihinner ih =>
    refine gives_operand ih rfl (fun hfactor => absurd hfactor (not_beginsFactor_keyword hkeyword)) fun hgen => ?_
    obtain ⟨hparsed, -, hlevels, hsuffix, -⟩ := ihinner hgen.tail
    -- a derivative without a variable is taken by the first variable of its operand, or by x
    have hname : IsName (inner.primaryVariable?.getD "x") := by
      cases hvar : inner.primaryVariable? with
      | none => exact isName_x
      | some x => exact hparsed.writable.isName_primaryVariable? x hvar
    exact ⟨hparsed.derivative hname _, hlevels, hsuffix⟩
  | @derivativeBy t tw tx ts ts' n m inner e rest hkeyword hinner hwrt hkind hrun ihinner ih =>
    refine gives_operand ih rfl (fun hfactor => absurd hfactor (not_beginsFactor_keyword hkeyword)) fun hgen => ?_
    obtain ⟨hparsed, -, hlevels, hsuffix, -⟩ := ihinner hgen.tail
    have hword : IsWord tx.kind tx.text :=
      hgen.tail.of_suffix hsuffix tx (List.mem_cons_of_mem tw List.mem_cons_self)
    rw [hkind] at hword
    exact ⟨hparsed.derivative ((isName_iff tx.text).mpr hword) _, hlevels,
      ((List.suffix_cons tx ts').trans (List.suffix_cons tw (tx :: ts'))).trans hsuffix⟩
  | @stop ts n m lhs hstops =>
    intro _ hlhs hlevels
    exact ⟨hlhs, hstops, hlevels, List.suffix_refl ts, fun h => h⟩
  | @binary t ts ts' n m op lhs rhs e rest hop hword hm hrhs hrun ihrhs ih =>
    refine gives_loop ih rfl (fun h => h) fun hgen hlhs hlevels => ?_
    obtain ⟨hparsed, hstops, hrlevels, hsuffix, -⟩ := ihrhs hgen.tail
    refine ⟨hlhs.binary (extensionRule?_binary hop hword) rfl hm hparsed hstops (fun h => absurd h hop) _, ?_,
      hsuffix.trans (List.suffix_cons t ts)⟩
    simp only [levels, spine] at hlevels ⊢
    omega
  | @juxtaposed t ts ts' n m lhs rhs e rest hfactor hm hrhs hrun ihrhs ih =>
    refine gives_loop ih rfl (fun h => h) fun hgen hlhs hlevels => ?_
    obtain ⟨hparsed, hstops, hrlevels, hsuffix, htight⟩ := ihrhs hgen
    -- the factor begins with the token that the rule looked at, so that it is tight
    obtain ⟨tm, hrule⟩ := extensionRule?_juxtaposed hfactor
    refine ⟨hlhs.binary hrule rfl hm hparsed hstops (fun _ => htight t rfl hfactor) _, ?_, hsuffix⟩
    simp only [levels, spine] at hlevels ⊢
    omega
  | @factorial t ts n m lhs e rest hword hm hrun ih =>
    refine gives_loop ih rfl (fun h => h) fun hgen hlhs hlevels => ?_
    refine ⟨hlhs.factorial hword hm _, ?_, List.suffix_cons t ts⟩
    simp only [levels, spine] at hlevels ⊢
    omega

/-- **What the parser gives is grouped as it was written**, and nested within its levels. -/
theorem parsed_of_parseAll {ts : List Token} {e : Expr ν} (hts : Genuine ts) (h : parseAll Grammar.standard ts = .ok e) :
    Writable IsPlain e ∧ Grouped e ∧ e.levels < maxNesting := by
  obtain ⟨hparsed, -, hlevels, -, -⟩ := gives_of_run (run_of_parseAll h) hts
  exact ⟨hparsed.writable, hparsed.grouped, hlevels⟩

end Parsing

end Formula
