import Formula.Proofs.Text.Ascii
import Formula.Token.Basic
import Mathlib.Data.List.TakeWhile

/-!
# `Formula.Proofs.Lexis.Words` — the words of the input language, told without patterns

What each row of the standard table matches at the front of a text is written out here as a length. All of
these lengths obey the same few laws: cutting a text off behind a word does not change the word, and neither
does putting a delimiter behind it.

## Contents
- `run`, `wordLength?` and the length functions of the rows.
- `Delimited`, `WordLaw` — the laws, and one instance for each row.
- `nextWord?` — the first row that matches, and its laws.
-/

namespace Formula.Lexis

/-! ## Lengths -/

/-- The number of characters at the front of a text that have a property. -/
def run (p : Char → Bool) (cs : List Char) : Nat := (cs.takeWhile p).length

/-- The length of the first of some words that a text begins with. -/
def wordLength? (words : List (List Char)) (cs : List Char) : Option Nat :=
  (words.find? (·.isPrefixOf cs)).map List.length

/-- The keywords, in the order in which they are tried. -/
def keywords : List (List Char) := [
  ['d', 'e', 'r', 'i', 'v', 'a', 't', 'i', 'v', 'e'], ['w', 'r', 't'], ['i', 'n', 't', 'e', 'g', 'r', 'a', 'l'],
  ['i', 'n', 't', 'e', 'g', 'r', 'a', 't', 'e'], ['o', 'f'], ['f', 'r', 'o', 'm'], ['t', 'o']]

/-- The names of functions. -/
def functionNames : List (List Char) := [['s', 'i', 'n'], ['c', 'o', 's'], ['t', 'a', 'n'], ['s', 'q', 'r', 't']]

/-- The names of constants. -/
def constantNames : List (List Char) := [['p', 'i'], ['e']]

/-- The operators and punctuation marks. -/
def symbols : List Char := ['+', '-', '*', '/', '^', '=', '(', ')', '!']

/-- A keyword in any case. -/
def keywordLength? (cs : List Char) : Option Nat := wordLength? keywords (cs.map Char.toLower)

/-- A letter with a subscript of letters or of digits. -/
def subscriptedLength? : List Char → Option Nat
  | c :: '_' :: cs =>
    if c.isAlpha then
      if 0 < run Char.isAlpha cs then some (run Char.isAlpha cs + 2)
      else if 0 < run Char.isDigit cs then some (run Char.isDigit cs + 2)
      else none
    else none
  | _ => none

/-- A letter. -/
def letterLength? : List Char → Option Nat
  | c :: _ => if c.isAlpha then some 1 else none
  | [] => none

/-- A point with digits behind it, or nothing. -/
def fractionLength : List Char → Nat
  | '.' :: cs => if run Char.isDigit cs = 0 then 0 else run Char.isDigit cs + 1
  | _ => 0

/-- Digits with an optional fraction. -/
def numberLength? (cs : List Char) : Option Nat :=
  if run Char.isDigit cs = 0 then none
  else some (run Char.isDigit cs + fractionLength (cs.drop (run Char.isDigit cs)))

/-- A symbol. -/
def symbolLength? : List Char → Option Nat
  | c :: _ => if c ∈ symbols then some 1 else none
  | [] => none

/-! ## Laws -/

/-- A text that does not go on with a word: it is empty, or begins with a character that is in no word but
    symbols. -/
def Delimited (cs : List Char) : Prop := ∀ c ∈ cs.head?, c.isAlphanum = false ∧ c ≠ '_' ∧ c ≠ '.'

/-- **The laws of a length function.** A match is not empty and lies within the text; it is the same wherever behind it
    the text is cut off, and a delimiter put behind the text changes nothing. -/
structure WordLaw (length? : List Char → Option Nat) : Prop where
  pos : ∀ {cs n}, length? cs = some n → 0 < n
  le : ∀ {cs n}, length? cs = some n → n ≤ cs.length
  take : ∀ {cs n m}, length? cs = some n → n ≤ m → length? (cs.take m) = some n
  none_take : ∀ {cs}, length? cs = none → ∀ n, length? (cs.take n) = none
  append : ∀ {cs rest}, cs ≠ [] → Delimited rest → length? (cs ++ rest) = length? cs

theorem Delimited.isAlpha {cs : List Char} (h : Delimited cs) : ∀ c ∈ cs.head?, c.isAlpha = false := by
  intro c hc
  have := (h c hc).1
  rw [Char.isAlphanum, Bool.or_eq_false_iff] at this
  exact this.1

theorem Delimited.isDigit {cs : List Char} (h : Delimited cs) : ∀ c ∈ cs.head?, c.isDigit = false := by
  intro c hc
  have := (h c hc).1
  rw [Char.isAlphanum, Bool.or_eq_false_iff] at this
  exact this.2

theorem delimited_blank (cs : List Char) : Delimited (' ' :: cs) := by
  intro c hc
  cases hc
  decide

theorem delimited_close (cs : List Char) : Delimited (')' :: cs) := by
  intro c hc
  cases hc
  decide

theorem delimited_bang (cs : List Char) : Delimited ('!' :: cs) := by
  intro c hc
  cases hc
  decide

/-! ### Runs -/

theorem run_cons (p : Char → Bool) (c : Char) (cs : List Char) :
    run p (c :: cs) = if p c then run p cs + 1 else 0 := by
  unfold run
  by_cases h : p c = true <;> simp [h]

theorem run_le (p : Char → Bool) (cs : List Char) : run p cs ≤ cs.length :=
  (List.takeWhile_sublist p).length_le

theorem run_take (p : Char → Bool) (cs : List Char) : ∀ n, run p (cs.take n) = min (run p cs) n := by
  induction cs with
  | nil => intro n; simp [run]
  | cons c cs ih =>
    intro n
    cases n with
    | zero => simp [run]
    | succ n =>
      rw [List.take_succ_cons, run_cons, run_cons, ih]
      split <;> omega

/-- A run ends where a text without it begins. -/
theorem run_append {p : Char → Bool} {rest : List Char} (h : ∀ c ∈ rest.head?, p c = false) (cs : List Char) :
    run p (cs ++ rest) = run p cs := by
  induction cs with
  | nil =>
    cases rest with
    | nil => rfl
    | cons c rest =>
      rw [List.nil_append, run_cons, h c rfl]
      rfl
  | cons c cs ih => rw [List.cons_append, run_cons, run_cons, ih]

/-! ### Words from a list -/

theorem isPrefixOf_take {w cs : List Char} {n : Nat} (h : w.isPrefixOf (cs.take n) = true) :
    w.isPrefixOf cs = true := by
  rw [List.isPrefixOf_iff_prefix] at h ⊢
  exact h.trans (List.take_prefix n cs)

/-- A word of letters does not reach into a delimiter. -/
theorem isPrefixOf_append {w : List Char} (hw : ∀ c ∈ w, c.isAlpha = true) {rest : List Char}
    (h : ∀ c ∈ rest.head?, c.isAlpha = false) : ∀ cs : List Char, w.isPrefixOf (cs ++ rest) = w.isPrefixOf cs := by
  induction w with
  | nil => simp
  | cons a w ih =>
    intro cs
    cases cs with
    | nil =>
      cases rest with
      | nil => rfl
      | cons c rest =>
        have ha := hw a List.mem_cons_self
        have hc := h c rfl
        have hne : a ≠ c := by
          rintro rfl
          rw [ha] at hc
          exact absurd hc (by simp)
        simp [List.isPrefixOf, hne]
    | cons c cs =>
      rw [List.cons_append, List.isPrefixOf, List.isPrefixOf, ih fun d hd => hw d (List.mem_cons_of_mem a hd)]

/-- Which word is the first depends on the words' own letters only. -/
theorem wordLength?_take {words : List (List Char)} {cs : List Char} {n m : Nat} (h : wordLength? words cs = some n)
    (hm : n ≤ m) : wordLength? words (cs.take m) = some n := by
  induction words with
  | nil => cases h
  | cons w words ih =>
    unfold wordLength? at h ih ⊢
    rw [List.find?_cons] at h ⊢
    by_cases hw : w.isPrefixOf cs = true
    · rw [hw] at h
      simp only [Option.map_some, Option.some.injEq] at h
      have hcut : w.isPrefixOf (cs.take m) = true := by
        rw [List.isPrefixOf_iff_prefix] at hw ⊢
        exact List.prefix_take_iff.mpr ⟨hw, h ▸ hm⟩
      simp [hcut, h]
    · have hcut : ¬ w.isPrefixOf (cs.take m) = true := fun hc => hw (isPrefixOf_take hc)
      simp only [hw, hcut] at h ⊢
      exact ih h

theorem wordLength?_none_take {words : List (List Char)} {cs : List Char} (h : wordLength? words cs = none)
    (n : Nat) : wordLength? words (cs.take n) = none := by
  simp only [wordLength?, Option.map_eq_none_iff, List.find?_eq_none] at h ⊢
  exact fun w hw hc => h w hw (isPrefixOf_take hc)

/-- What the first word of a list is known to be. -/
theorem exists_of_wordLength? {words : List (List Char)} {cs : List Char} {n : Nat}
    (h : wordLength? words cs = some n) : ∃ w ∈ words, w.length = n ∧ cs.take n = w := by
  obtain ⟨w, hw, hn⟩ := Option.map_eq_some_iff.mp h
  have hpre := List.find?_some hw
  rw [List.isPrefixOf_iff_prefix] at hpre
  exact ⟨w, List.mem_of_find?_eq_some hw, hn, by rw [← hn]; exact (List.prefix_iff_eq_take.mp hpre).symm⟩

theorem wordLength?_append {words : List (List Char)} (hw : ∀ w ∈ words, ∀ c ∈ w, c.isAlpha = true)
    {rest : List Char} (h : ∀ c ∈ rest.head?, c.isAlpha = false) (cs : List Char) :
    wordLength? words (cs ++ rest) = wordLength? words cs := by
  unfold wordLength?
  congr 1
  induction words with
  | nil => rfl
  | cons w words ih =>
    rw [List.find?_cons, List.find?_cons, isPrefixOf_append (hw w List.mem_cons_self) h cs,
      ih fun v hv => hw v (List.mem_cons_of_mem w hv)]

/-- Words of letters obey the laws. -/
theorem wordLaw_wordLength? {words : List (List Char)} (hne : ∀ w ∈ words, w ≠ [])
    (hw : ∀ w ∈ words, ∀ c ∈ w, c.isAlpha = true) : WordLaw (wordLength? words) where
  pos h := by
    obtain ⟨w, hmem, rfl, -⟩ := exists_of_wordLength? h
    exact List.length_pos_iff.mpr (hne w hmem)
  le h := by
    obtain ⟨w, -, hn, htake⟩ := exists_of_wordLength? h
    have hlen := congrArg List.length htake
    rw [List.length_take] at hlen
    omega
  take := wordLength?_take
  none_take := wordLength?_none_take
  append _ hd := wordLength?_append hw hd.isAlpha _

/-! ### The rows -/

/-- Putting letters into lower case keeps them letters. -/
theorem Delimited.map_toLower {cs : List Char} (h : Delimited cs) :
    ∀ c ∈ (cs.map Char.toLower).head?, c.isAlpha = false := by
  intro c hc
  rw [List.head?_map, Option.mem_def, Option.map_eq_some_iff] at hc
  obtain ⟨d, hd, rfl⟩ := hc
  rw [Char.isAlpha_toLower_eq_isAlpha]
  exact h.isAlpha d hd

theorem ne_nil_of_mem_keywords : ∀ w ∈ keywords, w ≠ [] := by decide

theorem isAlpha_of_all {words : List (List Char)} (h : (words.all fun w => w.all Char.isAlpha) = true) :
    ∀ w ∈ words, ∀ c ∈ w, c.isAlpha = true :=
  fun w hw => List.all_eq_true.mp (List.all_eq_true.mp h w hw)

theorem isAlpha_of_mem_keywords : ∀ w ∈ keywords, ∀ c ∈ w, c.isAlpha = true := isAlpha_of_all rfl

theorem isAlpha_of_mem_functionNames : ∀ w ∈ functionNames, ∀ c ∈ w, c.isAlpha = true := isAlpha_of_all rfl

theorem isAlpha_of_mem_constantNames : ∀ w ∈ constantNames, ∀ c ∈ w, c.isAlpha = true := isAlpha_of_all rfl

theorem wordLaw_keyword : WordLaw keywordLength? where
  pos h := (wordLaw_wordLength? ne_nil_of_mem_keywords isAlpha_of_mem_keywords).pos h
  le h := by
    have := (wordLaw_wordLength? ne_nil_of_mem_keywords isAlpha_of_mem_keywords).le h
    rwa [List.length_map] at this
  take h hm := by
    rw [keywordLength?, List.map_take]
    exact wordLength?_take h hm
  none_take h n := by
    rw [keywordLength?, List.map_take]
    exact wordLength?_none_take h n
  append _ hd := by
    rw [keywordLength?, List.map_append, wordLength?_append isAlpha_of_mem_keywords hd.map_toLower,
      keywordLength?]

theorem wordLaw_function : WordLaw (wordLength? functionNames) :=
  wordLaw_wordLength? (by decide) isAlpha_of_mem_functionNames

theorem wordLaw_constant : WordLaw (wordLength? constantNames) :=
  wordLaw_wordLength? (by decide) isAlpha_of_mem_constantNames

/-- The length of the subscript at the front of a text: letters, or digits where there are none. -/
def subscriptLength (cs : List Char) : Nat := if 0 < run Char.isAlpha cs then run Char.isAlpha cs else run Char.isDigit cs

theorem subscriptLength_le (cs : List Char) : subscriptLength cs ≤ cs.length := by
  rw [subscriptLength]
  split
  · exact run_le Char.isAlpha cs
  · exact run_le Char.isDigit cs

theorem subscriptLength_take (cs : List Char) (n : Nat) : subscriptLength (cs.take n) = min (subscriptLength cs) n := by
  rw [subscriptLength, subscriptLength, run_take, run_take]
  split <;> split <;> omega

theorem subscriptLength_append {rest : List Char} (hd : Delimited rest) (cs : List Char) :
    subscriptLength (cs ++ rest) = subscriptLength cs := by
  rw [subscriptLength, subscriptLength, run_append hd.isAlpha, run_append hd.isDigit]

theorem subscriptedLength?_cons_cons (c : Char) (cs : List Char) : subscriptedLength? (c :: '_' :: cs) =
    if c.isAlpha = true ∧ 0 < subscriptLength cs then some (subscriptLength cs + 2) else none := by
  simp only [subscriptedLength?, subscriptLength]
  by_cases hc : c.isAlpha = true
  · by_cases ha : 0 < run Char.isAlpha cs <;> simp [hc, ha]
  · simp [hc]

theorem subscriptedLength?_eq_some {cs : List Char} {n : Nat} : subscriptedLength? cs = some n ↔
    ∃ c cs', cs = c :: '_' :: cs' ∧ c.isAlpha = true ∧ 0 < subscriptLength cs' ∧ n = subscriptLength cs' + 2 := by
  constructor
  · intro h
    unfold subscriptedLength? at h
    split at h
    · next c cs' =>
      rw [← subscriptedLength?, subscriptedLength?_cons_cons] at h
      split at h
      · next hc =>
        cases h
        exact ⟨c, cs', rfl, hc.1, hc.2, rfl⟩
      · cases h
    · cases h
  · rintro ⟨c, cs', rfl, hc, hpos, rfl⟩
    rw [subscriptedLength?_cons_cons, if_pos ⟨hc, hpos⟩]

theorem wordLaw_subscripted : WordLaw subscriptedLength? where
  pos h := by
    obtain ⟨c, cs, -, -, -, rfl⟩ := subscriptedLength?_eq_some.mp h
    exact Nat.succ_pos _
  le h := by
    obtain ⟨c, cs, rfl, -, -, rfl⟩ := subscriptedLength?_eq_some.mp h
    exact Nat.add_le_add_right (subscriptLength_le cs) 2
  take {_ _ m} h hm := by
    obtain ⟨c, cs, rfl, hc, hpos, rfl⟩ := subscriptedLength?_eq_some.mp h
    obtain ⟨m, rfl⟩ := Nat.exists_eq_add_of_le' (Nat.le_trans (Nat.le_add_left 2 _) hm)
    have htake := subscriptLength_take cs m
    rw [Nat.min_eq_left (Nat.le_of_add_le_add_right hm)] at htake
    exact subscriptedLength?_eq_some.mpr ⟨c, _, rfl, hc, by rw [htake]; exact hpos, by rw [htake]⟩
  none_take {cs} h n := by
    -- a subscripted letter in the part of the text is one in the whole of it
    rw [Option.eq_none_iff_forall_ne_some]
    intro m hm
    obtain ⟨c, cs', hcs, hc, hpos, rfl⟩ := subscriptedLength?_eq_some.mp hm
    have hpre := List.take_prefix n cs
    rw [hcs] at hpre
    obtain ⟨rest, rfl⟩ := hpre
    have htake := subscriptLength_take (cs' ++ rest) cs'.length
    rw [List.take_left] at htake
    have hpos' : 0 < subscriptLength (cs' ++ rest) := by omega
    rw [List.cons_append, List.cons_append, subscriptedLength?_cons_cons, if_pos ⟨hc, hpos'⟩] at h
    cases h
  append {cs rest} hcs hd := by
    match cs with
    | [] => exact absurd rfl hcs
    | [c] =>
      cases rest with
      | nil => rfl
      | cons d rest =>
        have hne : d ≠ '_' := (hd d rfl).2.1
        simp [subscriptedLength?, hne]
    | c :: d :: cs =>
      by_cases hu : d = '_'
      · subst hu
        rw [List.cons_append, List.cons_append, subscriptedLength?_cons_cons, subscriptedLength?_cons_cons,
          subscriptLength_append hd]
      · simp [subscriptedLength?, hu]

/-- The length of the first character of a text, where it has a property. -/
def charLength? (p : Char → Bool) : List Char → Option Nat
  | c :: _ => if p c then some 1 else none
  | [] => none

theorem charLength?_eq_some {p : Char → Bool} {cs : List Char} {n : Nat} : charLength? p cs = some n ↔
    ∃ c cs', cs = c :: cs' ∧ p c = true ∧ n = 1 := by
  constructor
  · intro h
    unfold charLength? at h
    split at h
    · next c cs' =>
      split at h
      · next hc =>
        cases h
        exact ⟨c, cs', rfl, hc, rfl⟩
      · cases h
    · cases h
  · rintro ⟨c, cs', rfl, hc, rfl⟩
    exact if_pos hc

/-- Single characters obey the laws, whichever they are. -/
theorem wordLaw_charLength? (p : Char → Bool) : WordLaw (charLength? p) where
  pos h := by
    obtain ⟨c, cs, -, -, rfl⟩ := charLength?_eq_some.mp h
    exact Nat.one_pos
  le h := by
    obtain ⟨c, cs, rfl, -, rfl⟩ := charLength?_eq_some.mp h
    exact Nat.le_add_left 1 cs.length
  take h hm := by
    obtain ⟨c, cs, rfl, hc, rfl⟩ := charLength?_eq_some.mp h
    obtain ⟨m, rfl⟩ := Nat.exists_eq_add_of_le' hm
    exact charLength?_eq_some.mpr ⟨c, cs.take m, rfl, hc, rfl⟩
  none_take {cs} h n := by
    cases cs with
    | nil => rwa [List.take_nil]
    | cons c cs =>
      cases n with
      | zero => rfl
      | succ n => exact h
  append {cs rest} hcs _ := by
    cases cs with
    | nil => exact absurd rfl hcs
    | cons c cs => rfl

theorem letterLength?_eq : letterLength? = charLength? Char.isAlpha := by
  funext cs
  cases cs <;> rfl

theorem symbolLength?_eq : symbolLength? = charLength? fun c => decide (c ∈ symbols) := by
  funext cs
  cases cs with
  | nil => rfl
  | cons c cs => simp [symbolLength?, charLength?]

theorem wordLaw_letter : WordLaw letterLength? := letterLength?_eq ▸ wordLaw_charLength? _

theorem wordLaw_symbol : WordLaw symbolLength? := symbolLength?_eq ▸ wordLaw_charLength? _

theorem fractionLength_take {cs : List Char} {n : Nat} (h : fractionLength cs ≤ n) :
    fractionLength (cs.take n) = fractionLength cs := by
  cases cs with
  | nil => rw [List.take_nil]
  | cons c ds =>
    by_cases hp : c = '.'
    · subst hp
      cases n with
      | zero => exact (Nat.le_zero.mp h).symm
      | succ n =>
        simp only [List.take_succ_cons, fractionLength, run_take] at h ⊢
        by_cases hd : run Char.isDigit ds = 0
        · simp [hd]
        · rw [if_neg hd] at h
          rw [Nat.min_eq_left (Nat.le_of_succ_le_succ h)]
    · cases n <;> simp [fractionLength, hp]

theorem fractionLength_append {rest : List Char} (h : Delimited rest) (cs : List Char) :
    fractionLength (cs ++ rest) = fractionLength cs := by
  cases cs with
  | nil =>
    cases rest with
    | nil => rfl
    | cons c rest =>
      have hne : c ≠ '.' := (h c rfl).2.2
      simp [fractionLength, hne]
  | cons c cs =>
    by_cases hp : c = '.'
    · subst hp
      simp only [List.cons_append, fractionLength, run_append h.isDigit]
    · simp [fractionLength, hp]

theorem fractionLength_le (cs : List Char) : fractionLength cs ≤ cs.length := by
  unfold fractionLength
  split
  · next ds =>
    have := run_le Char.isDigit ds
    simp only [List.length_cons]
    split <;> omega
  · omega

theorem wordLaw_number : WordLaw numberLength? where
  pos {cs n} h := by
    unfold numberLength? at h
    split at h
    · cases h
    · cases h; omega
  le {cs n} h := by
    unfold numberLength? at h
    split at h
    · cases h
    · cases h
      have hrun := run_le Char.isDigit cs
      have hfrac := fractionLength_le (cs.drop (run Char.isDigit cs))
      rw [List.length_drop] at hfrac
      omega
  take {cs n m} h hm := by
    unfold numberLength? at h
    split at h
    · cases h
    · next hd =>
      cases h
      rw [numberLength?, run_take, Nat.min_eq_left (Nat.le_of_add_right_le hm), if_neg hd, List.drop_take,
        fractionLength_take (Nat.le_sub_of_add_le' hm)]
  none_take {cs} h n := by
    unfold numberLength? at h
    split at h
    · next hd => rw [numberLength?, run_take, hd, Nat.zero_min, if_pos rfl]
    · cases h
  append {cs rest} _ hd := by
    rw [numberLength?, numberLength?, run_append hd.isDigit, List.drop_append_of_le_length (run_le _ _),
      fractionLength_append hd]

/-! ## The next word -/

/-- What the rows match, in order of preference. -/
def standardWords : List (TokenKind × (List Char → Option Nat)) := [
  (.keyword, keywordLength?), (.function, wordLength? functionNames), (.name, subscriptedLength?),
  (.constant, wordLength? constantNames), (.name, letterLength?), (.number, numberLength?), (.symbol, symbolLength?)]

theorem wordLaw_of_mem_standardWords : ∀ row ∈ standardWords, WordLaw row.2 := by
  simp only [standardWords, List.forall_mem_cons, List.not_mem_nil, false_imp_iff, forall_true_iff, and_true]
  exact ⟨wordLaw_keyword, wordLaw_function, wordLaw_subscripted, wordLaw_constant, wordLaw_letter, wordLaw_number,
    wordLaw_symbol⟩

/-- The kind and the length of the word at the front of a text. -/
def nextWord? (cs : List Char) : Option (TokenKind × Nat) :=
  standardWords.findSome? fun row => (row.2 cs).map (row.1, ·)

theorem exists_of_nextWord? {cs : List Char} {k : TokenKind} {n : Nat} (h : nextWord? cs = some (k, n)) :
    ∃ row ∈ standardWords, row.1 = k ∧ row.2 cs = some n := by
  obtain ⟨row, hmem, hrow⟩ := List.exists_of_findSome?_eq_some h
  obtain ⟨m, hm, heq⟩ := Option.map_eq_some_iff.mp hrow
  cases heq
  exact ⟨row, hmem, rfl, hm⟩

theorem nextWord?_pos {cs : List Char} {k : TokenKind} {n : Nat} (h : nextWord? cs = some (k, n)) : 0 < n := by
  obtain ⟨row, hmem, -, hrow⟩ := exists_of_nextWord? h
  exact (wordLaw_of_mem_standardWords row hmem).pos hrow

theorem nextWord?_le {cs : List Char} {k : TokenKind} {n : Nat} (h : nextWord? cs = some (k, n)) :
    n ≤ cs.length := by
  obtain ⟨row, hmem, -, hrow⟩ := exists_of_nextWord? h
  exact (wordLaw_of_mem_standardWords row hmem).le hrow

/-- **Where the text is cut off behind a word, it is still the same word**: no row before its own begins to match. -/
theorem nextWord?_take {cs : List Char} {k : TokenKind} {n m : Nat} (h : nextWord? cs = some (k, n)) (hm : n ≤ m) :
    nextWord? (cs.take m) = some (k, n) := by
  have hlaw := wordLaw_of_mem_standardWords
  unfold nextWord? at h ⊢
  generalize standardWords = rows at h hlaw ⊢
  induction rows with
  | nil => cases h
  | cons row rows ih =>
    have hrow := hlaw row List.mem_cons_self
    rw [List.findSome?_cons] at h ⊢
    cases hlength : row.2 cs with
    | some l =>
      rw [hlength] at h
      cases h
      rw [hrow.take hlength hm]
      rfl
    | none =>
      rw [hlength] at h
      rw [hrow.none_take hlength]
      exact ih h fun r hr => hlaw r (List.mem_cons_of_mem row hr)

/-- **A delimiter behind a text does not change its first word.** -/
theorem nextWord?_append {cs rest : List Char} (hcs : cs ≠ []) (hd : Delimited rest) :
    nextWord? (cs ++ rest) = nextWord? cs := by
  have hlaw := wordLaw_of_mem_standardWords
  unfold nextWord?
  generalize standardWords = rows at hlaw ⊢
  induction rows with
  | nil => rfl
  | cons row rows ih =>
    rw [List.findSome?_cons, List.findSome?_cons, (hlaw row List.mem_cons_self).append hcs hd,
      ih fun r hr => hlaw r (List.mem_cons_of_mem row hr)]

/-- No word of letters begins with another character. -/
theorem wordLength?_of_not_isAlpha {words : List (List Char)} (hne : ∀ w ∈ words, w ≠ [])
    (hw : ∀ w ∈ words, ∀ c ∈ w, c.isAlpha = true) {c : Char} (hc : c.isAlpha = false) (cs : List Char) :
    wordLength? words (c :: cs) = none := by
  rw [wordLength?, Option.map_eq_none_iff, List.find?_eq_none]
  intro w hmem
  cases w with
  | nil => exact absurd rfl (hne [] hmem)
  | cons a w =>
    have ha := hw _ hmem a List.mem_cons_self
    have hac : a ≠ c := by
      rintro rfl
      rw [ha] at hc
      exact absurd hc (by simp)
    simp [List.isPrefixOf, hac]

/-- **Words that do not begin with a letter** are numbers or symbols. -/
theorem nextWord?_of_not_isAlpha {c : Char} (hc : c.isAlpha = false) (cs : List Char) : nextWord? (c :: cs) =
    ((numberLength? (c :: cs)).map (TokenKind.number, ·)).or ((symbolLength? (c :: cs)).map (.symbol, ·)) := by
  have hkeyword : keywordLength? (c :: cs) = none := by
    rw [keywordLength?, List.map_cons]
    exact wordLength?_of_not_isAlpha ne_nil_of_mem_keywords isAlpha_of_mem_keywords
      (by rw [Char.isAlpha_toLower_eq_isAlpha, hc]) _
  have hfunction : wordLength? functionNames (c :: cs) = none :=
    wordLength?_of_not_isAlpha (by decide) isAlpha_of_mem_functionNames hc cs
  have hconstant : wordLength? constantNames (c :: cs) = none :=
    wordLength?_of_not_isAlpha (by decide) isAlpha_of_mem_constantNames hc cs
  have hsubscripted : subscriptedLength? (c :: cs) = none := by
    unfold subscriptedLength?
    split <;> simp_all
  have hletter : letterLength? (c :: cs) = none := by rw [letterLength?, hc]; rfl
  simp only [nextWord?, standardWords, List.findSome?_cons, hkeyword, hfunction, hsubscripted, hconstant, hletter,
    Option.map_none]
  cases numberLength? (c :: cs) with
  | some n => rfl
  | none => cases symbolLength? (c :: cs) <;> rfl

/-- A symbol begins with neither a letter nor a digit. -/
theorem nextWord?_of_not_isAlphanum {c : Char} (hc : c.isAlphanum = false) (cs : List Char) :
    nextWord? (c :: cs) = if c ∈ symbols then some (.symbol, 1) else none := by
  rw [Char.isAlphanum, Bool.or_eq_false_iff] at hc
  rw [nextWord?_of_not_isAlpha hc.1, numberLength?, run_cons, hc.2, symbolLength?]
  by_cases hs : c ∈ symbols <;> simp [hs]

end Formula.Lexis
