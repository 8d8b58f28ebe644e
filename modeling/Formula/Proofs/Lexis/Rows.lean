import Formula.Proofs.Lexis.Words
import Formula.Proofs.Search.Words
import Formula.Token.Table

/-!
# `Formula.Proofs.Lexis.Rows` — the rows of the standard table

The patterns of the standard table are read once, and the search for each of them is compared with the length
function of its row. Rows that are lists of words are searches for the first of several words; the others end
in runs of characters, where the search stays in one frontier as long as the run lasts.

## Contents
- `standardPatterns`, `rows_standard` — the patterns in their simplest form.
- `Route.match?_words`, `Route.follows_run` — searching for words and for runs.
- `TokenTable.match?_standard` — the standard table finds the next word.
-/

namespace Formula

open Lexis

namespace Lexis

/-! ## The patterns -/

/-- The letters of ASCII. -/
def letters : CharSet := ⟨[(65, 90), (97, 122)]⟩

/-- The digits of ASCII. -/
def digits : CharSet := ⟨[(48, 57)]⟩

/-- The operators and punctuation marks. -/
def marks : CharSet := ⟨[(33, 33), (40, 43), (45, 45), (47, 47), (61, 61), (94, 94)]⟩

/-- A small letter in either case. -/
def eitherCase (c : Char) : CharSet := ⟨[(c.toNat - 32, c.toNat - 32), (c.toNat, c.toNat)]⟩

/-- The patterns of the standard rules in their simplest form. -/
def standardPatterns : List Pattern := [
  .ofAlternatives (keywords.map fun w => .ofFactors (w.map fun c => .set (eitherCase c))),
  .ofAlternatives (functionNames.map .literal),
  .sequence (.set letters) (.sequence (.literal ['_'])
    (.choice (.rounds (.set letters) 1 none true) (.rounds (.set digits) 1 none true))),
  .choice (.literal ['p', 'i']) (.literal ['e']),
  .set letters,
  .sequence (.rounds (.set digits) 1 none true)
    (.rounds (.sequence (.literal ['.']) (.rounds (.set digits) 1 none true)) 0 (some 1) true),
  .set marks]

theorem mapM_read_standardRules :
    (match standardRules.mapM TokenRule.read with
      | .ok patterns => decide (patterns = standardPatterns)
      | .error _ => false) = true := by
  decide +kernel

theorem rows_standard : TokenTable.standard.rows = standardRules.zipWith TokenRow.of standardPatterns := by
  have hread := mapM_read_standardRules
  unfold TokenTable.standard TokenTable.ofRules
  cases hm : standardRules.mapM TokenRule.read with
  | error e =>
    rw [hm] at hread
    exact absurd hread (by simp)
  | ok patterns =>
    rw [hm] at hread
    rw [← of_decide_eq_true hread]
    rfl

/-! ## The sets -/

theorem has_letters (c : Char) : letters.has c = c.isAlpha := by
  simp [letters, CharSet.has, CharRanges.has, Char.isAlpha, Char.isUpper, Char.isLower, UInt32.le_iff_toNat_le]

theorem has_digits (c : Char) : digits.has c = c.isDigit := by
  simp [digits, CharSet.has, CharRanges.has, Char.isDigit, UInt32.le_iff_toNat_le]

theorem has_ofChars (c d : Char) : (CharSet.ofChars [c]).has d = (c == d) := by
  rw [Bool.eq_iff_iff, beq_iff_eq, ← Char.toNat_inj]
  simp [CharSet.ofChars, CharSet.ofRanges, CharSet.insertRange, CharSet.has, CharRanges.has]
  omega

theorem has_marks (c : Char) : marks.has c = decide (c ∈ symbols) := by
  rw [Bool.eq_iff_iff, decide_eq_true_eq]
  simp [marks, symbols, CharSet.has, CharRanges.has, ← Char.toNat_inj]
  omega

theorem has_eitherCase {c : Char} (hc : c.isLower = true) (d : Char) : (eitherCase c).has d = (c == d.toLower) := by
  have hlow := (isLower_iff c).mp hc
  rw [Bool.eq_iff_iff, beq_iff_eq, ← Char.toNat_inj, toNat_toLower]
  simp only [eitherCase, CharSet.has, CharRanges.has, List.any_cons, List.any_nil, Bool.or_false, Bool.or_eq_true,
    Bool.and_eq_true, decide_eq_true_eq]
  split
  · next hd =>
    rw [isUpper_iff] at hd
    omega
  · next hd =>
    rw [isUpper_iff] at hd
    omega

end Lexis

/-! ## Rows of words -/

/-- Words of letters, the characters of a text being looked at through a function. -/
theorem beginsWith_eq_isPrefixOf {look : Char → Char} {w : List Letter} {cs : List Char}
    (h : List.Forall₂ (fun l c => ∀ d, l.accepts.has d = (c == look d)) w cs) :
    ∀ ds, beginsWith w ds = cs.isPrefixOf (ds.map look) := by
  induction h with
  | nil => intro ds; simp [beginsWith]
  | cons hl _ ih =>
    intro ds
    cases ds with
    | nil => rfl
    | cons d ds => rw [beginsWith, hl, ih, List.map_cons, List.isPrefixOf]

theorem firstWord?_eq_wordLength? (look : Char → Char) {words : List (List Letter)} (texts : List (List Char))
    (h : List.Forall₂ (List.Forall₂ fun l c => ∀ d, l.accepts.has d = (c == look d)) words texts) (ds : List Char) :
    firstWord? words ds = wordLength? texts (ds.map look) := by
  unfold firstWord? wordLength?
  induction h with
  | nil => rfl
  | @cons w cs words texts hw _ ih =>
    rw [List.find?_cons, List.find?_cons, beginsWith_eq_isPrefixOf hw]
    cases cs.isPrefixOf (ds.map look) with
    | true => simp [hw.length_eq]
    | false => exact ih

/-- A search that starts with words finds the first of them. -/
theorem Route.match?_words {r : Route} {p : Place} {seen : Nat} {threads : List Thread} (words : List (List Letter))
    (he : Frontier.explore p r.bound [[r]] .start = ⟨seen, threads.reverse, false⟩)
    (h : List.Forall₂ (Thread.Traces r.bound) threads words) (hnd : (words.flatMap labels).Nodup) :
    r.match? p = (firstWord? words p.rest).map p.advance := by
  rw [Route.match?, he]
  simp only [List.reverse_reverse]
  rw [Route.follows_words p.rest _ rfl h hnd]
  simp

/-- One set after the other, labelled in ascending order. -/
def chain (n : Nat) : List Char → Route
  | [] => .done
  | [c] => .set n (eitherCase c)
  | c :: cs => .follow (.set n (eitherCase c)) (chain (n + 1) cs)

/-- The letters of a chain. -/
def chainLetters (n : Nat) : List Char → List Letter
  | [] => []
  | c :: cs => ⟨eitherCase c, some n⟩ :: chainLetters (n + 1) cs

theorem traces_chain : ∀ (cs : List Char) (n : Nat), Traces [chain n cs] (chainLetters n cs)
  | [], _ => .textDone .done
  | [_], _ => .set .done
  | _ :: d :: cs, n => .follow (.set (traces_chain (d :: cs) (n + 1)))

theorem thread_traces_chain {bound : Nat} (c : Char) (cs : List Char) (n : Nat) (h : weight [chain (n + 1) cs] < bound) :
    Thread.Traces bound ⟨eitherCase c, [chain (n + 1) cs]⟩ (chainLetters n (c :: cs)) :=
  ⟨_, _, rfl, rfl, traces_chain cs (n + 1), h⟩

theorem forall₂_chainLetters {cs : List Char} (h : ∀ c ∈ cs, c.isLower = true) (n : Nat) :
    List.Forall₂ (fun l c => ∀ d : Char, l.accepts.has d = (c == d.toLower)) (chainLetters n cs) cs := by
  induction cs generalizing n with
  | nil => exact .nil
  | cons c cs ih =>
    exact .cons (has_eitherCase (h c List.mem_cons_self)) (ih (fun d hd => h d (List.mem_cons_of_mem c hd)) (n + 1))

/-- The keywords and the labels of their first letters. -/
def keywordChains : List (Nat × Char × List Char) := [
  (1, 'd', ['e', 'r', 'i', 'v', 'a', 't', 'i', 'v', 'e']), (12, 'w', ['r', 't']),
  (16, 'i', ['n', 't', 'e', 'g', 'r', 'a', 'l']), (25, 'i', ['n', 't', 'e', 'g', 'r', 'a', 't', 'e']), (35, 'o', ['f']),
  (38, 'f', ['r', 'o', 'm']), (42, 't', ['o'])]

/-- The route of the first row. -/
def keywordRoute : Route := (Pattern.ofAlternatives
  (keywords.map fun w => .ofFactors (w.map fun c => .set (eitherCase c)))).route

set_option maxRecDepth 100000 in
theorem explore_keywords (p : Place) : ∃ seen, Frontier.explore p keywordRoute.bound [[keywordRoute]] .start =
    ⟨seen, (keywordChains.map fun k => ⟨eitherCase k.2.1, [chain (k.1 + 1) k.2.2]⟩).reverse, false⟩ :=
  ⟨_, rfl⟩

set_option maxRecDepth 100000 in
theorem match?_keyword (p : Place) : keywordRoute.match? p = (keywordLength? p.rest).map p.advance := by
  obtain ⟨seen, he⟩ := explore_keywords p
  rw [Route.match?_words (keywordChains.map fun k => chainLetters k.1 (k.2.1 :: k.2.2)) he]
  · rw [firstWord?_eq_wordLength? Char.toLower (keywordChains.map fun k => k.2.1 :: k.2.2)]
    · rfl
    · rw [List.forall₂_map_left_iff, List.forall₂_map_right_iff, List.forall₂_same]
      intro k hk
      have hall : (keywordChains.all fun k => (k.2.1 :: k.2.2).all Char.isLower) = true := by rfl
      exact forall₂_chainLetters (List.all_eq_true.mp (List.all_eq_true.mp hall k hk)) k.1
  · rw [List.forall₂_map_left_iff, List.forall₂_map_right_iff, List.forall₂_same]
    intro k hk
    have hall : (keywordChains.all fun k => weight [chain (k.1 + 1) k.2.2] < keywordRoute.bound) = true := by rfl
    exact thread_traces_chain _ _ _ (of_decide_eq_true (List.all_eq_true.mp hall k hk))
  · decide

/-- The letters of a literal. -/
def textLetters (cs : List Char) : List Letter := cs.map fun c => ⟨.ofChars [c], none⟩

theorem traces_text : ∀ cs : List Char, Traces [.text cs] (textLetters cs)
  | [] => .textDone .done
  | _ :: cs => .textChar (traces_text cs)

theorem labels_textLetters (cs : List Char) : labels (textLetters cs) = [] := by
  simp [labels, textLetters]

/-- A search that starts with literals. -/
theorem Route.match?_texts {r : Route} {p : Place} {seen : Nat} (texts : List (Char × List Char))
    (he : Frontier.explore p r.bound [[r]] .start =
      ⟨seen, (texts.map fun t => ⟨.ofChars [t.1], [.text t.2]⟩).reverse, false⟩) (hb : 1 < r.bound) :
    r.match? p = (wordLength? (texts.map fun t => t.1 :: t.2) p.rest).map p.advance := by
  rw [Route.match?_words (texts.map fun t => textLetters (t.1 :: t.2)) he]
  · rw [firstWord?_eq_wordLength? id (texts.map fun t => t.1 :: t.2), List.map_id]
    rw [List.forall₂_map_left_iff, List.forall₂_map_right_iff, List.forall₂_same]
    intro t _
    rw [textLetters, List.forall₂_map_left_iff, List.forall₂_same]
    exact fun c _ d => has_ofChars c d
  · rw [List.forall₂_map_left_iff, List.forall₂_map_right_iff, List.forall₂_same]
    exact fun t _ => ⟨_, _, rfl, rfl, traces_text t.2, by simpa [weight, Route.size] using hb⟩
  · have hnil : (texts.map fun t => textLetters (t.1 :: t.2)).flatMap labels = [] := by
      simp [List.flatMap_map, labels_textLetters]
    rw [hnil]
    exact List.nodup_nil

/-- The route of the second row. -/
def functionRoute : Route := (Pattern.ofAlternatives (functionNames.map .literal)).route

theorem match?_function (p : Place) :
    functionRoute.match? p = (wordLength? functionNames p.rest).map p.advance :=
  Route.match?_texts [('s', ['i', 'n']), ('c', ['o', 's']), ('t', ['a', 'n']), ('s', ['q', 'r', 't'])] rfl (by decide)

/-- The route of the fourth row. -/
def constantRoute : Route := (Pattern.choice (.literal ['p', 'i']) (.literal ['e'])).route

theorem match?_constant (p : Place) :
    constantRoute.match? p = (wordLength? constantNames p.rest).map p.advance :=
  Route.match?_texts [('p', ['i']), ('e', [])] rfl (by decide)

/-- A search for one character. -/
theorem Route.match?_set (s : CharSet) (p : Place) :
    (Route.set 0 s).match? p = (p.rest.head?.bind fun c => if s.has c then some 1 else none).map p.advance := by
  have he : Frontier.explore p (Route.set 0 s).bound [[.set 0 s]] .start =
      ⟨1, ([⟨s, []⟩] : List Thread).reverse, false⟩ := rfl
  rw [Route.match?_words [[⟨s, some 0⟩]] he
    (.cons ⟨_, _, rfl, rfl, .done, Nat.succ_pos _⟩ .nil) (by simp [labels])]
  cases p.rest with
  | nil => rfl
  | cons c cs => cases h : s.has c <;> simp [firstWord?, beginsWith, h]

theorem match?_letter (p : Place) : (Route.set 0 letters).match? p = (letterLength? p.rest).map p.advance := by
  rw [Route.match?_set]
  cases p.rest with
  | nil => rfl
  | cons c cs => simp [letterLength?, has_letters]

theorem match?_symbol (p : Place) : (Route.set 0 marks).match? p = (symbolLength? p.rest).map p.advance := by
  rw [Route.match?_set]
  cases p.rest with
  | nil => rfl
  | cons c cs => simp [symbolLength?, has_marks]

/-! ## Rows that end in runs -/

namespace Route

theorem follows_nil (bound : Nat) (p : Place) (best : Option Place) (cs : List Char) :
    follows bound [] p best cs = best := by
  cases cs <;> rfl

/-- A thread that goes over the next character leads to what is found after it. -/
theorem follows_one {bound : Nat} {s : CharSet} {rest : List Route} {p : Place} {c : Char} {cs : List Char}
    {f : Frontier} (hc : s.has c = true) (he : Frontier.explore (p.after c cs) bound [rest] .start = f)
    (best : Option Place) : follows bound [⟨s, rest⟩] p best (c :: cs) =
      follows bound f.threads.reverse (p.after c cs) (if f.arrived then some (p.after c cs) else best) cs := by
  have hnext : Frontier.next bound [⟨s, rest⟩] c (p.after c cs) = f := by
    rw [← he]
    simp [Frontier.next, Frontier.start, hc]
  simp only [follows, List.isEmpty_cons, hnext]
  rfl

/-- A thread that does not go over the next character may be left out. -/
theorem follows_filter (bound : Nat) (threads : List Thread) (p : Place) (best : Option Place) (c : Char)
    (cs : List Char) : follows bound threads p best (c :: cs) =
      follows bound (threads.filter (·.accepts.has c)) p best (c :: cs) := by
  have hnext : ∀ q f, threads.foldl (Frontier.passOn bound c q) f =
      (threads.filter (·.accepts.has c)).foldl (Frontier.passOn bound c q) f := by
    intro q
    induction threads with
    | nil => exact fun _ => rfl
    | cons t threads ih =>
      intro f
      rw [List.foldl_cons, ih]
      cases ht : t.accepts.has c with
      | true => simp [ht]
      | false => simp [ht, Frontier.passOn]
  have hcons : ∀ ts : List Thread, follows bound ts p best (c :: cs) =
      follows bound (ts.foldl (Frontier.passOn bound c (p.after c cs)) .start).threads.reverse (p.after c cs)
        (if (ts.foldl (Frontier.passOn bound c (p.after c cs)) .start).arrived then some (p.after c cs) else best)
        cs := by
    intro ts
    cases ts with
    | nil => simp [follows, Frontier.start, follows_nil]
    | cons t ts => rfl
  rw [hcons, hcons, hnext]

/-- **A run** is gone over by a thread that comes back to itself after each character, having arrived. -/
theorem follows_run {bound : Nat} {s : CharSet} {rest : List Route}
    (h : ∀ q, ∃ seen, Frontier.explore q bound [rest] .start = ⟨seen, [⟨s, rest⟩], true⟩) (cs : List Char) :
    ∀ (p : Place) (best : Option Place), p.rest = cs → follows bound [⟨s, rest⟩] p best cs =
      if run s.has cs = 0 then best else some (p.advance (run s.has cs)) := by
  induction cs with
  | nil => intro p best _; rfl
  | cons c cs ih =>
    intro p best hp
    cases hc : s.has c with
    | true =>
      obtain ⟨seen, he⟩ := h (p.after c cs)
      rw [follows_one hc he, List.reverse_singleton, ih _ _ rfl, run_cons, hc, if_pos rfl, if_pos rfl,
        if_neg (Nat.succ_ne_zero _), Place.advance_succ hp]
      split
      · next hz => rw [hz, Place.advance]
      · rfl
    | false =>
      rw [follows_filter, List.filter_cons_of_neg (by simp [hc]), List.filter_nil, follows_nil, run_cons, hc]
      rfl

end Route

/-- The route of the third row. -/
def subscriptedRoute : Route := (Pattern.sequence (.set letters) (.sequence (.literal ['_'])
  (.choice (.rounds (.set letters) 1 none true) (.rounds (.set digits) 1 none true)))).route

/-- What follows the first letter of a subscripted name. -/
def subscript : Route :=
  .fork 2 (.follow (.set 4 letters) (.loop 3 (.set 4 letters) true))
    (.follow (.set 6 digits) (.loop 5 (.set 6 digits) true))

theorem follows_subscript (cs : List Char) (p : Place) (hp : p.rest = cs) :
    Route.follows subscriptedRoute.bound
        [⟨letters, [.loop 3 (.set 4 letters) true]⟩, ⟨digits, [.loop 5 (.set 6 digits) true]⟩] p none cs =
      if 0 < run Char.isAlpha cs then some (p.advance (run Char.isAlpha cs))
      else if 0 < run Char.isDigit cs then some (p.advance (run Char.isDigit cs)) else none := by
  cases cs with
  | nil => rfl
  | cons c cs =>
    rw [Route.follows_filter]
    by_cases ha : c.isAlpha = true
    · have hd := isDigit_eq_false_of_isAlpha ha
      simp only [List.filter, has_letters, has_digits, ha, hd]
      rw [Route.follows_run (fun _ => ⟨_, rfl⟩) _ _ _ hp, funext has_letters, run_cons, if_pos ha, if_neg (by omega),
        if_pos (by omega)]
    · rw [Bool.not_eq_true] at ha
      cases hd : c.isDigit with
      | true =>
        simp only [List.filter, has_letters, has_digits, ha, hd]
        rw [Route.follows_run (fun _ => ⟨_, rfl⟩) _ _ _ hp, funext has_digits, run_cons, if_pos hd, if_neg (by omega),
          run_cons, ha, if_neg (by simp), if_pos (by omega)]
      | false => simp [has_letters, has_digits, ha, hd, run_cons, Route.follows_nil]

theorem match?_subscripted (p : Place) :
    subscriptedRoute.match? p = (subscriptedLength? p.rest).map p.advance := by
  have he : Frontier.explore p subscriptedRoute.bound [[subscriptedRoute]] .start =
    ⟨1, [⟨letters, [.follow (.literal 1 ['_']) subscript]⟩], false⟩ := rfl
  rw [Route.match?, he]
  simp only [List.reverse_singleton]
  cases hp : p.rest with
  | nil => rfl
  | cons c cs =>
    by_cases hc : c.isAlpha = true
    · rw [Route.follows_one (by rw [has_letters, hc]) rfl]
      show Route.follows _ [⟨.ofChars ['_'], [.text [], subscript]⟩] (p.after c cs) none cs = _
      cases cs with
      | nil => rfl
      | cons d ds =>
        by_cases hd : d = '_'
        · subst hd
          rw [Route.follows_one (has_ofChars '_' '_') rfl]
          show Route.follows _ [⟨letters, [.loop 3 (.set 4 letters) true]⟩, ⟨digits, [.loop 5 (.set 6 digits) true]⟩]
            _ none ds = _
          rw [follows_subscript ds _ rfl, subscriptedLength?, if_pos hc]
          have hadv : ∀ n, p.advance (n + 2) = ((p.after c ('_' :: ds)).after '_' ds).advance n := by
            intro n
            rw [Place.advance_succ hp, Place.advance_succ rfl]
          split
          · rw [Option.map_some, hadv]
          · split
            · rw [Option.map_some, hadv]
            · rfl
        · have hne : ('_' == d) = false := by simpa using fun h => hd h.symm
          rw [Route.follows_filter]
          simp [has_ofChars, hne, Route.follows_nil, subscriptedLength?, hd]
    · rw [Bool.not_eq_true] at hc
      rw [Route.follows_filter]
      simp [has_letters, hc, Route.follows_nil]
      unfold subscriptedLength?
      split <;> simp_all

/-- The route of the sixth row. -/
def numberRoute : Route := (Pattern.sequence (.rounds (.set digits) 1 none true)
  (.rounds (.sequence (.literal ['.']) (.rounds (.set digits) 1 none true)) 0 (some 1) true)).route

/-- Digits that go on, after the first one. -/
def moreDigits (label : Nat) : Route := .loop label (.set (label + 1) digits) true

/-- A point with digits behind it, or nothing. -/
def fraction : Route :=
  .fork 2 (.follow (.follow (.literal 3 ['.']) (.follow (.set 5 digits) (moreDigits 4))) .done) .done

/-- After the first digit of a number, the end of a match is known at each place up to the point. -/
theorem follows_fraction (cs : List Char) : ∀ (p : Place), p.rest = cs →
    Route.follows numberRoute.bound
        [⟨digits, [moreDigits 0, fraction]⟩, ⟨.ofChars ['.'], [.text [], .follow (.set 5 digits) (moreDigits 4), .done]⟩]
        p (some p) cs =
      some (p.advance (run Char.isDigit cs + fractionLength (cs.drop (run Char.isDigit cs)))) := by
  induction cs with
  | nil => intro p _; rfl
  | cons c cs ih =>
    intro p hp
    rw [Route.follows_filter]
    by_cases hd : c.isDigit = true
    · have hne : ('.' == c) = false := by
        rw [beq_eq_false_iff_ne]
        rintro rfl
        exact absurd hd (by decide)
      simp only [List.filter, has_digits, has_ofChars, hd, hne]
      rw [Route.follows_one (by rw [has_digits, hd]) rfl]
      refine (ih _ rfl).trans ?_
      rw [run_cons, if_pos hd, List.drop_succ_cons, Nat.add_right_comm, Place.advance_succ hp]
    · rw [Bool.not_eq_true] at hd
      rw [run_cons, hd, if_neg (by simp), List.drop_zero, Nat.zero_add]
      by_cases hc : c = '.'
      · subst hc
        simp only [List.filter, has_digits, has_ofChars, hd, beq_self_eq_true]
        rw [Route.follows_one (has_ofChars '.' '.') rfl]
        refine (Route.follows_run (s := digits) (fun _ => ⟨_, rfl⟩) cs _ _ rfl).trans ?_
        rw [funext has_digits, fractionLength]
        split
        · rfl
        · rw [Place.advance_succ hp]
      · have hne : ('.' == c) = false := by simpa using fun h => hc h.symm
        simp only [List.filter, has_digits, has_ofChars, hd, hne, Route.follows_nil]
        rw [fractionLength]
        · rfl
        · rintro ds heq
          exact hc (List.head_eq_of_cons_eq heq)

theorem match?_number (p : Place) : numberRoute.match? p = (numberLength? p.rest).map p.advance := by
  have he : Frontier.explore p numberRoute.bound [[numberRoute]] .start =
    ⟨2, [⟨digits, [moreDigits 0, fraction]⟩], false⟩ := rfl
  rw [Route.match?, he]
  simp only [List.reverse_singleton]
  cases hp : p.rest with
  | nil => rfl
  | cons c cs =>
    by_cases hd : c.isDigit = true
    · rw [Route.follows_one (by rw [has_digits, hd]) rfl]
      refine (follows_fraction cs (p.after c cs) rfl).trans ?_
      rw [numberLength?, run_cons, if_pos hd, if_neg (by omega), List.drop_succ_cons, Option.map_some,
        Nat.add_right_comm, Place.advance_succ hp]
    · rw [Bool.not_eq_true] at hd
      rw [Route.follows_filter, numberLength?, run_cons, hd]
      simp [has_digits, hd, Route.follows_nil]

/-! ## The table -/

/-- The kinds and routes of the rows. -/
def standardRoutes : List (TokenKind × Route) := [
  (.keyword, keywordRoute), (.function, functionRoute), (.name, subscriptedRoute), (.constant, constantRoute),
  (.name, .set 0 letters), (.number, numberRoute), (.symbol, .set 0 marks)]

theorem standardRoutes_eq : TokenTable.standard.rows.map (fun row => (row.rule.kind, row.route)) = standardRoutes := by
  rw [rows_standard]
  rfl

/-- Each row of the table matches what its length function says. -/
theorem forall₂_standardWords : List.Forall₂
    (fun r w => r.1 = w.1 ∧ ∀ p : Place, r.2.match? p = (w.2 p.rest).map p.advance) standardRoutes standardWords :=
  .cons ⟨rfl, match?_keyword⟩ <| .cons ⟨rfl, match?_function⟩ <| .cons ⟨rfl, match?_subscripted⟩ <|
    .cons ⟨rfl, match?_constant⟩ <| .cons ⟨rfl, match?_letter⟩ <| .cons ⟨rfl, match?_number⟩ <|
    .cons ⟨rfl, match?_symbol⟩ .nil

/-- **The standard table finds the next word.** -/
theorem TokenTable.match?_standard (p : Place) :
    TokenTable.standard.match? p = (nextWord? p.rest).map fun w => (w.1, p.advance w.2) := by
  have hrows : TokenTable.standard.match? p =
      standardRoutes.findSome? fun r => (r.2.match? p).map fun q => (r.1, q) := by
    rw [← standardRoutes_eq, List.findSome?_map]
    rfl
  rw [hrows, nextWord?]
  have hall := forall₂_standardWords
  generalize standardRoutes = routes, standardWords = words at hall
  induction hall with
  | nil => rfl
  | @cons r w routes words h _ ih =>
    obtain ⟨hkind, hmatch⟩ := h
    rw [List.findSome?_cons, List.findSome?_cons, hmatch, hkind]
    cases w.2 p.rest with
    | none => exact ih
    | some n => rfl

end Formula
