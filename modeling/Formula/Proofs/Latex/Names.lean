import Formula.Expr.Latex
import Formula.Proofs.Lexis.Spelling
import Mathlib.Data.List.Basic

/-!
# `Formula.Proofs.Latex.Names` — names are told apart by their LaTeX

A name of the input language is a letter, or a letter with a subscript. The letter stands for itself; the subscript is
written between braces, as a macro, upright or as it is. Which of the three it was, and where it ends, can be seen from
what is written.

## Contents
- `exists_letter_or_subscript` — what a name looks like.
- `latexWord_inj` — a subscript is read back up to its closing brace.
- `latexName_inj` — a name is read back, unless an underscore follows it.
-/

namespace Formula.Expr

open Lexis

/-! ## What a name looks like -/

/-- The characters of a subscript. -/
def IsSubscript (w : List Char) : Prop := w ≠ [] ∧ ∀ c ∈ w, c.isAlphanum = true

theorem isSubscript_of_run {p : Char → Bool} (hp : ∀ c, p c = true → c.isAlphanum = true) {w : List Char}
    (hpos : 0 < run p w) (hlen : run p w = w.length) : IsSubscript w := by
  have hall : w.takeWhile p = w := (List.takeWhile_prefix p).eq_of_length hlen
  refine ⟨?_, fun c hc => hp c (List.mem_takeWhile_imp (by rw [hall]; exact hc))⟩
  rintro rfl
  cases hpos

/-- A text that is a letter with a subscript. -/
theorem exists_of_subscriptedLength? {cs : List Char} (h : subscriptedLength? cs = some cs.length) :
    ∃ c w, cs = c :: '_' :: w ∧ c.isAlpha = true ∧ IsSubscript w := by
  unfold subscriptedLength? at h
  split at h
  · next c w =>
    split at h
    · next hc =>
      refine ⟨c, w, rfl, hc, ?_⟩
      split at h
      · next hpos =>
        refine isSubscript_of_run (p := Char.isAlpha) (fun c hc => ?_) hpos (by simpa using h)
        rw [Char.isAlphanum, hc, Bool.true_or]
      · split at h
        · next hpos =>
          refine isSubscript_of_run (p := Char.isDigit) (fun c hc => ?_) hpos (by simpa using h)
          rw [Char.isAlphanum, hc, Bool.or_true]
        · cases h
    · cases h
  · cases h

/-- A text that is a letter. -/
theorem exists_of_letterLength? {cs : List Char} (h : letterLength? cs = some cs.length) :
    ∃ c, cs = [c] ∧ c.isAlpha = true := by
  unfold letterLength? at h
  split at h
  · next c cs =>
    split at h
    · next hc => exact ⟨c, by simpa using h, hc⟩
    · cases h
  · cases h

/-- **A name is a letter or a letter with a subscript.** -/
theorem exists_letter_or_subscript {x : String} (h : IsName x) : ∃ c, c.isAlpha = true ∧
    (x.toList = [c] ∨ ∃ w, IsSubscript w ∧ x.toList = c :: '_' :: w) := by
  obtain ⟨row, hmem, hkind, hrow⟩ := ((isName_iff x).mp h).row
  simp only [standardWords, List.mem_cons, List.not_mem_nil, or_false] at hmem
  -- two rows give names
  rcases hmem with rfl | rfl | rfl | rfl | rfl | rfl | rfl <;> try cases hkind
  · obtain ⟨c, w, hx, hc, hw⟩ := exists_of_subscriptedLength? hrow
    exact ⟨c, hc, Or.inr ⟨w, hw, hx⟩⟩
  · obtain ⟨c, hx, hc⟩ := exists_of_letterLength? hrow
    exact ⟨c, hc, Or.inl hx⟩

/-- Texts put together are told apart where the first of them consist of characters that the second do not begin
    with. -/
theorem append_inj_of_all {p : Char → Bool} {v w r s : List Char} (hv : ∀ c ∈ v, p c = true)
    (hw : ∀ c ∈ w, p c = true) (hr : ∀ c ∈ r.head?, p c = false) (hs : ∀ c ∈ s.head?, p c = false)
    (h : v ++ r = w ++ s) : v = w ∧ r = s := by
  have hzero : ∀ {u : List Char}, (∀ c ∈ u.head?, p c = false) → run p u = 0 := by
    intro u hu
    cases u with
    | nil => rfl
    | cons c u => simp [run_cons, hu c rfl]
  have hlen := congrArg (run p) h
  rw [run_append_of_all hv, run_append_of_all hw, hzero hr, hzero hs] at hlen
  exact List.append_inj h hlen

theorem IsSubscript.append_inj {v w r s : List Char} {c : Char} (hc : c.isAlphanum = false) (hv : IsSubscript v)
    (hw : IsSubscript w) (h : v ++ c :: r = w ++ c :: s) : v = w ∧ r = s := by
  have hhead : ∀ {r : List Char}, ∀ d ∈ (c :: r).head?, d.isAlphanum = false := by
    intro r d hd
    cases hd
    exact hc
  obtain ⟨hvw, hrs⟩ := append_inj_of_all hv.2 hw.2 hhead hhead h
  exact ⟨hvw, (List.cons.inj hrs).2⟩

/-- No subscript begins as a macro does. -/
theorem IsSubscript.append_ne {w : List Char} (h : IsSubscript w) (r s : List Char) : w ++ r ≠ '\\' :: s := by
  obtain ⟨c, w', rfl⟩ := List.exists_cons_of_ne_nil h.1
  intro heq
  have hc := h.2 c List.mem_cons_self
  rw [(List.cons.inj heq).1] at hc
  cases hc

/-! ## Words -/

/-- A word is written in one of three ways. -/
theorem latexWord_cases (w : List Char) :
    latexWord w = '\\' :: (w ++ ['\x7b', '\x7d']) ∧ String.ofList w ∈ greekLetters ∨
      latexWord w = "\\mathrm\x7b".toList ++ (w ++ ['\x7d']) ∨ latexWord w = w := by
  unfold latexWord
  split
  · next h => exact Or.inl ⟨rfl, by simpa using h⟩
  · split
    · exact Or.inr (Or.inl (by rw [List.append_assoc]))
    · exact Or.inr (Or.inr rfl)

/-- The letter of a name stands for itself. -/
theorem latexWord_singleton (c : Char) : latexWord [c] = [c] := by
  have hlong : ∀ g ∈ greekLetters, g.toList.length ≠ 1 := by decide
  have hgreek : String.ofList [c] ∉ greekLetters := by
    intro hmem
    exact hlong _ hmem (by rw [String.toList_ofList, List.length_singleton])
  rw [latexWord, List.contains_eq_mem, decide_eq_false hgreek]
  rfl

/-- No Greek letter is called as the macro of upright words is. -/
theorem greek_append_ne {w : List Char} (hw : IsSubscript w) (hgreek : String.ofList w ∈ greekLetters)
    (r s : List Char) : '\\' :: (w ++ '\x7b' :: r) ≠ "\\mathrm\x7b".toList ++ s := by
  intro heq
  have htext : "\\mathrm\x7b".toList = '\\' :: (['m', 'a', 't', 'h', 'r', 'm'] ++ ['\x7b']) := by decide
  rw [htext, List.cons_append, List.append_assoc] at heq
  have hcut : w ++ '\x7b' :: r = ['m', 'a', 't', 'h', 'r', 'm'] ++ '\x7b' :: s := (List.cons.inj heq).2
  have hname : IsSubscript ['m', 'a', 't', 'h', 'r', 'm'] := ⟨by decide, List.all_eq_true.mp rfl⟩
  obtain ⟨rfl, -⟩ := hw.append_inj (by decide) hname hcut
  revert hgreek
  decide

/-- **A subscript is read back up to the brace that closes it.** -/
theorem latexWord_inj {v w r s : List Char} (hv : IsSubscript v) (hw : IsSubscript w)
    (h : latexWord v ++ '\x7d' :: r = latexWord w ++ '\x7d' :: s) : v = w ∧ r = s := by
  -- each as a macro, upright or as it is
  rcases latexWord_cases v with ⟨hlv, hgv⟩ | hlv | hlv <;>
    rcases latexWord_cases w with ⟨hlw, hgw⟩ | hlw | hlw <;> rw [hlv, hlw] at h
  · have htail : v ++ '\x7b' :: '\x7d' :: '\x7d' :: r = w ++ '\x7b' :: '\x7d' :: '\x7d' :: s := by simpa using h
    obtain ⟨rfl, hrs⟩ := hv.append_inj (by decide) hw htail
    exact ⟨rfl, by simpa using hrs⟩
  · exact absurd (by simpa using h) (greek_append_ne hv hgv _ _)
  · exact absurd h.symm (hw.append_ne _ _)
  · exact absurd (by simpa using h.symm) (greek_append_ne hw hgw _ _)
  · have htail : v ++ '\x7d' :: '\x7d' :: r = w ++ '\x7d' :: '\x7d' :: s := by simpa using h
    obtain ⟨rfl, hrs⟩ := hv.append_inj (by decide) hw htail
    exact ⟨rfl, by simpa using hrs⟩
  · exact absurd h.symm (hw.append_ne _ _)
  · exact absurd h (hv.append_ne _ _)
  · exact absurd h (hv.append_ne _ _)
  · exact hv.append_inj (by decide) hw h

/-! ## Names -/

/-- Without an underscore a part is one word. -/
theorem latexNameFrom_of_notMem {cs : List Char} (h : '_' ∉ cs) (part : List Char) :
    latexNameFrom part cs = latexWord (part.reverse ++ cs) := by
  induction cs generalizing part with
  | nil => rw [latexNameFrom, List.append_nil]
  | cons c cs ih =>
    rw [List.mem_cons, not_or] at h
    obtain ⟨hc, hcs⟩ := h
    rw [latexNameFrom, if_neg (Ne.symm hc), ih hcs, List.reverse_cons, List.append_assoc, List.singleton_append]

theorem latexName_letter {x : String} {c : Char} (hc : c.isAlpha = true) (hx : x.toList = [c]) :
    (latexName x).toList = [c] := by
  have hne : '_' ∉ [c] := by
    rw [List.mem_singleton]
    rintro rfl
    cases hc
  rw [latexName, String.toList_ofList, hx, latexNameFrom_of_notMem hne, List.reverse_nil, List.nil_append,
    latexWord_singleton]

theorem latexName_subscript {x : String} {c : Char} {w : List Char} (hc : c.isAlpha = true) (hw : IsSubscript w)
    (hx : x.toList = c :: '_' :: w) : (latexName x).toList = c :: '_' :: '\x7b' :: (latexWord w ++ ['\x7d']) := by
  have hne : c ≠ '_' := by
    rintro rfl
    cases hc
  have hnotMem : '_' ∉ w := by
    intro hmem
    cases hw.2 '_' hmem
  rw [latexName, String.toList_ofList, hx, latexNameFrom, if_neg hne, latexNameFrom, if_pos rfl,
    latexNameFrom_of_notMem hnotMem, List.reverse_singleton, latexWord_singleton]
  rfl

/-- A name begins with a letter. -/
theorem exists_latexName_cons {x : String} (h : IsName x) :
    ∃ c cs, (latexName x).toList = c :: cs ∧ c.isAlpha = true := by
  obtain ⟨c, hc, hx | ⟨w, hw, hx⟩⟩ := exists_letter_or_subscript h
  · exact ⟨c, _, latexName_letter hc hx, hc⟩
  · exact ⟨c, _, latexName_subscript hc hw hx, hc⟩

/-- **A name is read back**, unless an underscore follows it. -/
theorem latexName_inj {x y : String} (hx : IsName x) (hy : IsName y) {r s : List Char} (hr : r.head? ≠ some '_')
    (hs : s.head? ≠ some '_') (h : (latexName x).toList ++ r = (latexName y).toList ++ s) : x = y ∧ r = s := by
  obtain ⟨c, hc, hxc | ⟨v, hv, hxc⟩⟩ := exists_letter_or_subscript hx <;>
    obtain ⟨d, hd, hyd | ⟨w, hw, hyd⟩⟩ := exists_letter_or_subscript hy
  · rw [latexName_letter hc hxc, latexName_letter hd hyd] at h
    obtain ⟨rfl, hrs⟩ := List.cons.inj h
    exact ⟨String.toList_inj.mp (hxc.trans hyd.symm), hrs⟩
  · rw [latexName_letter hc hxc, latexName_subscript hd hw hyd] at h
    exact absurd (by rw [show r = _ from (List.cons.inj h).2]; rfl) hr
  · rw [latexName_subscript hc hv hxc, latexName_letter hd hyd] at h
    exact absurd (by rw [show s = _ from (List.cons.inj h).2.symm]; rfl) hs
  · rw [latexName_subscript hc hv hxc, latexName_subscript hd hw hyd] at h
    obtain ⟨rfl, htail⟩ := List.cons.inj h
    obtain ⟨rfl, hrs⟩ := latexWord_inj (r := r) (s := s) hv hw (by simpa using htail)
    exact ⟨String.toList_inj.mp (hxc.trans hyd.symm), hrs⟩

end Formula.Expr
