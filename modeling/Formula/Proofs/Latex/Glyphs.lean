import Formula.Proofs.Latex.Names
import Mathlib.Data.List.Chain

/-!
# `Formula.Proofs.Latex.Glyphs` — LaTeX cut into glyphs

What an expression is typeset with are names, numbers and a few fixed signs. Each begins with a character of its own
class, and no sign is the beginning of another one, apart from a fraction and the fraction that a derivative begins
with. So a text can be cut into glyphs in one way only, provided that no two names or numbers touch.

## Contents
- `Sign`, `Glyph`, `spell` — the glyphs and the text that they stand for.
- `Legible` — glyphs that can be told apart.
- `Glyph.text_inj`, `Legible.spell_inj` — the text determines the glyphs.
-/

namespace Formula.Latex

open Lexis Formula.Expr

/-! ## Glyphs -/

/-- The fixed texts of LaTeX. -/
inductive Sign where
  | pi
  | e
  | plus
  | minus
  | times
  /-- Between factors that stand side by side. -/
  | beside
  | negative
  | bang
  | opening
  | closing
  /-- What a fraction begins with, up to its numerator. -/
  | fraction
  /-- The brace before a denominator. -/
  | denominator
  /-- What a power goes on with behind its base. -/
  | power
  /-- What a derivative begins with, up to its variable. -/
  | derivative
  /-- What a derivative goes on with behind its fraction. -/
  | application
  | brace
deriving DecidableEq

namespace Sign

/-- All signs. -/
def all : List Sign := [
  .pi, .e, .plus, .minus, .times, .beside, .negative, .bang, .opening, .closing, .fraction, .denominator, .power,
  .derivative, .application, .brace]

theorem mem_all (s : Sign) : s ∈ all := by
  cases s <;> decide

/-- The text of a sign. -/
def text : Sign → String
  | pi => "\\pi\x7b\x7d"
  | e => "\\mathrm\x7be\x7d"
  | plus => " + "
  | minus => " - "
  | times => " \\cdot\x7b\x7d "
  | beside => "\\,\x7b\x7d"
  | negative => "-"
  | bang => "!"
  | opening => "\\left("
  | closing => "\\right)"
  | fraction => "\\frac\x7b"
  | denominator => "\x7b"
  | power => "^\x7b"
  | derivative => "\\frac\x7b\\mathrm\x7bd\x7d\x7d\x7b\\mathrm\x7bd\x7d"
  | application => "\\,\\left("
  | brace => "\x7d"

end Sign

/-- What a text is cut into. -/
inductive Glyph where
  | sign (s : Sign)
  | name (x : String)
  | number (digits : String)
deriving DecidableEq

namespace Glyph

/-- The text of a glyph. -/
def text : Glyph → List Char
  | sign s => s.text.toList
  | name x => (latexName x).toList
  | number digits => digits.toList

/-- Whether two of these next to each other might be taken for one. -/
def isWord : Glyph → Bool
  | sign _ => false
  | name _ => true
  | number _ => true

/-- Whether names are names and numbers are digits with an optional fraction. -/
def Lawful : Glyph → Prop
  | sign _ => True
  | name x => IsName x
  | number digits => NumberText digits.toList

end Glyph

/-- The text of glyphs one after the other. -/
def spell (gs : List Glyph) : List Char := gs.flatMap Glyph.text

/-- **Glyphs that can be told apart**: no two names or numbers touch. -/
structure Legible (gs : List Glyph) : Prop where
  lawful : ∀ g ∈ gs, g.Lawful
  separate : gs.IsChain fun g h => g.isWord = true → h.isWord = false

@[simp] theorem spell_nil : spell [] = [] := rfl

@[simp] theorem spell_cons (g : Glyph) (gs : List Glyph) : spell (g :: gs) = g.text ++ spell gs := rfl

@[simp] theorem spell_append (gs hs : List Glyph) : spell (gs ++ hs) = spell gs ++ spell hs := List.flatMap_append

theorem Legible.tail {g : Glyph} {gs : List Glyph} (h : Legible (g :: gs)) : Legible gs :=
  ⟨fun g' hg' => h.lawful g' (List.mem_cons_of_mem g hg'), h.separate.tail⟩

/-- A sign in front of glyphs. -/
theorem Legible.sign {gs : List Glyph} (h : Legible gs) (s : Sign) : Legible (.sign s :: gs) := by
  refine ⟨List.forall_mem_cons.mpr ⟨trivial, h.lawful⟩, ?_⟩
  apply h.separate.cons
  intro g _ hword
  cases hword

/-- Glyphs with a sign between them. -/
theorem Legible.append {gs hs : List Glyph} {s : Sign} (hg : Legible gs) (hh : Legible (.sign s :: hs)) :
    Legible (gs ++ .sign s :: hs) := by
  refine ⟨List.forall_mem_append.mpr ⟨hg.lawful, hh.lawful⟩, ?_⟩
  apply hg.separate.append hh.separate
  intro g _ h hhead _
  cases hhead
  rfl

/-! ## How glyphs begin -/

/-- Texts of which neither begins as the other does are told apart whatever follows. -/
theorem append_ne_of_not_prefix {a b : List Char} (hab : ¬ a <+: b) (hba : ¬ b <+: a) (r s : List Char) :
    a ++ r ≠ b ++ s := by
  intro h
  have ha : a <+: b ++ s := by
    rw [← h]
    exact List.prefix_append a r
  rcases List.prefix_or_prefix_of_prefix ha (List.prefix_append b s) with hpre | hpre
  · exact hab hpre
  · exact hba hpre

/-- No sign begins as another one does, but for the two kinds of fractions. -/
theorem Sign.not_prefix {s t : Sign} (hne : s ≠ t) (hfraction : s = .fraction → t ≠ .derivative) :
    ¬ s.text.toList <+: t.text.toList := by
  have hall : ∀ s ∈ all, ∀ t ∈ all, s ≠ t → (s = .fraction → t ≠ .derivative) →
      ¬ s.text.toList <+: t.text.toList := by
    decide +kernel
  exact hall s s.mem_all t t.mem_all hne hfraction

/-- The sign of a differential. It stands in the fraction of a derivative only. -/
def differential : List Char := "\\mathrm\x7bd\x7d".toList

theorem Sign.not_prefix_differential (s : Sign) :
    ¬ differential <+: s.text.toList ∧ ¬ s.text.toList <+: differential := by
  have hall : ∀ s ∈ all, ¬ differential <+: s.text.toList ∧ ¬ s.text.toList <+: differential := by
    decide +kernel
  exact hall s s.mem_all

/-- A sign begins with a character that is in no word. -/
theorem Sign.exists_text_cons (s : Sign) :
    ∃ c cs, s.text.toList = c :: cs ∧ c.isAlphanum = false ∧ c ≠ '_' ∧ c ≠ '.' := by
  cases s <;> exact ⟨_, _, rfl, by decide, by decide, by decide⟩

/-! ## One glyph -/

/-- A fraction is not that of a derivative, unless a differential follows. -/
theorem fraction_append_ne {r : List Char} (hr : ¬ differential <+: r) (u : List Char) :
    Sign.fraction.text.toList ++ r ≠ Sign.derivative.text.toList ++ u := by
  have htext : Sign.derivative.text.toList =
      Sign.fraction.text.toList ++ (differential ++ "\x7d\x7b\\mathrm\x7bd\x7d".toList) := by
    decide +kernel
  intro h
  rw [htext, List.append_assoc, List.append_assoc] at h
  apply hr
  rw [List.append_cancel_left h]
  exact List.prefix_append _ _

theorem Sign.text_inj {s t : Sign} {r u : List Char} (hr : ¬ differential <+: r) (hu : ¬ differential <+: u)
    (h : s.text.toList ++ r = t.text.toList ++ u) : s = t ∧ r = u := by
  by_cases hst : s = t
  · subst hst
    exact ⟨rfl, List.append_cancel_left h⟩
  · exfalso
    by_cases hs : s = .fraction ∧ t = .derivative
    · rw [hs.1, hs.2] at h
      exact fraction_append_ne hr u h
    · by_cases ht : t = .fraction ∧ s = .derivative
      · rw [ht.1, ht.2] at h
        exact fraction_append_ne hu r h.symm
      · have hst' := not_prefix hst fun hs' ht' => hs ⟨hs', ht'⟩
        have hts' := not_prefix (Ne.symm hst) fun ht' hs' => ht ⟨ht', hs'⟩
        exact append_ne_of_not_prefix hst' hts' r u h

/-- A number is read back, unless it goes on. -/
theorem number_inj {ds es r u : List Char} (hd : NumberText ds) (he : NumberText es) (hr : Delimited r)
    (hu : Delimited u) (h : ds ++ r = es ++ u) : ds = es ∧ r = u := by
  have hhead : ∀ {r : List Char}, Delimited r → ∀ c ∈ r.head?, (c.isDigit || c == '.') = false := by
    intro r hr c hc
    rw [hr.isDigit c hc, Bool.false_or, beq_eq_false_iff_ne]
    exact (hr c hc).2.2
  exact append_inj_of_all hd.isDigit_or_point he.isDigit_or_point (hhead hr) (hhead hu) h

theorem head?_ne_of_delimited {r : List Char} (h : Delimited r) : r.head? ≠ some '_' := by
  intro hr
  exact (h '_' hr).2.1 rfl

namespace Glyph

/-- Whether a character is of the class that the glyph begins with. -/
def Begins (c : Char) : Glyph → Prop
  | sign _ => c.isAlphanum = false
  | name _ => c.isAlpha = true
  | number _ => c.isDigit = true

theorem exists_text_cons {g : Glyph} (h : g.Lawful) : ∃ c cs, g.text = c :: cs ∧ g.Begins c := by
  cases g with
  | sign s =>
    obtain ⟨c, cs, hs, hc, -⟩ := s.exists_text_cons
    exact ⟨c, cs, hs, hc⟩
  | name x => exact exists_latexName_cons h
  | number x => exact NumberText.exists_cons h

/-- Glyphs that begin with the same character are of one class. -/
theorem Begins.cases {c : Char} {g g' : Glyph} (h : g.Begins c) (h' : g'.Begins c) :
    (∃ s t, g = sign s ∧ g' = sign t) ∨ (∃ x y, g = name x ∧ g' = name y) ∨ ∃ x y, g = number x ∧ g' = number y := by
  have hname : ∀ {x : String}, (name x).Begins c → c.isAlphanum = true := fun (hc : c.isAlpha = true) => by
    rw [Char.isAlphanum, hc, Bool.true_or]
  have hnumber : ∀ {x : String}, (number x).Begins c → c.isAlphanum = true := fun (hc : c.isDigit = true) => by
    rw [Char.isAlphanum, hc, Bool.or_true]
  have hboth : ∀ {x y : String}, (name x).Begins c → ¬ (number y).Begins c := fun hc hc' => by
    exact absurd (show c.isDigit = true from hc') (by rw [isDigit_eq_false_of_isAlpha hc]; decide)
  have hsign : ∀ {s : Sign}, (sign s).Begins c → ¬ c.isAlphanum = true := fun (hc : c.isAlphanum = false) => by
    rw [hc]
    decide
  cases g with
  | sign s =>
    cases g' with
    | sign t => exact Or.inl ⟨s, t, rfl, rfl⟩
    | name y => exact absurd (hname h') (hsign h)
    | number y => exact absurd (hnumber h') (hsign h)
  | name x =>
    cases g' with
    | sign t => exact absurd (hname h) (hsign h')
    | name y => exact Or.inr (Or.inl ⟨x, y, rfl, rfl⟩)
    | number y => exact absurd h' (hboth h)
  | number x =>
    cases g' with
    | sign t => exact absurd (hnumber h) (hsign h')
    | name y => exact absurd h (hboth h')
    | number y => exact Or.inr (Or.inr ⟨x, y, rfl, rfl⟩)

/-- **A glyph is read back**, unless a word goes on behind it or a differential follows. -/
theorem text_inj {g g' : Glyph} (hg : g.Lawful) (hg' : g'.Lawful) {r u : List Char}
    (hr : g.isWord = true → Delimited r) (hu : g'.isWord = true → Delimited u) (hdr : ¬ differential <+: r)
    (hdu : ¬ differential <+: u) (h : g.text ++ r = g'.text ++ u) : g = g' ∧ r = u := by
  obtain ⟨c, cs, hcs, hc⟩ := exists_text_cons hg
  obtain ⟨d, ds, hds, hd⟩ := exists_text_cons hg'
  obtain rfl : c = d := by
    rw [hcs, hds] at h
    exact (List.cons.inj h).1
  rcases hc.cases hd with ⟨s, t, rfl, rfl⟩ | ⟨x, y, rfl, rfl⟩ | ⟨x, y, rfl, rfl⟩
  · obtain ⟨rfl, hru⟩ := Sign.text_inj hdr hdu h
    exact ⟨rfl, hru⟩
  · obtain ⟨rfl, hru⟩ := latexName_inj hg hg' (head?_ne_of_delimited (hr rfl)) (head?_ne_of_delimited (hu rfl)) h
    exact ⟨rfl, hru⟩
  · obtain ⟨hxy, hru⟩ := number_inj hg hg' (hr rfl) (hu rfl) h
    exact ⟨by rw [String.toList_inj.mp hxy], hru⟩

end Glyph

/-! ## Glyphs one after the other -/

/-- Behind a word stands a sign, or nothing. -/
theorem Legible.delimited {g : Glyph} {gs : List Glyph} (h : Legible (g :: gs)) (hword : g.isWord = true) :
    Delimited (spell gs) := by
  cases gs with
  | nil => exact fun c hc => by cases hc
  | cons g' gs =>
    have hsign : g'.isWord = false := (List.isChain_cons_cons.mp h.separate).1 hword
    cases g' with
    | sign s =>
      obtain ⟨c, cs, hs, hc⟩ := s.exists_text_cons
      intro d hd
      rw [spell_cons, Glyph.text, hs] at hd
      cases hd
      exact hc
    | name x => cases hsign
    | number x => cases hsign

/-- No glyph begins with a differential. -/
theorem Legible.not_differential {gs : List Glyph} (h : Legible gs) : ¬ differential <+: spell gs := by
  intro hpre
  cases gs with
  | nil =>
    rw [spell_nil, List.prefix_nil] at hpre
    revert hpre
    decide
  | cons g gs =>
    obtain ⟨c, cs, hcs, hc⟩ := Glyph.exists_text_cons (h.lawful g List.mem_cons_self)
    -- it begins as signs do
    have hhead : c = '\\' := by
      rw [spell_cons, hcs] at hpre
      exact (List.cons_prefix_cons.mp hpre).1.symm
    have hsign : (Glyph.sign .pi).Begins c := by
      rw [hhead]
      exact (by decide : Char.isAlphanum '\\' = false)
    rcases hc.cases hsign with ⟨s, -, rfl, -⟩ | ⟨-, y, -, hy⟩ | ⟨-, y, -, hy⟩
    · obtain ⟨hds, hsd⟩ := s.not_prefix_differential
      rcases List.prefix_or_prefix_of_prefix hpre (List.prefix_append s.text.toList (spell gs)) with hpre | hpre
      · exact hds hpre
      · exact hsd hpre
    · cases hy
    · cases hy

/-- **The text of legible glyphs determines the glyphs.** -/
theorem Legible.spell_inj {gs hs : List Glyph} (hg : Legible gs) (hh : Legible hs) (h : spell gs = spell hs) :
    gs = hs := by
  have hne : ∀ {g : Glyph} {gs : List Glyph}, Legible (g :: gs) → spell (g :: gs) ≠ [] := by
    intro g gs hg hnil
    obtain ⟨c, cs, hcs, -⟩ := Glyph.exists_text_cons (hg.lawful g List.mem_cons_self)
    rw [spell_cons, hcs] at hnil
    cases hnil
  induction gs generalizing hs with
  | nil =>
    cases hs with
    | nil => rfl
    | cons g' hs => exact absurd h.symm (hne hh)
  | cons g gs ih =>
    cases hs with
    | nil => exact absurd h (hne hg)
    | cons g' hs =>
      obtain ⟨rfl, htail⟩ := Glyph.text_inj (hg.lawful g List.mem_cons_self) (hh.lawful g' List.mem_cons_self)
        hg.delimited hh.delimited hg.tail.not_differential hh.tail.not_differential h
      rw [ih hg.tail hh.tail htail]

end Formula.Latex
