/-!
# `Formula.Text.Span` — which bytes of a text something covers

A span is a half-open range of byte offsets. Spans point diagnostics at the input; they carry no meaning of
their own, and nothing forces `start ≤ stop`.

## Contents
- `Span`, its length and emptiness, and its written form `start..stop`.
- `merge` — the least span around two others — and `contains`, with the lemmas that relate them.
-/

namespace Formula

/-- The bytes from offset `start` up to, but not including, offset `stop`. -/
structure Span where
  start : Nat
  stop : Nat
deriving DecidableEq, Inhabited, Repr

namespace Span

/-- The empty span at the beginning of a text, given to trees that were built rather than read. -/
def nowhere : Span := ⟨0, 0⟩

/-- The span from the earlier start to the later stop. -/
def merge (a b : Span) : Span := ⟨min a.start b.start, max a.stop b.stop⟩

/-- A span is empty when it stops where it starts. -/
def isEmpty (s : Span) : Bool := s.start == s.stop

/-- The number of bytes covered; none when the span stops before it starts. -/
def length (s : Span) : Nat := s.stop - s.start

/-- Whether `b` lies entirely within `a`. -/
def contains (a b : Span) : Bool := a.start ≤ b.start && b.stop ≤ a.stop

/-- Spans are ordered by start, and by stop where the starts agree. -/
def compare (a b : Span) : Ordering := (Ord.compare a.start b.start).then (Ord.compare a.stop b.stop)

/-- The written form `start..stop`. -/
def describe (s : Span) : String := toString s.start ++ ".." ++ toString s.stop

/-! ## Containment and merging -/

theorem contains_iff {a b : Span} : a.contains b = true ↔ a.start ≤ b.start ∧ b.stop ≤ a.stop := by
  simp [contains]

theorem contains_refl (a : Span) : a.contains a = true := by
  simp [contains]

theorem contains_trans {a b c : Span} (hab : a.contains b = true) (hbc : b.contains c = true) :
    a.contains c = true := by
  rw [contains_iff] at *
  omega

theorem merge_contains_left (a b : Span) : (a.merge b).contains a = true := by
  simp only [contains_iff, merge]
  omega

theorem merge_contains_right (a b : Span) : (a.merge b).contains b = true := by
  simp only [contains_iff, merge]
  omega

/-- Nothing smaller than `merge` contains both spans. -/
theorem contains_merge {a b c : Span} (ha : c.contains a = true) (hb : c.contains b = true) :
    c.contains (a.merge b) = true := by
  simp only [contains_iff, merge] at *
  omega

end Span

end Formula
