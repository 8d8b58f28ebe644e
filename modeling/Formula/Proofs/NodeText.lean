import Formula.Proofs.Lexis.Places
import Formula.Proofs.Parsing.Traces
import Formula.Proofs.RoundTrip

/-!
# `Formula.Proofs.NodeText` — the text under the span of a node

A span says exactly where a node was read from: what is cut out of the text there is read as the node again. For the
tokens under the span stay the same where the text is cut, and those tokens alone are read as the node.

## Contents
- `exists_extract` — what stands between two parts of a text is the text between two positions.
- `parseText_cut` — the text of a node is read as the node.
- `span_of_subtree` — the spans of all nodes, for doubles.
-/

namespace Formula

open Lexis Formula.Expr Parsing

/-- What stands between two parts of a text is cut out of it at positions of the text. -/
theorem exists_extract {text before part after : String} (h : text = before ++ part ++ after) :
    ∃ p q : text.Pos, p.offset.byteIdx = before.utf8ByteSize ∧ q.offset.byteIdx = (before ++ part).utf8ByteSize ∧
      text.extract p q = part := by
  have hp : (⟨before.utf8ByteSize⟩ : String.Pos.Raw).IsValid text :=
    String.Pos.Raw.isValid_iff_exists_append.mpr ⟨before, part ++ after, by rw [h, String.append_assoc], rfl⟩
  have hq : (⟨(before ++ part).utf8ByteSize⟩ : String.Pos.Raw).IsValid text :=
    String.Pos.Raw.isValid_iff_exists_append.mpr ⟨before ++ part, after, h, rfl⟩
  refine ⟨⟨_, hp⟩, ⟨_, hq⟩, rfl, rfl, ?_⟩
  rw [← String.toByteArray_inj, String.toByteArray_extract]
  subst h
  show (before ++ part ++ after).toByteArray.extract before.utf8ByteSize (before ++ part).utf8ByteSize =
    part.toByteArray
  rw [String.toByteArray_append, ← String.size_toByteArray, ← String.size_toByteArray,
    ByteArray.extract_append_size_left, String.toByteArray_append]
  exact ByteArray.extract_append_eq_right rfl ByteArray.size_append

variable {ν : Type} [Numeral ν]

/-- **The text of a node is read as the node**, up to spans, wherever tokens of the text are read as the node. -/
theorem parseText_cut {text : String} {us vs ws : List Token} {n : Expr ν}
    (htokens : tokensOf text = .ok (us ++ vs ++ ws)) (hread : ReadFrom vs n) :
    ∃ before part after, text = before ++ part ++ after ∧
      n.span = ⟨before.utf8ByteSize, (before ++ part).utf8ByteSize⟩ ∧
      ∃ e, parseText part = .ok e ∧ e.unspanned = n.unspanned := by
  obtain ⟨a, ha, b, hb, hspan⟩ := hread.covers
  obtain ⟨before, part, after, htext, hstart, hstop, hstands⟩ := (stands_of_tokensOf htokens).cut ha hb
  obtain ⟨vs', hvs', hwords⟩ := (exists_tokensOf_iff (String.ofList part) _).mpr
    (by rw [String.toList_ofList]; exact hstands.spells)
  -- the same words are read as the same tree
  obtain ⟨e, rest, hrun, hsame, hrest⟩ := hread.run.respan vs' hwords
  rw [List.map_nil, List.map_eq_nil_iff] at hrest
  subst hrest
  refine ⟨String.ofList before, String.ofList part, String.ofList after, ?_, ?_, e,
    parseText_of_parseAll hvs' (parseAll_iff_run.mpr hrun), hsame⟩
  · rw [← String.ofList_append, ← String.ofList_append, ← htext, String.ofList_toList]
  · rw [hspan, hstart, hstop, ← String.ofList_append, utf8ByteSize_ofList, utf8ByteSize_ofList, Nat.zero_add,
      Nat.zero_add]

/-- **Spans are exact.** The span of each node of an expression that has been read lies between two positions of the
    text; what is cut out there is read as the node; and the spans of its children lie within its own, one after the
    other. -/
theorem span_of_subtree {text : String} {e : Expr Float} (h : parseText text = .ok e) {n : Expr Float}
    (hn : n ∈ e.subtrees) :
    (∃ p q : text.Pos, p.offset.byteIdx = n.span.start ∧ q.offset.byteIdx = n.span.stop ∧ p < q ∧
      ∃ e', parseText (text.extract p q) = .ok e' ∧ e'.same n = true) ∧
    (∀ c ∈ n.children, n.span.contains c.span = true) ∧
    n.children.Pairwise fun a b => a.span.stop ≤ b.span.start := by
  obtain ⟨ts, hts, hparse⟩ := exists_tokens_of_parseText h
  have hin : InOrder ts := (stands_of_tokensOf hts).inOrder
  obtain ⟨us, rfl, htraced⟩ := traced_of_run (run_of_parseAll hparse) le_rfl hin
  rw [List.append_nil] at hts hin
  obtain ⟨vs, ⟨as, bs, rfl⟩, hnode⟩ := htraced.subtree hn
  have hin' : InOrder vs := hin.left.right
  have hlt : n.span.start < n.span.stop := hnode.readFrom.covers.start_lt_stop hin'
  obtain ⟨before, part, after, htext, hspan, e', he', hsame⟩ := parseText_cut hts hnode.readFrom
  obtain ⟨p, q, hp, hq, hextract⟩ := exists_extract htext
  refine ⟨⟨p, q, by rw [hspan, hp], by rw [hspan, hq], ?_, e', by rw [hextract, he'], ?_⟩,
    hnode.children hin'⟩
  · rw [hspan] at hlt
    rw [String.Pos.lt_iff, String.Pos.Raw.lt_iff, hp, hq]
    exact hlt
  · exact same_of_unspanned hsame (same_self (written_of_parseText he').1)

/-- The operand of a derivative that names no variable. -/
theorem span_of_subtree_derivative :
    let n : Expr Float := .derivative ⟨4, 18⟩ (.binary ⟨15, 18⟩ .juxtapose (.var ⟨15, 16⟩ "x") (.var ⟨17, 18⟩ "y")) "x"
    let e : Expr Float := .binary ⟨0, 18⟩ .sub (.literal ⟨0, 1⟩ 2) n
    parseText "2 - derivative x y" = .ok e ∧ n ∈ e.subtrees ∧
      ∃ p q : "2 - derivative x y".Pos, p.offset.byteIdx = 4 ∧ q.offset.byteIdx = 18 ∧
        ∃ e', parseText ("2 - derivative x y".extract p q) = .ok e' ∧ e'.same n = true := by
  intro n e
  have h : parseText "2 - derivative x y" = .ok e := by decide +kernel
  have hn : n ∈ e.subtrees := by simp [e, n, subtrees]
  obtain ⟨⟨p, q, hp, hq, -, hread⟩, -⟩ := span_of_subtree h hn
  exact ⟨h, hn, p, q, hp, hq, hread⟩

end Formula
