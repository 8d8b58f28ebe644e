import Formula.Proofs.Expr.Written
import Formula.Proofs.Simplify.Recursion

/-!
# `Formula.Proofs.Expr.Simplified` — simplified trees

A tree over the constructs of the input language has a simplified form over them too.

## Contents
- `writable_of_derives`, `writable_simplify` — differentiating and simplifying bring in no other constructs.
-/

namespace Formula.Expr

variable {ν : Type} [Arithmetic ν]

/-- Differentiating brings in no other constructs. -/
theorem writable_of_derives {e d : Expr ν} {x : String} (h : Derives e x d) (he : Writable (fun _ => True) e) :
    Writable (fun _ => True) d := by
  induction h with
  | paren s h ih | negation s h ih => exact ih he
  | sum s hop hl hr ihl ihr => exact ⟨ihl he.1, ihr he.2⟩
  | product s hop hl hr ihl ihr => exact ⟨⟨ihl he.1, he.2⟩, he.1, ihr he.2⟩
  | quotient s hl hr ihl ihr => exact ⟨⟨⟨ihl he.1, he.2⟩, he.1, ihr he.2⟩, he.2, trivial⟩
  | derivative s inner outer ihinner ihouter => exact ihouter (ihinner he.1)
  | _ => trivial

/-- Simplifying by the rules brings in none either. -/
theorem writable_of_simplifies {e e' : Expr ν} (h : Simplifies e e') (he : Writable (fun _ => True) e) :
    Writable (fun _ => True) e' := by
  induction h with
  | paren s h ih => exact ih he
  | binary s op hl hr ihl ihr =>
    have hwl := ihl he.1
    have hwr := ihr he.2
    exact simplifyBinary_of (P := Writable (fun _ => True)) (fun _ => trivial) ⟨hwl, hwr⟩ hwl hwr
  | unary s op h ih => exact simplifyUnary_of (P := Writable (fun _ => True)) (fun _ => trivial) (ih he)
  | carried s h hd hd' ihe ihd => exact ihd (writable_of_derives hd (ihe he.1))
  | kept s h hu ih => exact ⟨ih he.1, he.2⟩
  | integral s hi hx ihi ihx => cases he
  | definiteIntegral s hi hx ha hb ihi ihx iha ihb => cases he
  | _ => exact he

/-- **Simplifying brings in no other constructs.** -/
theorem writable_simplify {e : Expr ν} (h : Writable (fun _ => True) e) : Writable (fun _ => True) e.simplify :=
  writable_of_simplifies (simplifies_simplify e) h

end Formula.Expr
