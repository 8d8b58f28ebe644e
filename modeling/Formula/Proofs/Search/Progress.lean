import Formula.Proofs.Search.Words

/-!
# `Formula.Proofs.Search.Progress` — matches that consume something

A search comes to an end at the place where it began only by a route that can be gone through without consuming
anything. The route of a pattern whose least length is known to be positive is not of that kind, so every match of it
ends further on, within the text.

## Contents
- `Route.skippable` — whether a route can be gone through without consuming anything.
- `Frontier.skips_of_explore_arrived` — what an arrival says about the routes that were explored.
- `Route.match?_reaches` — where a match ends.
- `Pattern.skippable_route` — a least length of one byte or more rules out the empty match.
-/

namespace Formula

/-- **Whether a route can be gone through without consuming anything**, where all its anchors hold. -/
def Route.skippable : Route → Bool
  | text cs => cs.isEmpty
  | literal _ cs => cs.isEmpty
  | set _ _ => false
  | anchor _ => true
  | follow a b => a.skippable && b.skippable
  | fork _ a b => a.skippable || b.skippable
  | loop _ _ _ => true

namespace Frontier

/-- Whether all routes of one of the lists can be skipped. -/
def skips (lists : List (List Route)) : Bool := lists.any (·.all Route.skippable)

/-- **An arrival without a step.** Exploring arrives only where all routes of a list can be skipped. -/
theorem skips_of_explore_arrived (p : Place) (bound : Nat) : ∀ (lists : List (List Route)) (f : Frontier),
    (explore p bound lists f).arrived = true → f.arrived = true ∨ skips lists = true := by
  induction bound with
  | zero => exact fun _ _ h => Or.inl h
  | succ bound ih =>
    intro lists f h
    -- one step: what is left to explore can be skipped only where the lists before it can
    have hstep {left : List (List Route)} {f' : Frontier} (h : (explore p bound left f').arrived = true)
        (hf : f'.arrived = f.arrived) (hleft : skips left = true → skips lists = true) :
        f.arrived = true ∨ skips lists = true :=
      (ih left f' h).imp (fun harrived => hf ▸ harrived) hleft
    cases lists with
    | nil => exact Or.inl h
    | cons todo others =>
      cases todo with
      | nil => exact Or.inr (by simp [skips])
      | cons r rest =>
        cases r with
        | text cs =>
          cases cs with
          | nil =>
            rw [explore] at h
            exact hstep h rfl (by simp [skips, Route.skippable])
          | cons c cs =>
            rw [explore] at h
            exact hstep h rfl (by simp +contextual [skips])
        | anchor a =>
          rw [explore] at h
          split at h
          · exact hstep h rfl (by simp [skips, Route.skippable])
          · exact hstep h rfl (by simp +contextual [skips])
        | follow a b =>
          rw [explore] at h
          exact hstep h rfl (by simp [skips, Route.skippable, and_assoc])
        | literal label cs =>
          rw [explore] at h
          split at h
          · exact hstep h rfl (by simp +contextual [skips])
          · exact hstep h rfl (by simp [skips, Route.skippable])
        | set label s =>
          rw [explore] at h
          split at h
          · exact hstep h rfl (by simp +contextual [skips])
          · exact hstep h rfl (by simp +contextual [skips])
        | fork label a b =>
          rw [explore] at h
          split at h
          · exact hstep h rfl (by simp +contextual [skips])
          · refine hstep h rfl ?_
            simp only [skips, List.any_cons, List.all_cons, Route.skippable, Bool.or_eq_true, Bool.and_eq_true]
            tauto
        | loop label round greedy =>
          rw [explore] at h
          split at h
          · exact hstep h rfl (by simp +contextual [skips])
          · refine hstep h rfl ?_
            cases greedy <;>
            · simp only [skips, if_true, if_false, Bool.false_eq_true, List.any_cons, List.all_cons, Route.skippable,
                Bool.or_eq_true, Bool.and_eq_true]
              tauto

end Frontier

namespace Route

/-- Threads lead to places further on, within the text. -/
theorem follows_reaches (bound : Nat) (cs : List Char) : ∀ {threads : List Thread} {p q : Place} {best : Option Place},
    p.rest = cs → follows bound threads p best cs = some q →
      best = some q ∨ ∃ n < cs.length, q = p.advance (n + 1) := by
  induction cs with
  | nil => exact fun _ h => Or.inl h
  | cons c cs ih =>
    intro threads p q best hp h
    rw [follows] at h
    split at h
    · exact Or.inl h
    · rcases ih rfl h with hbest | ⟨n, hn, rfl⟩
      · split at hbest
        · obtain rfl := Option.some.inj hbest
          exact Or.inr ⟨0, Nat.succ_pos _, by rw [Place.advance_succ hp, Place.advance]⟩
        · exact Or.inl hbest
      · exact Or.inr ⟨n + 1, Nat.succ_lt_succ hn, (Place.advance_succ hp (n + 1)).symm⟩

/-- **Where a match ends**: further on within the text, or where it began if the route can be skipped. -/
theorem match?_reaches {r : Route} {p q : Place} (h : r.match? p = some q) :
    (r.skippable = true ∧ q = p) ∨ ∃ n < p.rest.length, q = p.advance (n + 1) := by
  refine (follows_reaches r.bound p.rest rfl h).imp (fun hbest => ?_) id
  split at hbest
  · next harrived =>
    have hskips := (Frontier.skips_of_explore_arrived p r.bound [[r]] .start harrived).resolve_left Bool.false_ne_true
    exact ⟨by simpa [Frontier.skips] using hskips, (Option.some.inj hbest).symm⟩
  · cases hbest

/-- Copies of a round can be skipped only if each of them and the rest can. -/
theorem skippable_copies {round rest : Nat → Route × Nat} {count : Nat}
    (h : (∀ n, (rest n).1.skippable = false) ∨ count ≠ 0 ∧ ∀ n, (round n).1.skippable = false) :
    ∀ n, (copies round count rest n).1.skippable = false := by
  induction count with
  | zero => exact h.resolve_right (fun hz => hz.1 rfl)
  | succ count ih =>
    intro n
    change ((round n).1.skippable && (copies round count rest (round n).2).1.skippable) = false
    rcases h with hrest | ⟨-, hround⟩
    · rw [ih (Or.inl hrest), Bool.and_false]
    · rw [hround, Bool.false_and]

end Route

namespace Pattern

/-- The size of a text that is not empty is not zero. -/
theorem isEmpty_eq_false_of_size {text : List Char} (h : 0 < (text.map Char.utf8Size).foldr (· + ·) 0) :
    text.isEmpty = false := by
  cases text with
  | nil => cases h
  | cons c cs => rfl

/-- The route of a pattern that takes up one byte or more cannot be skipped. -/
theorem skippable_routeFrom (pattern : Pattern) : ∀ {k : Nat}, pattern.leastLength? = some k → 0 < k →
    ∀ n, (pattern.routeFrom n).1.skippable = false := by
  induction pattern with
  | empty =>
    rintro k ⟨⟩ hk
    cases hk
  | literal text =>
    rintro k ⟨⟩ hk n
    exact isEmpty_eq_false_of_size hk
  | set s => exact fun _ _ _ => rfl
  | anchor a =>
    rintro k ⟨⟩ hk
    cases hk
  | group i p ih => exact ih
  | sequence a b iha ihb =>
    intro k h hk n
    obtain ⟨x, hx, y, hy, heq⟩ : ∃ x, a.leastLength? = some x ∧ ∃ y, b.leastLength? = some y ∧ x + y = k := by
      simpa [leastLength?, Option.bind_eq_some_iff] using h
    change ((a.routeFrom n).1.skippable && (b.routeFrom (a.routeFrom n).2).1.skippable) = false
    by_cases hxpos : 0 < x
    · rw [iha hx hxpos, Bool.false_and]
    · rw [ihb hy (by omega), Bool.and_false]
  | choice a b iha ihb =>
    intro k h hk n
    obtain ⟨x, hx, y, hy, heq⟩ : ∃ x, a.leastLength? = some x ∧ ∃ y, b.leastLength? = some y ∧ min x y = k := by
      simpa [leastLength?, Option.bind_eq_some_iff] using h
    change ((a.routeFrom (n + 1)).1.skippable || (b.routeFrom (a.routeFrom (n + 1)).2).1.skippable) = false
    rw [iha hx (by omega), ihb hy (by omega), Bool.or_false]
  | rounds p least most greedy ih =>
    intro k h hk n
    obtain ⟨x, hx, heq⟩ : ∃ x, p.leastLength? = some x ∧ least * x = k := by
      simpa [leastLength?, Option.bind_eq_some_iff] using h
    -- one round at least is asked for, and it takes up something
    have hpos : 0 < least ∧ 0 < x := CanonicallyOrderedAdd.mul_pos.mp (heq ▸ hk)
    have hround := ih hx hpos.2
    obtain ⟨least, rfl⟩ := Nat.exists_eq_succ_of_ne_zero (Nat.ne_of_gt hpos.1)
    cases most with
    | none =>
      refine Route.skippable_copies (Or.inl fun m => ?_) n
      change ((p.routeFrom (m + 1)).1.skippable && true) = false
      rw [hround, Bool.false_and]
    | some most => exact Route.skippable_copies (Or.inr ⟨Nat.succ_ne_zero least, hround⟩) n

/-- **A pattern whose least length is not zero has no empty match.** -/
theorem skippable_route {pattern : Pattern} {k : Nat} (h : pattern.leastLength? = some k) (hk : 0 < k) :
    pattern.route.skippable = false :=
  pattern.skippable_routeFrom h hk 0

end Pattern

end Formula
