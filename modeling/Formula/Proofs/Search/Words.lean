import Mathlib
import Formula.Pattern.Search

/-!
# `Formula.Proofs.Search.Words` — searching for one of several words

The search keeps all threads under way at once. Where every thread has one word to go over, and no two of the
words share a label, it finds what trying the words one after the other would find: the first word that the
text begins with.

## Contents
- `Place.advance` — a place further on, and `Place.upTo_advance`, the characters in between.
- `Letter`, `Traces` — the word that a list of routes goes over.
- `Frontier.explore_traces`, `Frontier.foldl_passOn_traces` — one step of the search.
- `Route.follows_words` — the whole search.
-/

namespace Formula

/-! ## Places further on -/

/-- The place after so many characters, or the end of the text. -/
def Place.advance (p : Place) : Nat → Place
  | 0 => p
  | n + 1 =>
    match p.rest with
    | [] => p
    | c :: cs => (p.after c cs).advance n

theorem Place.advance_succ {p : Place} {c : Char} {cs : List Char} (h : p.rest = c :: cs) (n : Nat) :
    p.advance (n + 1) = (p.after c cs).advance n := by
  rw [Place.advance, h]

/-- Advancing moves the offset by the sizes of the characters that are passed. -/
theorem Place.offset_advance (n : Nat) :
    ∀ p : Place, (p.advance n).offset = p.offset + ((p.rest.take n).map Char.utf8Size).sum := by
  induction n with
  | zero => intro p; simp [Place.advance]
  | succ n ih =>
    intro p
    cases h : p.rest with
    | nil => simp [Place.advance, h]
    | cons c cs =>
      rw [Place.advance_succ h, ih]
      simp [Place.after, Nat.add_assoc]

/-- Characters taken by their size. -/
theorem Place.takeBytes_take (n : Nat) :
    ∀ cs : List Char, Place.takeBytes ((cs.take n).map Char.utf8Size).sum cs = cs.take n := by
  induction n with
  | zero => intro cs; cases cs <;> simp [Place.takeBytes]
  | succ n ih =>
    intro cs
    cases cs with
    | nil => simp [Place.takeBytes]
    | cons c cs =>
      have hc := Char.utf8Size_pos c
      obtain ⟨k, hk⟩ : ∃ k, c.utf8Size + ((cs.take n).map Char.utf8Size).sum = k + 1 :=
        ⟨c.utf8Size + ((cs.take n).map Char.utf8Size).sum - 1, by omega⟩
      simp only [List.take_succ_cons, List.map_cons, List.sum_cons, hk, Place.takeBytes]
      rw [show k + 1 - c.utf8Size = ((cs.take n).map Char.utf8Size).sum by omega, ih]

/-- The characters up to a place further on are those that were passed. -/
theorem Place.upTo_advance (p : Place) (n : Nat) : p.upTo (p.advance n) = p.rest.take n := by
  rw [Place.upTo, Place.offset_advance, Nat.add_sub_cancel_left, Place.takeBytes_take]

/-! ## Words -/

/-- A step of a word: the characters it may go over, and the label it is entered by, if it has one. -/
structure Letter where
  accepts : CharSet
  label : Option Nat

/-- The labels of a word. -/
def labels (w : List Letter) : List Nat := w.filterMap Letter.label

theorem mem_labels_cons {l : Letter} {w : List Letter} {n : Nat} (h : n ∈ labels w) : n ∈ labels (l :: w) := by
  rw [labels, List.mem_filterMap] at h ⊢
  obtain ⟨a, ha, hn⟩ := h
  exact ⟨a, List.mem_cons_of_mem l ha, hn⟩

/-- Whether a text begins with a word. -/
def beginsWith : List Letter → List Char → Bool
  | [], _ => true
  | _ :: _, [] => false
  | l :: w, c :: cs => l.accepts.has c && beginsWith w cs

/-- **A list of routes goes over one word** and nothing else. -/
inductive Traces : List Route → List Letter → Prop where
  | done : Traces [] []
  | textDone {rest w} : Traces rest w → Traces (.text [] :: rest) w
  | textChar {c cs rest w} : Traces (.text cs :: rest) w → Traces (.text (c :: cs) :: rest) (⟨.ofChars [c], none⟩ :: w)
  | set {label s rest w} : Traces rest w → Traces (.set label s :: rest) (⟨s, some label⟩ :: w)
  | follow {a b rest w} : Traces (a :: b :: rest) w → Traces (.follow a b :: rest) w

/-- The number of nodes in a list of routes. -/
def weight (rest : List Route) : Nat := (rest.map Route.size).sum

/-- A thread that goes over one word, and is short enough to be explored in so many steps. -/
def Thread.Traces (bound : Nat) (t : Thread) (w : List Letter) : Prop :=
  ∃ l w', w = l :: w' ∧ t.accepts = l.accepts ∧ Formula.Traces t.rest w' ∧ weight t.rest < bound

namespace Frontier

/-- The frontier after a letter has been met. -/
def meet (f : Frontier) (l : Letter) (rest : List Route) : Frontier :=
  (match l.label with
    | none => f
    | some n => f.enter n).add ⟨l.accepts, rest⟩

theorem meet_arrived (f : Frontier) (l : Letter) (rest : List Route) : (f.meet l rest).arrived = f.arrived := by
  unfold meet
  cases l.label <;> rfl

theorem meet_threads (f : Frontier) (l : Letter) (rest : List Route) :
    (f.meet l rest).threads = ⟨l.accepts, rest⟩ :: f.threads := by
  unfold meet
  cases l.label <;> rfl

/-- Meeting a letter enters its label and no other. -/
theorem seen_meet_eq_false {f : Frontier} {l : Letter} {rest : List Route} {n : Nat} (h : f.seen.testBit n = false)
    (hne : l.label ≠ some n) : (f.meet l rest).seen.testBit n = false := by
  unfold meet
  cases hl : l.label with
  | none => exact h
  | some m =>
    have hmn : m ≠ n := fun heq => hne (by rw [hl, heq])
    simp [add, enter, Nat.testBit_or, h, Nat.shiftLeft_eq, hmn]

/-- **Exploring one word.** At its end a match is found; before it, the next letter. -/
theorem explore_traces {rest : List Route} {w : List Letter} (h : Traces rest w) (p : Place) :
    ∀ (bound : Nat) (f : Frontier), weight rest < bound → (∀ n ∈ labels w, f.seen.testBit n = false) →
      (w = [] ∧ explore p bound [rest] f = { f with arrived := true }) ∨
      (∃ l w' rest', w = l :: w' ∧ Traces rest' w' ∧ weight rest' ≤ weight rest ∧
        explore p bound [rest] f = f.meet l rest') := by
  induction h with
  | done =>
    intro bound f hb _
    obtain ⟨b, rfl⟩ := Nat.exists_eq_succ_of_ne_zero (Nat.ne_of_gt (Nat.zero_lt_of_lt hb))
    exact Or.inl ⟨rfl, rfl⟩
  | @textDone rest w _ ih =>
    intro bound f hb hf
    obtain ⟨b, rfl⟩ := Nat.exists_eq_succ_of_ne_zero (Nat.ne_of_gt (Nat.zero_lt_of_lt hb))
    have hw : weight (.text [] :: rest) = 1 + weight rest := by simp [weight, Route.size]
    rcases ih b f (by omega) hf with ⟨hnil, he⟩ | ⟨l, w', rest', hcons, hs, hle, he⟩
    · exact Or.inl ⟨hnil, he⟩
    · exact Or.inr ⟨l, w', rest', hcons, hs, by omega, he⟩
  | @textChar c cs rest w hs _ =>
    intro bound f hb _
    obtain ⟨b, rfl⟩ := Nat.exists_eq_succ_of_ne_zero (Nat.ne_of_gt (Nat.zero_lt_of_lt hb))
    refine Or.inr ⟨_, w, .text cs :: rest, rfl, hs, ?_, ?_⟩
    · simp [weight, Route.size]
    · simp only [explore]
      cases b <;> rfl
  | @set label s rest w hs _ =>
    intro bound f hb hf
    obtain ⟨b, rfl⟩ := Nat.exists_eq_succ_of_ne_zero (Nat.ne_of_gt (Nat.zero_lt_of_lt hb))
    refine Or.inr ⟨_, w, rest, rfl, hs, ?_, ?_⟩
    · simp [weight]
    · have hnew : f.seen.testBit label = false := hf label (by simp [labels])
      simp only [explore, hnew]
      cases b <;> rfl
  | @follow a b rest w _ ih =>
    intro bound f hb hf
    obtain ⟨k, rfl⟩ := Nat.exists_eq_succ_of_ne_zero (Nat.ne_of_gt (Nat.zero_lt_of_lt hb))
    have hw : weight (.follow a b :: rest) = weight (a :: b :: rest) + 1 := by
      simp [weight, Route.size]
      omega
    rcases ih k f (by omega) hf with ⟨hnil, he⟩ | ⟨l, w', rest', hcons, hs, hle, he⟩
    · exact Or.inl ⟨hnil, he⟩
    · exact Or.inr ⟨l, w', rest', hcons, hs, by omega, he⟩

/-- What is left of the words that go on with a character. -/
def tails (c : Char) (words : List (List Letter)) : List (List Letter) :=
  words.filterMap fun w =>
    match w with
    | [] => none
    | l :: w => if l.accepts.has c then some w else none

/-- One thread's part in the step of the search from one place to the next. -/
def passOn (bound : Nat) (c : Char) (q : Place) (f : Frontier) (t : Thread) : Frontier :=
  if !f.arrived && t.accepts.has c then explore q bound [t.rest] f else f

/-- After an arrival nothing is added. -/
theorem foldl_passOn_of_arrived (bound : Nat) (c : Char) (q : Place) {f : Frontier} (h : f.arrived = true) :
    ∀ threads : List Thread, threads.foldl (passOn bound c q) f = f := by
  intro threads
  induction threads with
  | nil => rfl
  | cons t threads ih => rw [List.foldl_cons, passOn, h, Bool.not_true, Bool.false_and, if_neg (by simp), ih]

/-- A thread that does not go on with the character adds nothing. -/
theorem passOn_of_not_has {t : Thread} {c : Char} (h : t.accepts.has c = false) (bound : Nat) (q : Place) (f : Frontier) :
    passOn bound c q f t = f := by
  rw [passOn, h, Bool.and_false, if_neg (by simp)]

/-- A thread that goes on with the character comes to the end of its word, or becomes a thread of the rest of it
    and leaves the labels of all other words alone. -/
theorem passOn_traces {bound : Nat} {t : Thread} {l : Letter} {w : List Letter} (ht : t.Traces bound (l :: w)) {c : Char}
    (hc : l.accepts.has c = true) (q : Place) {f : Frontier} (ha : f.arrived = false)
    (hf : ∀ n ∈ labels w, f.seen.testBit n = false) :
    (w = [] ∧ passOn bound c q f t = { f with arrived := true }) ∨
    (w ≠ [] ∧ (passOn bound c q f t).arrived = false ∧
      (∃ t', t'.Traces bound w ∧ (passOn bound c q f t).threads = t' :: f.threads) ∧
      ∀ n ∉ labels w, f.seen.testBit n = false → (passOn bound c q f t).seen.testBit n = false) := by
  obtain ⟨_, _, heq, hacc, hs, hwt⟩ := ht
  obtain ⟨rfl, rfl⟩ := List.cons.inj heq
  have hpass : passOn bound c q f t = explore q bound [t.rest] f := by simp [passOn, ha, hacc, hc]
  rw [hpass]
  rcases explore_traces hs q bound f hwt hf with ⟨hnil, he⟩ | ⟨l', w', rest', rfl, hs', hle, he⟩
  · exact Or.inl ⟨hnil, he⟩
  · rw [he]
    refine Or.inr ⟨List.cons_ne_nil l' w', by rw [meet_arrived, ha], ?_, fun n hn hseen => ?_⟩
    · exact ⟨_, ⟨l', w', rfl, rfl, hs', Nat.lt_of_le_of_lt hle hwt⟩, meet_threads f l' rest'⟩
    · exact seen_meet_eq_false hseen fun hl => hn (by simp [labels, hl])

/-- **One step of the search.** The threads of the words that go on with the character are kept in their order,
    up to the first word that has come to its end. -/
theorem foldl_passOn_traces {bound : Nat} {threads : List Thread} {words : List (List Letter)}
    (h : List.Forall₂ (Thread.Traces bound) threads words) (c : Char) (q : Place) :
    ∀ (f : Frontier) (found : List (List Letter)), f.arrived = false →
      List.Forall₂ (Thread.Traces bound) f.threads.reverse found →
      (∀ n ∈ words.flatMap labels, f.seen.testBit n = false) → (words.flatMap labels).Nodup →
      (threads.foldl (passOn bound c q) f).arrived = (tails c words).any List.isEmpty ∧
      List.Forall₂ (Thread.Traces bound) (threads.foldl (passOn bound c q) f).threads.reverse
        (found ++ (tails c words).takeWhile (!·.isEmpty)) := by
  induction h with
  | nil =>
    intro f found ha hf _ _
    -- no thread is left: what has been found stands
    simpa [tails, ha] using hf
  | @cons t w threads words ht _ ih =>
    intro f found ha hf hseen hnd
    rw [List.flatMap_cons, List.nodup_append] at hnd
    obtain ⟨-, hnd', hdisj⟩ := hnd
    have hrest : ∀ n ∈ words.flatMap labels, f.seen.testBit n = false :=
      fun n hn => hseen n (by rw [List.flatMap_cons]; exact List.mem_append_right _ hn)
    obtain ⟨l, w', rfl, hacc, -⟩ := id ht
    rw [List.foldl_cons]
    by_cases hc : l.accepts.has c = true
    · have htails : tails c ((l :: w') :: words) = w' :: tails c words := by simp [tails, hc]
      have hnew : ∀ n ∈ labels w', f.seen.testBit n = false :=
        fun n hn => hseen n (by rw [List.flatMap_cons]; exact List.mem_append_left _ (mem_labels_cons hn))
      rw [htails]
      rcases passOn_traces ht hc q ha hnew with ⟨rfl, he⟩ | ⟨hne, harrived, ⟨t', ht', hthreads⟩, hold⟩
      · rw [he, foldl_passOn_of_arrived bound c q rfl]
        simpa using hf
      · -- the labels that the word enters are not labels of the words after it
        have hseen' : ∀ n ∈ words.flatMap labels, (passOn bound c q f t).seen.testBit n = false :=
          fun n hn => hold n (fun hw => hdisj n (mem_labels_cons hw) n hn rfl) (hrest n hn)
        have hthreads' : List.Forall₂ (Thread.Traces bound) (passOn bound c q f t).threads.reverse (found ++ [w']) := by
          rw [hthreads, List.reverse_cons]
          exact List.rel_append hf (.cons ht' .nil)
        have hempty : w'.isEmpty = false := by simpa using hne
        simpa [hempty, hne] using ih _ (found ++ [w']) harrived hthreads' hseen' hnd'
    · have htails : tails c ((l :: w') :: words) = tails c words := by simp [tails, hc]
      rw [passOn_of_not_has (by rw [hacc, Bool.eq_false_iff]; exact hc), htails]
      exact ih f found ha hf hrest hnd'

end Frontier

/-! ## The whole search -/

/-- The length of the first word that a text begins with. -/
def firstWord? (words : List (List Letter)) (cs : List Char) : Option Nat :=
  (words.find? (beginsWith · cs)).map List.length

/-- A character is met by the words that go on with it. -/
theorem firstWord?_cons {words : List (List Letter)} (h : ∀ w ∈ words, w ≠ []) (c : Char) (cs : List Char) :
    firstWord? words (c :: cs) = (firstWord? (Frontier.tails c words) cs).map (· + 1) := by
  induction words with
  | nil => rfl
  | cons w words ih =>
    have ih := ih fun v hv => h v (List.mem_cons_of_mem w hv)
    cases w with
    | nil => exact absurd rfl (h [] List.mem_cons_self)
    | cons l w =>
      by_cases hc : l.accepts.has c = true
      · have ht : Frontier.tails c ((l :: w) :: words) = w :: Frontier.tails c words := by simp [Frontier.tails, hc]
        rw [ht]
        unfold firstWord? at ih ⊢
        by_cases hb : beginsWith w cs = true
        · simp [beginsWith, hc, hb]
        · simpa [beginsWith, hc, hb] using ih
      · have ht : Frontier.tails c ((l :: w) :: words) = Frontier.tails c words := by simp [Frontier.tails, hc]
        rw [ht, ← ih]
        simp [firstWord?, beginsWith, hc]

/-- A word that has come to its end is the first of those after it. -/
theorem firstWord?_takeWhile (words : List (List Letter)) (cs : List Char) :
    firstWord? words cs =
      (firstWord? (words.takeWhile (!·.isEmpty)) cs).or (if words.any List.isEmpty then some 0 else none) := by
  induction words with
  | nil => rfl
  | cons w words ih =>
    cases w with
    | nil => simp [firstWord?, beginsWith]
    | cons l w =>
      unfold firstWord? at ih ⊢
      by_cases hb : beginsWith (l :: w) cs = true
      · simp [hb]
      · simpa only [List.find?_cons, hb, List.takeWhile_cons, List.isEmpty_cons, Bool.not_false, if_true, List.any_cons,
          Bool.false_or] using ih

theorem ne_nil_of_traces {bound : Nat} {threads : List Thread} {words : List (List Letter)}
    (h : List.Forall₂ (Thread.Traces bound) threads words) : ∀ w ∈ words, w ≠ [] := by
  induction h with
  | nil => simp
  | cons ht _ ih =>
    obtain ⟨l, w', rfl, -⟩ := ht
    simpa using ih

/-- The labels of what is left of some words are labels of the words. -/
theorem labels_tails_sublist (c : Char) (words : List (List Letter)) :
    ((Frontier.tails c words).flatMap labels).Sublist (words.flatMap labels) := by
  induction words with
  | nil => exact List.Sublist.refl _
  | cons w words ih =>
    rw [List.flatMap_cons]
    cases w with
    | nil => exact ih
    | cons l w =>
      by_cases hc : l.accepts.has c = true
      · have ht : Frontier.tails c ((l :: w) :: words) = w :: Frontier.tails c words := by simp [Frontier.tails, hc]
        rw [ht, List.flatMap_cons]
        exact ((List.sublist_cons_self l w).filterMap _).append ih
      · have ht : Frontier.tails c ((l :: w) :: words) = Frontier.tails c words := by simp [Frontier.tails, hc]
        rw [ht]
        exact ih.trans (List.sublist_append_right _ _)

/-- **Threads with one word each** end where the first of the words ends that the text begins with. -/
theorem Route.follows_words {bound : Nat} (cs : List Char) :
    ∀ {threads : List Thread} {words : List (List Letter)} {p : Place} (best : Option Place), p.rest = cs →
      List.Forall₂ (Thread.Traces bound) threads words → (words.flatMap labels).Nodup →
      Route.follows bound threads p best cs = ((firstWord? words cs).map p.advance).or best := by
  induction cs with
  | nil =>
    intro threads words p best _ h _
    have hnone : words.find? (beginsWith · []) = none := by
      rw [List.find?_eq_none]
      intro w hw
      cases w with
      | nil => exact absurd rfl (ne_nil_of_traces h [] hw)
      | cons l w => simp [beginsWith]
    simp [Route.follows, firstWord?, hnone]
  | cons c cs ih =>
    intro threads words p best hp h hnd
    cases h with
    | nil => simp [Route.follows, firstWord?]
    | @cons t w threads words ht hts =>
      have hall := List.Forall₂.cons ht hts
      have hstep := Frontier.foldl_passOn_traces hall c (p.after c cs) .start [] rfl .nil
        (fun n _ => by simp [Frontier.start]) hnd
      obtain ⟨harr, hthr⟩ := hstep
      rw [List.nil_append] at hthr
      have hnd' : (((Frontier.tails c (w :: words)).takeWhile (!·.isEmpty)).flatMap labels).Nodup :=
        ((List.takeWhile_sublist _).flatMap labels).nodup ((labels_tails_sublist c _).nodup hnd)
      -- words behind one that has come to its end are not looked at any more, but do not count either
      rw [firstWord?_cons (ne_nil_of_traces hall), firstWord?_takeWhile]
      show Route.follows bound (List.foldl (Frontier.passOn bound c (p.after c cs)) .start (t :: threads)).threads.reverse
        (p.after c cs) _ cs = _
      rw [ih _ rfl hthr hnd']
      change (Option.map _ _).or (if (List.foldl (Frontier.passOn bound c (p.after c cs)) .start (t :: threads)).arrived
        then some (p.after c cs) else best) = _
      rw [harr]
      cases hf : firstWord? ((Frontier.tails c (w :: words)).takeWhile (!·.isEmpty)) cs with
      | some n => simp [Place.advance_succ hp]
      | none =>
        cases hany : (Frontier.tails c (w :: words)).any List.isEmpty with
        | true => simp [Place.advance, hp]
        | false => simp

end Formula
