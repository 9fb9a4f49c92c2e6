import ScanExpr.Matcher.Basic
import ScanExpr.Stream.Primitive

/-!
# `ScanExpr.Proofs.Stream.Primitive`: primitives on the characters left

A primitive sees nothing of a stream but the characters that are left to
read. `Reads View` says that `View` tells them: what can be peeked at is
the first of them, and stepping over it leaves the others.

`Primitive.remainder?` is what a primitive does to a list of characters,
in closed form: let `n` be the length of the longest run of accepted
characters at the front, and each shape consumes a number of characters
that is computed from `n`. `Reads.apply` says that a primitive does just
this to a stream that reads the list, and leaves the stream exactly where
it is when it does not match.
-/

set_option autoImplicit false

namespace ScanExpr

/-- The primitive as an operand that has nothing to report. -/
def Primitive.verdict {σ μ : Type} [CharStream σ μ] (p : Primitive) (s : σ) : Verdict σ Unit where
  matched := (p.apply s).1
  stream := (p.apply s).2
  report := ()

namespace Primitive

/-- How many characters there are at the front that are accepted. -/
def runLength (accept : Char → Bool) (cs : List Char) : Nat :=
  (cs.takeWhile accept).length

/-- The characters that a primitive leaves if it matches. -/
def remainder? : Primitive → List Char → Option (List Char)
  | .atEnd, cs => if cs.isEmpty then some cs else none
  | .consume accept shape, cs =>
    let n := runLength accept cs
    match shape with
    | .one => if 0 < n then some (cs.drop 1) else none
    | .zeroOrOne => some (cs.drop (Nat.min n 1))
    | .zeroOrMore => some (cs.drop n)
    | .oneOrMore => if 0 < n then some (cs.drop n) else none
    | .between min max =>
      let m := if max = 0 then n else Nat.min n max
      if max ≠ 0 ∧ max < min ∨ m < min then none else some (cs.drop m)

/-- What a primitive leaves is what comes after the characters that it has
consumed. -/
theorem exists_drop_of_remainder? {p : Primitive} {cs left : List Char}
    (h : p.remainder? cs = some left) : ∃ count, left = cs.drop count := by
  cases p with
  | atEnd =>
    have ⟨_, same⟩ := Option.ite_none_right_eq_some.1 h
    exact ⟨0, (Option.some.inj same).symm⟩
  | consume accept shape =>
    cases shape with
    | zeroOrOne | zeroOrMore => exact ⟨_, (Option.some.inj h).symm⟩
    | one | oneOrMore =>
      have ⟨_, dropped⟩ := Option.ite_none_right_eq_some.1 h
      exact ⟨_, (Option.some.inj dropped).symm⟩
    | between min max =>
      have ⟨_, dropped⟩ := Option.ite_none_left_eq_some.1 h
      exact ⟨_, (Option.some.inj dropped).symm⟩

/-- There is no run in front of the end. -/
theorem runLength_nil (accept : Char → Bool) : runLength accept [] = 0 := rfl

/-- A character that is accepted makes a run longer by one. -/
theorem runLength_cons_of_accept {accept : Char → Bool} {c : Char} (h : accept c = true)
    (cs : List Char) : runLength accept (c :: cs) = runLength accept cs + 1 := by
  rw [runLength, List.takeWhile_cons_of_pos h]
  rfl

/-- There is no run where the first character is not accepted. -/
theorem runLength_cons_of_not_accept {accept : Char → Bool} {c : Char} (h : accept c = false)
    (cs : List Char) : runLength accept (c :: cs) = 0 := by
  rw [runLength, List.takeWhile_cons_of_neg (Bool.eq_false_iff.1 h)]
  rfl

end Primitive

/-! ### Primitives that do not match -/

section

variable {σ μ : Type} [CharStream σ μ]

/-- A character that is not consumed is not stepped over. -/
theorem consumeOne_of_failed {accept : Char → Bool} {s : σ}
    (failed : (consumeOne accept s).1 = false) : (consumeOne accept s).2 = s := by
  rw [consumeOne] at failed ⊢
  split at failed
  · split at failed
    · cases failed
    · rename_i rejected
      rw [if_neg rejected]
  · rfl

/-- A run that moves the stream counts what it consumes. -/
theorem lt_consumeRun_or_eq (accept : Char → Bool) (max count : Nat) (s : σ) :
    count < (consumeRun accept max count s).1 ∨ consumeRun accept max count s = (count, s) := by
  -- Round by round; the count only grows in a round that steps.
  fun_induction consumeRun accept max count s with
  | case1 count s room c next accepted ih =>
    left
    rcases ih with more | stops
    · omega
    · rw [stops]
      exact Nat.lt_succ_self count
  | case2 count s room c next rejected => exact .inr rfl
  | case3 count s room next => exact .inr rfl
  | case4 count s full => exact .inr rfl

/-- A primitive that does not match leaves the stream where it is, whatever
can be read there. -/
theorem Primitive.stream_apply_of_failed [LawfulRewindable σ] {p : Primitive} {s : σ}
    (failed : (p.apply s).1 = false) : (p.apply s).2 = s := by
  cases p with
  | atEnd => rfl
  | consume accept shape =>
    cases shape with
    | one => exact consumeOne_of_failed failed
    | zeroOrOne | zeroOrMore => cases failed
    | oneOrMore =>
      rcases lt_consumeRun_or_eq accept 0 0 s with some_consumed | stops
      · exact absurd some_consumed (decide_eq_false_iff_not.1 failed)
      · rw [apply, stops]
    | between min max =>
      rw [apply, consumeBetween] at failed ⊢
      by_cases crossed : max ≠ 0 ∧ max < min
      · rw [if_pos crossed]
      · rw [if_neg crossed] at failed ⊢
        generalize consumeRun accept max 0 s = ran at failed ⊢
        obtain ⟨count, t⟩ := ran
        -- A run that is too short is taken back, and any other matches.
        by_cases short : count < min
        · simp only [short, if_true, LawfulRewindable.rewind_mark]
        · simp only [short, if_false] at failed
          cases failed

end

/-- `View` tells which characters a stream has left to read. -/
structure Reads {σ μ : Type} [CharStream σ μ] (View : σ → List Char → Prop) : Prop where
  peek : ∀ {s : σ} {cs : List Char}, View s cs → CharStream.peek s = cs.head?
  step : ∀ {s : σ} {c : Char} {cs : List Char}, View s (c :: cs) → View (CharStream.step s c) cs
  atEnd : ∀ {s : σ} {cs : List Char}, View s cs → CharStream.atEnd s = cs.isEmpty

namespace Reads

open Primitive

variable {σ μ : Type} [CharStream σ μ] {View : σ → List Char → Prop}

/-- Consuming one character takes one if the first is accepted. -/
theorem consumeOne (reads : Reads View) (accept : Char → Bool) {s : σ} {cs : List Char}
    (view : View s cs) :
    (0 < runLength accept cs ∧ ∃ t, ScanExpr.consumeOne accept s = (true, t) ∧ View t (cs.drop 1)) ∨
    (runLength accept cs = 0 ∧ ScanExpr.consumeOne accept s = (false, s)) := by
  have peeked := reads.peek view
  rw [ScanExpr.consumeOne, peeked]
  cases cs with
  | nil => exact .inr ⟨rfl, rfl⟩
  | cons c cs =>
    cases accepted : accept c with
    | true =>
      refine .inl ⟨?_, CharStream.step s c, ?_, reads.step view⟩
      · rw [runLength_cons_of_accept accepted]
        exact Nat.succ_pos _
      · simp only [List.head?_cons, accepted, if_true]
    | false =>
      refine .inr ⟨runLength_cons_of_not_accept accepted cs, ?_⟩
      simp only [List.head?_cons, accepted]
      rfl

/-- How many more characters a run takes that has taken `count` of at most
`max`, if `n` are accepted. A `max` of zero sets no limit. -/
def allowance (max count n : Nat) : Nat :=
  if max = 0 then n else min n (max - count)

/-- With a character more that is accepted, the run takes that one and then
what is allowed behind it. -/
theorem allowance_succ {max count : Nat} (h : max = 0 ∨ count < max) (n : Nat) :
    allowance max count (n + 1) = allowance max (count + 1) n + 1 := by
  rw [allowance, allowance]
  split <;> omega

/-- One round of a run. -/
theorem consumeRun_eq (accept : Char → Bool) (max count : Nat) (s : σ) :
    ScanExpr.consumeRun accept max count s
      = if max = 0 ∨ count < max then
          match CharStream.peek s with
          | some c =>
            if accept c then ScanExpr.consumeRun accept max (count + 1) (CharStream.step s c)
            else (count, s)
          | none => (count, s)
        else (count, s) := by
  rw [ScanExpr.consumeRun]
  split
  · split
    · rename_i c peeked
      rw [peeked]
    · rename_i peeked
      rw [peeked]
  · rfl

/-- A run that has taken `count` characters before takes `taken` more and
comes to a stream that reads the rest. If it takes none, the stream stays
as it is. -/
def RunTakes (View : σ → List Char → Prop) (run : Nat × σ) (count taken : Nat) (s : σ)
    (cs : List Char) : Prop :=
  ∃ t, run = (count + taken, t) ∧ View t (cs.drop taken) ∧ (taken = 0 → t = s)

/-- A run takes accepted characters up to its limit. -/
theorem consumeRun (reads : Reads View) (accept : Char → Bool) (max count : Nat) {s : σ}
    {cs : List Char} (view : View s cs) :
    RunTakes View (ScanExpr.consumeRun accept max count s) count
      (allowance max count (runLength accept cs)) s cs := by
  -- A run that may take nothing more stops where it is.
  have stops : ∀ {count : Nat} {s : σ} {cs : List Char}, View s cs →
      allowance max count (runLength accept cs) = 0 →
      ScanExpr.consumeRun accept max count s = (count, s) →
      RunTakes View (ScanExpr.consumeRun accept max count s) count
        (allowance max count (runLength accept cs)) s cs := by
    intro count s cs view nothing stays
    rw [nothing, stays]
    exact ⟨s, rfl, view, fun _ => rfl⟩
  -- Along the characters, with a count that grows while the allowance shrinks.
  induction cs generalizing s count with
  | nil =>
    apply stops view
    · simp [runLength_nil, allowance]
    · rw [consumeRun_eq, reads.peek view, List.head?_nil]
      exact ite_self _
  | cons c cs ih =>
    -- The run goes on as long as there is room and the next character is accepted.
    by_cases room : max = 0 ∨ count < max
    · cases accepted : accept c with
      | true =>
        obtain ⟨t, run, rest, _⟩ := ih (count + 1) (reads.step view)
        rw [runLength_cons_of_accept accepted, allowance_succ room, consumeRun_eq, if_pos room,
          reads.peek view]
        refine ⟨t, ?_, rest, fun nothing => nomatch nothing⟩
        simp only [List.head?_cons, accepted, if_true]
        rw [run, Nat.add_right_comm, Nat.add_assoc]
      | false =>
        apply stops view
        · simp [runLength_cons_of_not_accept accepted, allowance]
        · rw [consumeRun_eq, if_pos room, reads.peek view]
          simp only [List.head?_cons, accepted]
          rfl
    · apply stops view
      · rw [allowance]
        split <;> omega
      · rw [consumeRun_eq, if_neg room]

/-- A run from its beginning takes as many accepted characters as there
are, or as many as its limit allows. -/
theorem consumeRun_zero (reads : Reads View) (accept : Char → Bool) (max : Nat) {s : σ}
    {cs : List Char} (view : View s cs) :
    let n := runLength accept cs
    let m := if max = 0 then n else Nat.min n max
    ∃ t, ScanExpr.consumeRun accept max 0 s = (m, t) ∧ View t (cs.drop m) ∧ (m = 0 → t = s) := by
  obtain ⟨t, run, rest, stays⟩ := reads.consumeRun accept max 0 view
  rw [Nat.zero_add] at run
  exact ⟨t, run, rest, stays⟩

/-- A primitive leaves what its closed form says, or does not match and
leaves the stream where it is. -/
theorem apply (reads : Reads View) [LawfulRewindable σ] (p : Primitive) {s : σ} {cs : List Char}
    (view : View s cs) :
    (∃ rest t, p.remainder? cs = some rest ∧ p.apply s = (true, t) ∧ View t rest) ∨
    (p.remainder? cs = none ∧ p.apply s = (false, s)) := by
  cases p with
  | atEnd =>
    rw [remainder?, Primitive.apply, reads.atEnd view]
    cases cs with
    | nil => exact .inl ⟨_, s, rfl, rfl, view⟩
    | cons c cs => exact .inr ⟨rfl, rfl⟩
  | consume accept shape =>
    cases shape with
    | one =>
      rcases reads.consumeOne accept view with
        ⟨some_accepted, t, taken, rest⟩ | ⟨none_accepted, stays⟩
      · exact .inl ⟨_, t, if_pos some_accepted, taken, rest⟩
      · exact .inr ⟨if_neg (Nat.not_lt.2 (Nat.le_of_eq none_accepted)), stays⟩
    | zeroOrOne =>
      -- The optional shapes match in either case.
      left
      rcases reads.consumeOne accept view with
        ⟨some_accepted, t, taken, rest⟩ | ⟨none_accepted, stays⟩
      · have one : Nat.min (runLength accept cs) 1 = 1 := Nat.min_eq_right some_accepted
        refine ⟨_, t, rfl, ?_, ?_⟩
        · rw [Primitive.apply, taken]
        · rw [one]
          exact rest
      · refine ⟨_, s, rfl, ?_, ?_⟩
        · rw [Primitive.apply, stays]
        · rw [none_accepted]
          exact view
    | zeroOrMore =>
      obtain ⟨t, run, rest, _⟩ := reads.consumeRun_zero accept 0 view
      refine .inl ⟨_, t, rfl, ?_, rest⟩
      rw [Primitive.apply, run]
    | oneOrMore =>
      obtain ⟨t, run, rest, stays⟩ := reads.consumeRun_zero accept 0 view
      rw [remainder?, Primitive.apply, run]
      by_cases some_accepted : 0 < runLength accept cs
      · refine .inl ⟨_, t, if_pos some_accepted, ?_, rest⟩
        simp [some_accepted]
      · have none_accepted : runLength accept cs = 0 := by omega
        refine .inr ⟨if_neg some_accepted, ?_⟩
        -- Not even a failed run may move the stream, and one that took nothing has not.
        rw [stays none_accepted]
        simp [none_accepted]
    | between min max =>
      rw [remainder?, Primitive.apply, ScanExpr.consumeBetween]
      by_cases crossed : max ≠ 0 ∧ max < min
      · exact .inr ⟨if_pos (.inl crossed), if_pos crossed⟩
      · obtain ⟨t, run, rest, _⟩ := reads.consumeRun_zero accept max view
        rw [if_neg crossed, run]
        by_cases short : (if max = 0 then runLength accept cs else
            Nat.min (runLength accept cs) max) < min
        · -- Too short a run is taken back by the mark.
          refine .inr ⟨if_pos (.inr short), ?_⟩
          simp only [short, if_true, LawfulRewindable.rewind_mark]
        · refine .inl ⟨_, t, if_neg (not_or.2 ⟨crossed, short⟩), ?_, rest⟩
          simp only [short, if_false]

end Reads

end ScanExpr
