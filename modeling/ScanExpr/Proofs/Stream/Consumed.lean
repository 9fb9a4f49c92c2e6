import Mathlib.Order.Bounds.Basic
import ScanExpr.CharClass.ByteSet
import ScanExpr.Proofs.Stream.Boundary

/-!
# `ScanExpr.Proofs.Stream.Consumed`: how much a primitive consumes

What a primitive does between two characters depends on one number, the
length `n` of the longest run of accepted characters that comes next.

* `Shape.taken?`: how many of its characters the shape consumes, if it
  matches such a run.
* `consumeRunWithin`: the loop of the repeating shapes with a limit on its
  rounds. `Reads.consumeRunWithin_eq_some` says that it ends within `n + 1`.
* `Cursor.apply_consumes`: a primitive on a cursor matches and consumes as
  `Shape.taken?` tells, and moves by the bytes of what it consumes.
-/

set_option autoImplicit false

namespace ScanExpr

/-- How many characters a primitive of the shape consumes if it matches,
where the longest run of accepted characters takes `n`. -/
def Shape.taken? (n : Nat) : Shape → Option Nat
  | .one => if 1 ≤ n then some 1 else none
  | .zeroOrOne => some (min n 1)
  | .zeroOrMore => some n
  | .oneOrMore => if 1 ≤ n then some n else none
  | .between low high =>
    if high ≠ 0 ∧ high < low then none
    else
      let m := if high = 0 then n else min n high
      if low ≤ m then some m else none

namespace Primitive

/-- The run of accepted characters at the front is the longest. -/
theorem isGreatest_runLength (accept : Char → Bool) (cs : List Char) :
    IsGreatest {m | m ≤ cs.length ∧ ∀ x ∈ cs.take m, accept x = true} (runLength accept cs) := by
  induction cs with
  | nil => exact ⟨⟨Nat.le_refl 0, fun x here => nomatch here⟩, fun m ⟨within, _⟩ => within⟩
  | cons c cs ih =>
    obtain ⟨⟨within, accepted⟩, longest⟩ := ih
    cases first : accept c with
    | true =>
      rw [runLength_cons_of_accept first]
      refine ⟨⟨Nat.succ_le_succ within, ?_⟩, ?_⟩
      · rw [List.take_succ_cons]
        exact List.forall_mem_cons.2 ⟨first, accepted⟩
      · rintro m ⟨within', accepted'⟩
        cases m with
        | zero => exact Nat.zero_le _
        | succ m =>
          rw [List.take_succ_cons] at accepted'
          exact Nat.succ_le_succ
            (longest ⟨Nat.le_of_succ_le_succ within', (List.forall_mem_cons.1 accepted').2⟩)
    | false =>
      -- No part of the front but the empty one is accepted.
      rw [runLength_cons_of_not_accept first]
      refine ⟨⟨Nat.zero_le _, fun x here => nomatch here⟩, ?_⟩
      rintro m ⟨_, accepted'⟩
      cases m with
      | zero => exact Nat.le_refl 0
      | succ m =>
        rw [List.take_succ_cons] at accepted'
        cases first.symm.trans (List.forall_mem_cons.1 accepted').1

/-- What a primitive leaves is what comes after the characters that it
takes. -/
theorem remainder?_consume (accept : Char → Bool) (shape : Shape) (cs : List Char) :
    (consume accept shape).remainder? cs = (shape.taken? (runLength accept cs)).map cs.drop := by
  cases shape with
  | zeroOrOne | zeroOrMore => rfl
  | one | oneOrMore =>
    rw [Shape.taken?, apply_ite (Option.map cs.drop)]
    rfl
  | between low high =>
    rw [remainder?, Shape.taken?]
    -- Bounds in the wrong order are told before anything is counted.
    by_cases crossed : high ≠ 0 ∧ high < low
    · rw [if_pos crossed]
      exact if_pos (.inl crossed)
    · rw [if_neg crossed]
      by_cases enough : low ≤ if high = 0 then runLength accept cs else
          min (runLength accept cs) high
      · simp only [if_pos enough]
        exact if_neg (not_or.2 ⟨crossed, Nat.not_lt.2 enough⟩)
      · simp only [if_neg enough]
        exact if_pos (.inr (Nat.not_le.1 enough))

end Primitive

/-! ### The rounds of a run -/

section

variable {σ μ : Type} [CharStream σ μ]

/-- The run of `consumeRun`, unless it takes more than `limit` rounds. -/
def consumeRunWithin (accept : Char → Bool) (max : Nat) : Nat → Nat → σ → Option (Nat × σ)
  | 0, _, _ => none
  | limit + 1, count, s =>
    if max = 0 ∨ count < max then
      match CharStream.peek s with
      | some c =>
        if accept c then consumeRunWithin accept max limit (count + 1) (CharStream.step s c)
        else some (count, s)
      | none => some (count, s)
    else some (count, s)

/-- A run ends in the round after the last accepted character, if not
before. -/
theorem Reads.consumeRunWithin_eq_some {View : σ → List Char → Prop} (reads : Reads View)
    (accept : Char → Bool) (max count : Nat) {s : σ} {cs : List Char} (view : View s cs)
    {limit : Nat} (enough : Primitive.runLength accept cs < limit) :
    consumeRunWithin accept max limit count s = some (ScanExpr.consumeRun accept max count s) := by
  -- Along what comes next, with a limit that stays above the length of the run.
  induction cs generalizing s count limit with
  | nil =>
    obtain ⟨limit, rfl⟩ := Nat.exists_eq_succ_of_ne_zero (Nat.ne_of_gt enough)
    rw [consumeRunWithin, consumeRun_eq, reads.peek view, List.head?_nil]
    split <;> rfl
  | cons c cs ih =>
    obtain ⟨limit, rfl⟩ := Nat.exists_eq_succ_of_ne_zero (Nat.ne_zero_of_lt enough)
    rw [consumeRunWithin, consumeRun_eq, reads.peek view, List.head?_cons]
    by_cases room : max = 0 ∨ count < max
    · rw [if_pos room, if_pos room]
      cases accepted : accept c with
      | true =>
        -- The run of the others is shorter by one, and so is the limit.
        rw [Primitive.runLength_cons_of_accept accepted] at enough
        simp only [accepted, if_true]
        exact ih (count + 1) (reads.step view) (Nat.lt_of_succ_lt_succ enough)
      | false => simp only [accepted, Bool.false_eq_true, if_false]
    · rw [if_neg room, if_neg room]

end

/-! ### A primitive on a cursor -/

namespace Cursor

variable {src : Source} {c : Cursor src} {rest : List Char}

/-- A primitive that consumes members of a class, or all others, looks for
the longest run of them. With `n` for its length, it matches and consumes as
its shape tells, or does not match and consumes nothing. To consume
characters is to move by their bytes. No run takes more than `n + 1`
rounds, whatever its limit. -/
theorem apply_consumes {κ : Type} [CharClass κ] (k : κ) (excluded : Bool) (shape : Shape)
    (stands : c.Precedes rest) :
    let p : Primitive := if excluded then .excluding k shape else .matching k shape
    let accept (x : Char) : Bool := CharClass.contains k x != excluded
    ∃ n, IsGreatest {m | m ≤ rest.length ∧ ∀ x ∈ rest.take m, accept x = true} n ∧
      (∃ d, p.apply c = ((shape.taken? n).isSome, d) ∧
        d.pos.toNat = c.pos.toNat + byteLength (rest.take ((shape.taken? n).getD 0)) ∧
        d.Precedes (rest.drop ((shape.taken? n).getD 0))) ∧
      ∀ max, consumeRunWithin accept max (n + 1) 0 c = some (consumeRun accept max 0 c) := by
  intro p accept
  have p_eq : p = .consume accept shape := by
    cases excluded with
    | false => simp only [p, accept, Primitive.matching, Bool.false_eq_true, if_false, Bool.bne_false]
    | true => simp only [p, accept, Primitive.excluding, if_true, Bool.bne_true]
  refine ⟨Primitive.runLength accept rest, Primitive.isGreatest_runLength accept rest, ?_, ?_⟩
  · rw [p_eq]
    have left := Primitive.remainder?_consume accept shape rest
    rcases reads_precedes.apply (.consume accept shape) stands with
      ⟨after, d, some_left, applied, there⟩ | ⟨none_left, applied⟩
    · obtain ⟨count, taken, rfl⟩ := Option.map_eq_some_iff.1 (left.symm.trans some_left)
      rw [taken]
      exact ⟨d, applied, stands.pos_of_drop there, there⟩
    · rw [Option.map_eq_none_iff.1 (left.symm.trans none_left)]
      exact ⟨c, applied, stands.pos_of_drop stands, stands⟩
  · intro max
    exact reads_precedes.consumeRunWithin_eq_some accept max 0 stands (Nat.lt_succ_self _)

/-- Behind the equals sign come two characters that are no digits, with two
and three bytes. Asked for at least one of them without a limit, a primitive
consumes both. Asked for three, it stays where it is. -/
theorem apply_consumes_two_wide :
    let src : Source := .ofString (.ofList ['=', 'λ', '€', '7', 'λ'])
    let digits := ByteSet.ofRange 48 57
    ∃ c : Cursor src, c.Precedes ['λ', '€', '7', 'λ'] ∧ c.pos = 1 ∧
      (∃ d, (Primitive.excluding digits (.between 1 0)).apply c = (true, d) ∧ d.pos.toNat = 6) ∧
      (∃ d, (Primitive.excluding digits (.between 3 5)).apply c = (false, d) ∧ d.pos.toNat = 1) := by
  intro src digits
  let c : Cursor src := ⟨1, by decide +kernel⟩
  have stands : c.Precedes ['λ', '€', '7', 'λ'] := ⟨['='], String.toList_ofList, rfl⟩
  -- The longest run is found by computation, and the theorem says that there is no other.
  have two : Primitive.runLength (fun x => CharClass.contains digits x != true)
      ['λ', '€', '7', 'λ'] = 2 := by decide +kernel
  refine ⟨c, stands, rfl, ?_, ?_⟩
  · obtain ⟨n, longest, ⟨d, applied, pos, _⟩, _⟩ := apply_consumes digits true (.between 1 0) stands
    obtain rfl : n = 2 := (longest.unique (Primitive.isGreatest_runLength _ _)).trans two
    exact ⟨d, applied, pos.trans (by decide +kernel)⟩
  · obtain ⟨n, longest, ⟨d, applied, pos, _⟩, _⟩ := apply_consumes digits true (.between 3 5) stands
    obtain rfl : n = 2 := (longest.unique (Primitive.isGreatest_runLength _ _)).trans two
    exact ⟨d, applied, pos.trans (by decide +kernel)⟩

end Cursor

end ScanExpr
