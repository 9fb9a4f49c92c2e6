import ScanExpr.Proofs.Phrase.Evaluate

/-!
# `ScanExpr.Proofs.Phrase.Plain`: an evaluation that skips nothing

`Phrase.plain` is the value that a phrase has on paper. It knows nothing
of streams and never skips: every operand has a fixed outcome, every group
is evaluated, and each outcome is joined to the running result by the
connective before it.

`Call.reply_result_eq_plain` says that a matcher, which skips what cannot
matter, answers with that value, as long as each operand that it does run
has its fixed outcome.

The two do not agree everywhere on the way. A group that is skipped is
false for the matcher until it is closed, whatever its value on paper. But
it is skipped because the level around it does not depend on it
(`Level.Coherent.result_fold_eq_combine`), so the proof follows the levels
that are not skipped and leaves out what is inside the others.
-/

set_option autoImplicit false

namespace ScanExpr

namespace Phrase

variable {σ μ ρ ο : Type}

/-- The value of the rest of a level, from the connective that waits and
the running result, if no operand and no group is skipped. -/
def plain (outcome : ο → Bool) : Phrase ο → Option Connective → Bool → Bool
  | .done, _, running => running
  | .connective c rest, _, running => rest.plain outcome (some c) running
  | .operand op rest, pending, running =>
    rest.plain outcome none (Connective.combine pending running (outcome op))
  | .group body q rest, pending, running =>
    -- A group is a level of its own: it starts with the result false and no connective.
    let inner := q.outcome (body.plain outcome none false)
    rest.plain outcome none (Connective.combine pending running inner)

variable [Rewindable σ μ] {eval : ο → σ → Verdict σ ρ} {outcome : ο → Bool}

/-- Where operands are not all skipped, the walk through a phrase ends with
its value on paper, if the operands that are run have their outcomes. -/
theorem result_walk_eq_plain (p : Phrase ο) {l : Level μ} (coherent : l.Coherent)
    (none_skipped : l.skipsAll = false) (s : σ)
    (returned : ∀ ran ∈ (p.walk eval l s).invoked, (eval ran.1 ran.2).matched = outcome ran.1) :
    (p.walk eval l s).level.result = p.plain outcome l.pending l.result := by
  -- Over the phrase, along the levels in which not everything is skipped.
  induction p generalizing l s with
  | done => rfl
  | connective c rest ih => exact ih (l.coherent_setPending (some c)) none_skipped s returned
  | operand op rest ih =>
    rw [plain, ← coherent.result_fold_eq_combine none_skipped (outcome op)]
    by_cases next : l.skipsNext = true
    · -- The level takes no notice of what a skipped operand is said to have done.
      rw [walk_operand_of_skipsNext next, Level.fold_of_skipsNext next false (outcome op)]
        at returned ⊢
      exact ih (l.coherent_fold _) none_skipped s returned
    · rw [Bool.not_eq_true] at next
      rw [walk_operand_of_runs next] at returned ⊢
      have first : (eval op s).matched = outcome op := returned (op, s) List.mem_cons_self
      rw [first] at returned ⊢
      exact ih (l.coherent_fold _) none_skipped _ fun ran h =>
        returned ran (List.mem_cons_of_mem _ h)
  | group body q rest ihBody ihRest =>
    rw [plain, ← coherent.result_fold_eq_combine none_skipped]
    -- For a group that runs the values agree inside, and for one that is skipped they need not.
    have same_fold : l.fold (q.outcome
          (body.walk eval (.opened (mark s) l.skipsChild) s).level.result)
        = l.fold (q.outcome (body.plain outcome none false)) := by
      by_cases next : l.skipsNext = true
      · exact Level.fold_of_skipsNext next _ _
      · have runs : l.skipsChild = false := by
          rw [coherent.skipsChild_eq, Bool.eq_false_iff]
          exact next
        have agree := ihBody (Level.coherent_opened (mark s) l.skipsChild) runs s fun ran h =>
          returned ran (List.mem_append_left _ h)
        rw [agree]
        rfl
    rw [← same_fold]
    exact ihRest (l.coherent_fold _) none_skipped _ fun ran h =>
      returned ran (List.mem_append_right _ h)

end Phrase

namespace Call

variable {σ μ ρ ο : Type} [Rewindable σ μ]

/-- Skipping never changes a value. Calls that a matcher accepts from the
start of an expression to its result spell a phrase, and the matcher
answers with the value of the phrase on paper. Each operand is given an
outcome, also those that are skipped. One that is run has to come to the
outcome that it was given; operands may be as many as there are places for
them, so each of them can be given its own. -/
theorem reply_result_eq_plain (eval : ο → σ → Verdict σ ρ) (outcome : ο → Bool) (s : σ)
    (calls : List (Call ο)) (inner : ∀ call ∈ calls, call.isAnchor = false)
    (accepted : Accepted eval (.start s) (calls ++ [.result]))
    (returned : ∀ ran ∈ invocations eval (.start s) calls,
      (eval ran.1 ran.2).matched = outcome ran.1) :
    ∃ p : Phrase ο, Phrase.ofCalls? calls = some p ∧ p.calls = calls.flatMap Call.expand ∧
      (runAll eval (.start s) (calls ++ [.result])).getLast?.map Outcome.reply
        = some (.concluded (p.plain outcome none false)) := by
  obtain ⟨p, read, _, walked, invoked⟩ := Phrase.exists_walked_of_accepted inner accepted
  rw [invoked] at returned
  have value : (p.walk eval (Level.outermost (mark s)) s).level.result
      = p.plain outcome none false :=
    p.result_walk_eq_plain (Level.coherent_opened (mark s) false) rfl s returned
  refine ⟨p, read, Phrase.calls_of_ofCalls? read, ?_⟩
  rw [accepted.getLast?_runAll_result, walked, ← value]
  rfl

/-- A group that is skipped after an `and`, and would match, with an empty
group in it; then a group that counts for a match and is run; and two
connectives that are not needed. -/
def unneeded : List (Call (Bool × Nat)) :=
  [.attempt (false, 1), .connectEnter .and, .attempt (true, 2), .enterGroup,
    .leaveGroup .optional, .leaveGroup .required, .connect .or, .enterGroup,
    .attempt (false, 3), .connect .or, .connectEnter .and, .attempt (true, 0),
    .leaveGroup .required, .leaveGroup .optional, .connect .and, .attempt (true, 2),
    .connect .or]

/-- Only three of the five operands are run. On paper all of them are, and
the value is the same. -/
theorem reply_result_eq_plain_unneeded :
    (∀ call ∈ unneeded, call.isAnchor = false) ∧
    Accepted (Tape.leap #['a', 'b', 'c']) (.start (.clamped _ 0)) (unneeded ++ [.result]) ∧
    invocations (Tape.leap #['a', 'b', 'c']) (.start (.clamped _ 0)) unneeded
      = [((false, 1), .clamped _ 0), ((false, 3), .clamped _ 1), ((true, 2), .clamped _ 1)] ∧
    (runAll (Tape.leap #['a', 'b', 'c']) (.start (.clamped _ 0))
        (unneeded ++ [.result])).getLast?.map Outcome.reply = some (.concluded true) := by
  have inner : ∀ call ∈ unneeded, call.isAnchor = false := by decide
  have accepted : Accepted (Tape.leap #['a', 'b', 'c']) (.start (.clamped _ 0))
      (unneeded ++ [.result]) := by decide
  have returned : ∀ ran ∈ invocations (Tape.leap #['a', 'b', 'c']) (.start (.clamped _ 0)) unneeded,
      (Tape.leap _ ran.1 ran.2).matched = ran.1.1 := fun ran _ => rfl
  have value : ∀ p ∈ Phrase.ofCalls? unneeded, p.plain Prod.fst none false = true := by
    intro p read
    cases read
    rfl
  obtain ⟨p, read, _, answered⟩ :=
    reply_result_eq_plain (Tape.leap _) Prod.fst (.clamped _ 0) unneeded inner accepted returned
  rw [value p read] at answered
  exact ⟨inner, accepted, rfl, answered⟩

end Call

end ScanExpr
