import ScanExpr.Proofs.Matcher.Reached
import ScanExpr.Proofs.Phrase.Evaluate

/-!
# `ScanExpr.Proofs.Phrase.Nested`: a group and a matcher of its own

A part of an expression can be written as a group, or as an operand that
makes the same calls on a matcher of its own over the same stream. In a
group that is skipped every call is made and leads to nothing. The operand
is not run at all when it is skipped, and otherwise begins from scratch,
with no levels around it.

`Call.nested` is the operand. `Call.after_group_eq_attempt_nested` is the
main result: in every state that the use of a matcher leads to, the group
and the operand lead to the same state and run the same operands on the
same streams.

Both sides come down to the walk through one phrase. What the operand
walks is a level that does not skip, and so is what the group walks
wherever it is not skipped, because the level around it is coherent
(`Reached.coherent`).
-/

set_option autoImplicit false

namespace ScanExpr

variable {σ μ ρ ο : Type}

/-- Whether the reply is the result of an expression that matches. -/
def Reply.isMatch : Reply ρ → Bool
  | .concluded matched => matched
  | _ => false

/-- Which outcome a skipped operand is said to have does not matter. -/
theorem Matcher.fold_of_skipsNext (m : Matcher σ μ) (next : m.current.skipsNext = true)
    (x y : Bool) : m.fold x = m.fold y := by
  rw [fold, fold, Level.fold_of_skipsNext next x y]

variable [Rewindable σ μ]

/-- Calls that some matcher accepts as one expression spell a phrase that
makes sense at the start of a level and has an operand. -/
theorem Phrase.exists_spelled_of_accepted {eval : ο → σ → Verdict σ ρ} {calls : List (Call ο)}
    {t : σ} (inner : ∀ call ∈ calls, call.isAnchor = false)
    (accepted : Call.Accepted eval (.start t) (calls ++ [.result])) :
    ∃ p : Phrase ο, p.calls = calls.flatMap Call.expand ∧ p.legal false = true ∧
      p.hasOperand = true := by
  obtain ⟨p, read, legal, walked, _⟩ := exists_walked_of_accepted inner accepted
  have ⟨_, last⟩ := Call.accepted_append.1 accepted
  rw [walked, Call.accepted_cons, Call.refusal?_result_eq_none_iff] at last
  obtain ⟨⟨hasOperand, _⟩, _⟩ := last
  exact ⟨p, calls_of_ofCalls? read, legal, hasOperand⟩

/-! ### The operand -/

namespace Call

/-- The operand that makes calls on a matcher of its own, asks for the
result, and counts for what a group with that result would. It reports
the operands that were run on the way. -/
def nested (eval : ο → σ → Verdict σ ρ) (q : Quantifier) (body : List (Call ο)) (s : σ) :
    Verdict σ (List (ο × σ)) :=
  let outcome := Call.result.run eval (after eval (.start s) body)
  { matched := q.outcome outcome.reply.isMatch
    stream := outcome.matcher.stream
    report := invocations eval (.start s) body }

end Call

/-- The stream after a level that began with a mark: the level takes it
back there if it has not matched. -/
def Course.back {ο σ μ : Type} [Rewindable σ μ] (w : Course ο σ μ) : σ :=
  if w.level.result then w.stream else rewind w.stream w.level.entry

namespace Phrase

variable {eval : ο → σ → Verdict σ ρ} {p : Phrase ο} {body : List (Call ο)}

/-- The operand does what the walk through the phrase does that its calls
spell. -/
theorem nested_eq_walk (eval : ο → σ → Verdict σ ρ) (spelled : p.calls = body.flatMap Call.expand)
    (legal : p.legal false = true) (hasOperand : p.hasOperand = true) (q : Quantifier) (s : σ) :
    Call.nested eval q body s
      = let w := p.walk eval (Level.outermost (mark s)) s
        ⟨q.outcome w.level.result, w.back, w.invoked⟩ := by
  -- The operand makes its calls on a new matcher, so it walks through an outermost level.
  have ⟨_, walked, invoked⟩ := after_spelled eval spelled (.start s) legal
  have sensible : (Call.result : Call ο).refusal? (p.walked eval (.start s)) = none :=
    Call.refusal?_result_eq_none_iff.2 ⟨hasOperand, rfl⟩
  rw [Call.nested, walked, invoked, Call.run_of_refusal?_eq_none sensible]
  rfl

/-- The matcher after a group whose body spells a phrase. -/
theorem after_group_spelled (eval : ο → σ → Verdict σ ρ)
    (spelled : p.calls = body.flatMap Call.expand) (legal : p.legal false = true)
    (m : Matcher σ μ) (q : Quantifier) :
    let w := p.walk eval (.opened (mark m.stream) m.current.skipsChild) m.stream
    Call.Accepted eval m (.enterGroup :: (body ++ [.leaveGroup q])) ∧
    Call.after eval m (.enterGroup :: (body ++ [.leaveGroup q]))
      = Matcher.fold { m with stream := w.back } (q.outcome w.level.result) ∧
    Call.invocations eval m (.enterGroup :: (body ++ [.leaveGroup q])) = w.invoked := by
  have ⟨accepted, walked, invoked⟩ := after_spelled eval spelled m.enterGroup legal
  have entered : (Call.enterGroup : Call ο).run eval m
      = ⟨.done, m.enterGroup, [m.enterGroup.openedEvent]⟩ := rfl
  -- Below the level of the body waits the level of the group, so the group can be closed.
  have closable : 0 < (p.walked eval m.enterGroup).depth := Nat.succ_pos _
  refine ⟨?_, ?_, ?_⟩
  · rw [Call.accepted_cons, entered, Call.accepted_append, walked, Call.accepted_cons]
    exact ⟨rfl, accepted, Call.refusal?_leaveGroup_eq_none_iff.2 closable, Call.accepted_nil _⟩
  · rw [Call.after_cons, entered, Call.after_append, walked, Call.after_cons,
      Call.run_leaveGroup closable]
    rfl
  · have silent : Call.invocations eval (p.walked eval m.enterGroup) [.leaveGroup q] = [] := rfl
    have opens : (Call.enterGroup : Call ο).invocation? eval m = none := rfl
    rw [Call.invocations_cons, opens, entered, Call.invocations_append, walked, silent, invoked,
      List.append_nil]
    rfl

end Phrase

/-! ### The group and the operand -/

/-- The walk through a phrase that is skipped fails in place and runs
nothing. -/
theorem Phrase.walk_idle [LawfulRewindable σ] (eval : ο → σ → Verdict σ ρ) (p : Phrase ο)
    (s : σ) :
    let w := p.walk eval (.opened (mark s) true) s
    w.level.result = false ∧ w.back = s ∧ w.invoked = [] := by
  have idle : (p.walk eval (.opened (mark s) true) s).valuation = ⟨false, s, []⟩ :=
    p.valuation_walk_of_skipsAll (Level.coherent_opened (mark s) true) rfl s
  have ⟨failed, _, invoked⟩ := Valuation.mk.inj idle
  refine ⟨failed, ?_, invoked⟩
  rw [Course.back, failed, entry_walk]
  exact LawfulRewindable.rewind_mark _ s

namespace Call

variable [LawfulRewindable σ]

/-- In every state that the use of a matcher leads to, a group and an
operand that makes the calls of its body on a matcher of its own come to
the same: the same stream, levels and notes, and the same operands run on
the same streams. The body is any sequence of calls that a matcher accepts
as one expression. -/
theorem after_group_eq_attempt_nested {ο' ρ' : Type} {eval' : ο' → σ → Verdict σ ρ'}
    {m : Matcher σ μ} {j : Journal σ} {phase : Option Phase} (reached : Reached eval' m j phase)
    (eval : ο → σ → Verdict σ ρ) {body : List (Call ο)} {t : σ}
    (inner : ∀ call ∈ body, call.isAnchor = false)
    (accepted : Accepted eval (.start t) (body ++ [.result])) (q : Quantifier) :
    Accepted eval m (.enterGroup :: (body ++ [.leaveGroup q])) ∧
    after eval m (.enterGroup :: (body ++ [.leaveGroup q]))
      = (m.attempt (nested eval q body)).1 ∧
    invocations eval m (.enterGroup :: (body ++ [.leaveGroup q]))
      = (m.attempt (nested eval q body)).2.getD [] := by
  obtain ⟨p, spelled, legal, hasOperand⟩ := Phrase.exists_spelled_of_accepted inner accepted
  obtain ⟨made, grouped, invoked⟩ := Phrase.after_group_spelled eval spelled legal m q
  refine ⟨made, ?_⟩
  rw [grouped, invoked, reached.coherent.skipsChild_eq, Matcher.attempt]
  cases next : m.current.skipsNext with
  | true =>
    -- The walk through a level that skips everything is idle and fails in place.
    obtain ⟨failed, back, invoked⟩ := p.walk_idle eval m.stream
    rw [failed, back, invoked, if_pos rfl]
    exact ⟨m.fold_of_skipsNext next _ _, rfl⟩
  | false =>
    -- The level of the group skips as little as an outermost one does.
    rw [Phrase.nested_eq_walk eval spelled legal hasOperand]
    exact ⟨rfl, rfl⟩

/-- A body in which an operand matches and a group after it does not. -/
def halfway : List (Call (Bool × Nat)) :=
  [.attempt (true, 3), .connectEnter .and, .attempt (false, 0), .leaveGroup .required]

/-- After an `or` on a false result, inside a group, both sides run the two
operands of the body from 2 on, and both go back to 2. -/
theorem after_group_eq_attempt_nested_halfway :
    ∃ (m : Matcher (Tape #['a', 'b', 'c']) Nat) (j : Journal (Tape #['a', 'b', 'c'])),
      Reached (Tape.leap _) m j none ∧ m.depth = 1 ∧ m.current.pending = some .or ∧
      (∀ call ∈ halfway, call.isAnchor = false) ∧
      Accepted (Tape.leap #['a', 'b', 'c']) (.start (.clamped _ 0)) (halfway ++ [.result]) ∧
      after (Tape.leap _) m (.enterGroup :: (halfway ++ [.leaveGroup .required]))
        = (m.attempt (nested (Tape.leap _) .required halfway)).1 ∧
      (m.attempt (nested (Tape.leap _) .required halfway)).1.stream.pos = 2 ∧
      invocations (Tape.leap _) m (.enterGroup :: (halfway ++ [.leaveGroup .required]))
        = [((true, 3), .clamped _ 2), ((false, 0), .clamped _ 3)] := by
  have start : Reached (Tape.leap #['a', 'b', 'c']) (.start (.clamped _ 0)) _ none := .new _
  have grouped := (start.call (.attempt (true, 1))).call (.connectEnter .and)
  have reached := (grouped.call (.attempt (false, 2))).call (.connect .or)
  have inner : ∀ call ∈ halfway, call.isAnchor = false := by decide
  have accepted : Accepted (Tape.leap #['a', 'b', 'c']) (.start (.clamped _ 0))
      (halfway ++ [.result]) := by decide
  have ⟨_, same, invoked⟩ :=
    after_group_eq_attempt_nested reached (Tape.leap _) inner accepted .required
  exact ⟨_, _, reached, rfl, rfl, inner, accepted, same, rfl, invoked⟩

end Call

end ScanExpr
