import ScanExpr.Proofs.Expr.Level
import ScanExpr.Proofs.Phrase.Basic

/-!
# `ScanExpr.Proofs.Phrase.Walk`: the matcher without its stack

While a matcher is handed a phrase, the levels around the current one wait
and play no part. `Phrase.walk` leaves them out: it takes a level and a
stream through a phrase, and where a group is opened it recurs.

`Phrase.after_calls` says that the matcher does just that, from any state
in which the phrase makes sense and with any stack below: the stack is the
same afterwards, and the level and the stream are those of the walk. When
the phrase makes sense does not depend on the stream or on what the
operands do (`Phrase.accepted_calls_iff`).
-/

set_option autoImplicit false

namespace ScanExpr

/-- How far the evaluation of a level has come: the level and the stream,
and the operands that have been run with the streams they were run on. -/
structure Course (ο σ μ : Type) where
  level : Level μ
  stream : σ
  invoked : List (ο × σ)

/-- The course with the operands put first that were run before it. -/
def Course.since {ο σ μ : Type} (w : Course ο σ μ) (earlier : List (ο × σ)) : Course ο σ μ :=
  { w with invoked := earlier ++ w.invoked }

namespace Phrase

variable {σ μ ρ ο : Type} [Rewindable σ μ]

/-- Takes a level and a stream through a phrase. -/
def walk (eval : ο → σ → Verdict σ ρ) : Phrase ο → Level μ → σ → Course ο σ μ
  | .done, l, s => ⟨l, s, []⟩
  | .operand op rest, l, s =>
    if l.skipsNext then rest.walk eval (l.fold false) s
    else
      (rest.walk eval (l.fold (eval op s).matched) (eval op s).stream).since [(op, s)]
  | .connective c rest, l, s => rest.walk eval (l.setPending (some c)) s
  | .group body q rest, l, s =>
    let inner := body.walk eval (.opened (mark s) l.skipsChild) s
    let back := if inner.level.result then inner.stream else rewind inner.stream inner.level.entry
    (rest.walk eval (l.fold (q.outcome inner.level.result)) back).since inner.invoked

variable {eval : ο → σ → Verdict σ ρ}

/-- The walk ends where nothing more is handed over. -/
@[simp]
theorem walk_done (l : Level μ) (s : σ) : done.walk eval l s = ⟨l, s, []⟩ := rfl

/-- An operand is skipped where the level has noted so. -/
theorem walk_operand_of_skipsNext {l : Level μ} (h : l.skipsNext = true) (op : ο)
    (rest : Phrase ο) (s : σ) :
    (operand op rest).walk eval l s = rest.walk eval (l.fold false) s :=
  if_pos h

/-- An operand that is not skipped is run, and its outcome is folded in. -/
theorem walk_operand_of_runs {l : Level μ} (h : l.skipsNext = false) (op : ο)
    (rest : Phrase ο) (s : σ) :
    (operand op rest).walk eval l s
      = (rest.walk eval (l.fold (eval op s).matched) (eval op s).stream).since [(op, s)] :=
  if_neg (Bool.eq_false_iff.1 h)

/-! ### The matcher walks -/

/-- The matcher after a phrase, as the walk through it tells: the levels
that wait are those that waited before. -/
def walked (eval : ο → σ → Verdict σ ρ) (p : Phrase ο) (m : Matcher σ μ) : Matcher σ μ where
  stream := (p.walk eval m.current m.stream).stream
  suspended := m.suspended
  current := (p.walk eval m.current m.stream).level
  attempted := m.attempted || p.hasOperand

/-- Handing a phrase to a matcher takes the current level through it and
leaves the stack as it was. -/
theorem after_calls (eval : ο → σ → Verdict σ ρ) (p : Phrase ο) (m : Matcher σ μ)
    (legal : p.legal m.current.attempted = true) :
    Call.after eval m p.calls = p.walked eval m ∧
    Call.invocations eval m p.calls = (p.walk eval m.current m.stream).invoked := by
  -- Over the phrase, from any matcher: the body of a group is handed to one with a level more.
  induction p generalizing m with
  | done =>
    obtain ⟨stream, suspended, current, attempted⟩ := m
    exact ⟨by simp [calls, walked, hasOperand], rfl⟩
  | operand op rest ih =>
    rw [calls, Call.after_cons, Call.invocations_cons]
    cases skipped : m.current.skipsNext with
    | true =>
      rw [Call.run_attempt_of_skipsNext skipped, Call.invocation?_attempt_of_skipsNext skipped]
      obtain ⟨after, invoked⟩ := ih (m.fold false) legal
      rw [after, invoked, walked, walked, walk_operand_of_skipsNext skipped]
      simp [Matcher.fold, hasOperand]
    | false =>
      rw [Call.run_attempt_of_runs skipped, Call.invocation?_attempt_of_runs skipped]
      obtain ⟨after, invoked⟩ := ih
        (Matcher.fold { m with stream := (eval op m.stream).stream } (eval op m.stream).matched)
        legal
      rw [after, invoked, walked, walked, walk_operand_of_runs skipped]
      simp [Matcher.fold, hasOperand, Course.since]
  | connective c rest ih =>
    obtain ⟨attempted, legal⟩ := Bool.and_eq_true_iff.1 legal
    rw [calls, Call.after_cons, Call.invocations_cons, Call.run_connect attempted]
    obtain ⟨after, invoked⟩ := ih (m.connect c) legal
    rw [after, invoked]
    exact ⟨rfl, rfl⟩
  | group body q rest ihBody ihRest =>
    obtain ⟨bodyLegal, restLegal⟩ := Bool.and_eq_true_iff.1 legal
    obtain ⟨afterBody, invokedBody⟩ := ihBody m.enterGroup bodyLegal
    -- Below the level of the body waits the level of the group, so the group can be closed.
    have closable : 0 < (body.walked eval m.enterGroup).depth := Nat.succ_pos _
    obtain ⟨afterRest, invokedRest⟩ := ihRest ((body.walked eval m.enterGroup).leaveGroup q) restLegal
    have entered : (Call.enterGroup : Call ο).run eval m
        = ⟨.done, m.enterGroup, [m.enterGroup.openedEvent]⟩ := rfl
    rw [calls, Call.after_cons, Call.invocations_cons, Call.after_append,
      Call.invocations_append, Call.after_cons, Call.invocations_cons, entered, afterBody,
      invokedBody, Call.run_leaveGroup closable, afterRest, invokedRest]
    refine ⟨?_, rfl⟩
    have attempted : (m.attempted || (group body q rest).hasOperand) = true := Bool.or_true _
    rw [walked.eq_def eval (group body q rest), attempted]
    rfl

/-- After a group the matcher reads on from where the group was closed. -/
theorem after_calls_group (eval : ο → σ → Verdict σ ρ) (body : Phrase ο) (q : Quantifier)
    (rest : Phrase ο) (m : Matcher σ μ) (bodyLegal : body.legal false = true) :
    Call.after eval m (group body q rest).calls
      = Call.after eval ((body.walked eval m.enterGroup).leaveGroup q) rest.calls := by
  have closable : 0 < (body.walked eval m.enterGroup).depth := Nat.succ_pos _
  have entered : ((Call.enterGroup : Call ο).run eval m).matcher = m.enterGroup := rfl
  rw [calls, Call.after_cons, Call.after_append, Call.after_cons, entered,
    (after_calls eval body m.enterGroup bodyLegal).1, Call.run_leaveGroup closable]

/-- The matcher accepts a phrase exactly if every connective of it comes
after an operand of its level. -/
theorem accepted_calls_iff (p : Phrase ο) (m : Matcher σ μ) :
    Call.Accepted eval m p.calls ↔ p.legal m.current.attempted = true := by
  -- Over the phrase. Where a call does not depend on the level, it is not refused.
  induction p generalizing m with
  | done => exact ⟨fun _ => rfl, fun _ => Call.accepted_nil m⟩
  | operand op rest ih =>
    rw [calls, Call.accepted_cons, ih, legal, Call.attempted_run_attempt]
    exact and_iff_right rfl
  | connective c rest ih =>
    -- Of the calls of a phrase this is the only one that may be refused.
    rw [calls, Call.accepted_cons, Call.refusal?_connect_eq_none_iff, legal, Bool.and_eq_true_iff]
    refine and_congr_right fun attempted => ?_
    rw [Call.run_connect attempted, ih]
    rfl
  | group body q rest ihBody ihRest =>
    rw [calls, Call.accepted_cons, Call.accepted_append, Call.accepted_cons, ihBody, legal,
      Bool.and_eq_true_iff]
    -- Opening the group is never refused, and closing it is not as long as it is open.
    refine (and_iff_right rfl).trans (and_congr_right fun bodyLegal => ?_)
    have closable : 0 < (body.walked eval m.enterGroup).depth := Nat.succ_pos _
    have entered : ((Call.enterGroup : Call ο).run eval m).matcher = m.enterGroup := rfl
    rw [entered, (after_calls eval body m.enterGroup bodyLegal).1, Call.run_leaveGroup closable,
      ihRest, Call.refusal?_leaveGroup_eq_none_iff]
    exact and_iff_right closable

/-- A phrase is accepted as a whole expression exactly if every connective
comes after an operand of its level and there is an operand at all. -/
theorem accepted_calls_result_iff (eval : ο → σ → Verdict σ ρ) (p : Phrase ο) (s : σ) :
    Call.Accepted eval (.start s) (p.calls ++ [.result])
      ↔ p.legal false = true ∧ p.hasOperand = true := by
  rw [Call.accepted_append, accepted_calls_iff]
  refine and_congr_right fun legal => ?_
  rw [(after_calls eval p (.start s) legal).1, Call.accepted_cons,
    Call.refusal?_result_eq_none_iff]
  constructor
  · rintro ⟨⟨attempted, _⟩, _⟩
    exact attempted
  · intro hasOperand
    exact ⟨⟨hasOperand, rfl⟩, Call.accepted_nil _⟩

/-- Calls that spell a phrase take the matcher through the phrase wherever
the phrase makes sense. -/
theorem after_spelled (eval : ο → σ → Verdict σ ρ) {p : Phrase ο} {calls : List (Call ο)}
    (spelled : p.calls = calls.flatMap Call.expand) (m : Matcher σ μ)
    (legal : p.legal m.current.attempted = true) :
    Call.Accepted eval m calls ∧ Call.after eval m calls = p.walked eval m ∧
      Call.invocations eval m calls = (p.walk eval m.current m.stream).invoked := by
  have expanded : Call.Accepted eval m p.calls := (p.accepted_calls_iff m).2 legal
  rw [spelled] at expanded
  have accepted := Call.accepted_of_accepted_expand expanded
  have ⟨_, sameAfter, sameInvoked⟩ := accepted.expand
  have ⟨after, invoked⟩ := p.after_calls eval m legal
  rw [spelled] at after invoked
  exact ⟨accepted, sameAfter.symm.trans after, sameInvoked.symm.trans invoked⟩

/-- Balanced calls spell a phrase, and the matcher walks through it. -/
theorem exists_walked_of_balanced {s : σ} {calls : List (Call ο)}
    (balanced : Call.Balanced eval s calls) :
    ∃ p, ofCalls? calls = some p ∧ p.legal false = true ∧
      Call.after eval (.start s) calls = p.walked eval (.start s) ∧
      Call.invocations eval (.start s) calls
        = (p.walk eval (Level.outermost (mark s)) s).invoked := by
  obtain ⟨p, read⟩ := exists_ofCalls?_of_balanced balanced
  have ⟨expanded, _⟩ := balanced.accepted.expand
  rw [← calls_of_ofCalls? read] at expanded
  have legal := (p.accepted_calls_iff (.start s)).1 expanded
  have ⟨_, walked, invoked⟩ := after_spelled eval (calls_of_ofCalls? read) (.start s) legal
  exact ⟨p, read, legal, walked, invoked⟩

/-- Calls that a matcher accepts as one expression spell a phrase, and the
matcher walks through it. -/
theorem exists_walked_of_accepted {s : σ} {calls : List (Call ο)}
    (inner : ∀ call ∈ calls, call.isAnchor = false)
    (accepted : Call.Accepted eval (.start s) (calls ++ [.result])) :
    ∃ p, ofCalls? calls = some p ∧ p.legal false = true ∧
      Call.after eval (.start s) calls = p.walked eval (.start s) ∧
      Call.invocations eval (.start s) calls
        = (p.walk eval (Level.outermost (mark s)) s).invoked :=
  exists_walked_of_balanced (accepted.balanced inner)

end Phrase

end ScanExpr
