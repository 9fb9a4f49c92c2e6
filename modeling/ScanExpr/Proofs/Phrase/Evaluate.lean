import ScanExpr.Proofs.Phrase.Walk

/-!
# `ScanExpr.Proofs.Phrase.Evaluate`: the value of a phrase

`Phrase.evaluate` says what a phrase comes to, by recursion on the tree
and without levels, marks or notes about skipping. It carries the running
result and the stream, and the connective that was read last:

* a level starts with the result false and no connective;
* an operand or a group is skipped after `and` if the running result is
  false, and after `or` if it is true;
* otherwise it is evaluated, and its outcome becomes the running result;
* a group that did not match takes the stream back to where the group
  began, and counts for a match in any case if it is optional.

`Call.runAll_result_eq_evaluate` is the main result. Whatever calls a
matcher accepts from the start of an expression to its result, they spell
a phrase, and the matcher answers with the value of the phrase, leaves the
stream where the evaluation does, and has run the same operands on the
same streams in the same order.

The proof goes by the walk (`Phrase.after_calls`), which has levels but no
stack. What a level notes about its next operand is right as long as the
level is coherent, so the walk through a level that does not skip is an
evaluation (`valuation_walk`), and the walk through one that does is idle
(`valuation_walk_of_skipsAll`).
-/

set_option autoImplicit false

namespace ScanExpr

/-- What an evaluation comes to: the result, the stream after it, and the
operands that were run, in order, with the streams they were run on. -/
structure Valuation (ο σ : Type) where
  matched : Bool
  stream : σ
  invoked : List (ο × σ)

namespace Valuation

variable {ο σ : Type}

/-- The valuation with the operands put first that were run before it. -/
def since (v : Valuation ο σ) (earlier : List (ο × σ)) : Valuation ο σ :=
  { v with invoked := earlier ++ v.invoked }

/-- The valuation with the stream taken back to `s` if there was no
match. -/
def orBack (v : Valuation ο σ) (s : σ) : Valuation ο σ :=
  { v with stream := if v.matched then v.stream else s }

/-- Without a match the stream is taken back. -/
theorem stream_orBack_of_failed {v : Valuation ο σ} {s : σ} (failed : v.matched = false) :
    (v.orBack s).stream = s :=
  if_neg (Bool.eq_false_iff.1 failed)

end Valuation

namespace Phrase

variable {σ ρ ο : Type}

/-- Whether an operand is skipped after the connective that was read
last. -/
def skips (latest : Option Connective) (running : Bool) : Bool :=
  (latest == some .and && !running) || (latest == some .or && running)

/-- Evaluates the rest of a level. -/
def evaluate (eval : ο → σ → Verdict σ ρ) :
    Phrase ο → Option Connective → Bool → σ → Valuation ο σ
  | .done, _, running, s => ⟨running, s, []⟩
  | .connective c rest, _, running, s => rest.evaluate eval (some c) running s
  | .operand op rest, latest, running, s =>
    if skips latest running then rest.evaluate eval none running s
    else (rest.evaluate eval none (eval op s).matched (eval op s).stream).since [(op, s)]
  | .group body q rest, latest, running, s =>
    if skips latest running then rest.evaluate eval none running s
    else
      let inner := (body.evaluate eval none false s).orBack s
      (rest.evaluate eval none (inner.matched || q == .optional) inner.stream).since inner.invoked

/-- Evaluates a whole expression. -/
def verdict (eval : ο → σ → Verdict σ ρ) (p : Phrase ο) (s : σ) : Valuation ο σ :=
  (p.evaluate eval none false s).orBack s

/-- An operand is skipped after a connective that decides the result. -/
theorem skips_eq_decides (latest : Option Connective) (running : Bool) :
    skips latest running = Connective.decides latest running := by
  cases latest with
  | none => rfl
  | some c => cases c <;> cases running <;> rfl

/-- An optional group counts for a match in any case. -/
theorem outcome_eq_or_optional (q : Quantifier) (inner : Bool) :
    q.outcome inner = (inner || q == .optional) := by
  cases q with
  | required => exact (Bool.or_false inner).symm
  | optional => exact (Bool.or_true inner).symm

end Phrase

/-! ### What a walk comes to -/

/-- What the course comes to when the level ends there. -/
def Course.valuation {ο σ μ : Type} (w : Course ο σ μ) : Valuation ο σ where
  matched := w.level.result
  stream := w.stream
  invoked := w.invoked

namespace Phrase

variable {σ μ ρ ο : Type} [Rewindable σ μ] {eval : ο → σ → Verdict σ ρ}

/-- A level keeps the mark with which it was opened. -/
theorem entry_walk (p : Phrase ο) (l : Level μ) (s : σ) :
    (p.walk eval l s).level.entry = l.entry := by
  induction p generalizing l s with
  | done => rfl
  | operand op rest ih =>
    rw [walk]
    split
    · exact ih _ _
    · exact ih _ _
  | connective c rest ih => exact ih _ _
  | group body q rest _ ihRest => exact ihRest _ _

variable [LawfulRewindable σ]

/-- A group that did not match takes the stream back to where the group
was opened. -/
theorem walk_group (body : Phrase ο) (q : Quantifier) (rest : Phrase ο) (l : Level μ) (s : σ) :
    (group body q rest).walk eval l s
      = let inner := (body.walk eval (.opened (mark s) l.skipsChild) s).valuation.orBack s
        (rest.walk eval (l.fold (q.outcome inner.matched)) inner.stream).since inner.invoked := by
  rw [walk, entry_walk]
  show Course.since (walk _ rest _ (if _ then _ else rewind _ (mark s))) _ = _
  rw [LawfulRewindable.rewind_mark]
  rfl

/-- A group is skipped if its body, evaluated in a level that skips
everything, runs nothing and fails in place. -/
theorem walk_group_of_skipsNext {l : Level μ} (coherent : l.Coherent) (next : l.skipsNext = true)
    {body : Phrase ο} {s : σ}
    (idle : (body.walk eval (.opened (mark s) true) s).valuation = ⟨false, s, []⟩)
    (q : Quantifier) (rest : Phrase ο) :
    (group body q rest).walk eval l s = rest.walk eval (l.fold false) s := by
  rw [walk_group, coherent.skipsChild_eq, next, idle]
  show (walk eval rest (l.fold (q.outcome false)) s).since [] = _
  rw [Level.fold_of_skipsNext next _ false]
  rfl

/-- The walk through a level that skips everything runs nothing and moves
nothing. -/
theorem valuation_walk_of_skipsAll (p : Phrase ο) {l : Level μ} (coherent : l.Coherent)
    (all : l.skipsAll = true) (s : σ) : (p.walk eval l s).valuation = ⟨l.result, s, []⟩ := by
  -- Over the phrase, from any coherent level of this kind; a group in it is one again.
  induction p generalizing l s with
  | done => rfl
  | operand op rest ih =>
    -- Folding a skipped operand in lifts the skip only where the level does not skip all.
    have next := coherent.skipsNext_of_skipsAll all
    rw [walk_operand_of_skipsNext next, ih (l.coherent_fold false) all,
      Level.result_fold_of_skipsNext next]
  | connective c rest ih => exact ih (l.coherent_setPending (some c)) all s
  | group body q rest ihBody ihRest =>
    have next := coherent.skipsNext_of_skipsAll all
    have idle := ihBody (Level.coherent_opened (mark s) true) rfl s
    rw [walk_group_of_skipsNext coherent next idle, ihRest (l.coherent_fold false) all,
      Level.result_fold_of_skipsNext next]

/-- The walk through a coherent level that does not skip everything is an
evaluation, from the running result and the connective that waits. -/
theorem valuation_walk (p : Phrase ο) {l : Level μ} (coherent : l.Coherent)
    (none_skipped : l.skipsAll = false) (s : σ) :
    (p.walk eval l s).valuation = p.evaluate eval l.pending l.result s := by
  -- What the level has noted is what the evaluation finds out.
  have noted : ∀ {l : Level μ}, l.Coherent → l.skipsAll = false →
      l.skipsNext = skips l.pending l.result := by
    intro l coherent none_skipped
    rw [skips_eq_decides, coherent, none_skipped, Bool.false_or]
  induction p generalizing l s with
  | done => rfl
  | operand op rest ih =>
    rw [evaluate, ← noted coherent none_skipped]
    cases next : l.skipsNext with
    | true =>
      rw [walk_operand_of_skipsNext next, ih (l.coherent_fold false) none_skipped,
        Level.result_fold_of_skipsNext next]
      rfl
    | false =>
      rw [walk_operand_of_runs next]
      show ((walk eval rest _ _).valuation).since _ = _
      rw [ih (l.coherent_fold _) none_skipped, coherent.result_fold next]
      rfl
  | connective c rest ih => exact ih (l.coherent_setPending (some c)) none_skipped s
  | group body q rest ihBody ihRest =>
    rw [evaluate, ← noted coherent none_skipped]
    cases next : l.skipsNext with
    | true =>
      -- The matcher goes through the body of a skipped group, but in vain.
      have idle : (body.walk eval (.opened (mark s) true) s).valuation = ⟨false, s, []⟩ :=
        valuation_walk_of_skipsAll body (Level.coherent_opened (mark s) true) rfl s
      rw [walk_group_of_skipsNext coherent next idle, ihRest (l.coherent_fold false) none_skipped,
        Level.result_fold_of_skipsNext next]
      rfl
    | false =>
      rw [walk_group, coherent.skipsChild_eq, next,
        ihBody (Level.coherent_opened (mark s) false) rfl s]
      show ((walk eval rest _ _).valuation).since _ = _
      rw [ihRest (l.coherent_fold _) none_skipped, coherent.result_fold next,
        outcome_eq_or_optional]
      rfl

/-! ### The matcher evaluates -/

/-- The walk through a whole expression is an evaluation. -/
theorem valuation_walk_outermost (eval : ο → σ → Verdict σ ρ) (p : Phrase ο) (s : σ) :
    (p.walk eval (Level.outermost (mark s)) s).valuation = p.evaluate eval none false s :=
  valuation_walk p (Level.coherent_opened (mark s) false) rfl s

/-- The result that is asked for after a phrase is the value of the phrase,
and the stream is left where the evaluation leaves it. -/
theorem perform_result_walked (eval : ο → σ → Verdict σ ρ) (p : Phrase ο) (s : σ) :
    Call.result.perform eval (p.walked eval (.start s))
      = ⟨.concluded (p.verdict eval s).matched, .start (p.verdict eval s).stream,
          [.concluded (p.verdict eval s).matched]⟩ := by
  rw [Call.perform, Matcher.finish]
  show Outcome.mk _ (.start (if (walk eval p _ s).level.result then _
    else rewind _ (walk eval p (Level.outermost (mark s)) s).level.entry)) _ = _
  -- The outermost level goes back to the mark with which it was opened, and that is `s`.
  rw [entry_walk]
  show Outcome.mk _ (.start (if _ then _ else rewind _ (mark s))) _ = _
  rw [LawfulRewindable.rewind_mark, verdict, ← valuation_walk_outermost]
  rfl

/-- The last answer to a phrase and the call for its result. -/
theorem getLast?_runAll_calls_result (eval : ο → σ → Verdict σ ρ) (p : Phrase ο) (s : σ)
    (legal : p.legal false = true) (hasOperand : p.hasOperand = true) :
    (Call.runAll eval (.start s) (p.calls ++ [.result])).getLast?
      = some ⟨.concluded (p.verdict eval s).matched, .start (p.verdict eval s).stream,
          [.concluded (p.verdict eval s).matched]⟩ := by
  have accepted := (accepted_calls_result_iff eval p s).2 ⟨legal, hasOperand⟩
  rw [accepted.getLast?_runAll_result, (after_calls eval p (.start s) legal).1,
    perform_result_walked]

end Phrase

namespace Call

variable {σ μ ρ ο : Type} [Rewindable σ μ] [LawfulRewindable σ]

/-- A sequence of calls that a matcher accepts from the start of an
expression to its result spells a phrase. The matcher answers with the
value of the phrase, is left at the start of another expression where the
evaluation of the phrase leaves the stream, and has run the operands that
the evaluation runs. -/
theorem runAll_result_eq_evaluate (eval : ο → σ → Verdict σ ρ) (s : σ) (calls : List (Call ο))
    (inner : ∀ call ∈ calls, call.isAnchor = false)
    (accepted : Accepted eval (.start s) (calls ++ [.result])) :
    ∃ p : Phrase ο, Phrase.ofCalls? calls = some p ∧ p.calls = calls.flatMap Call.expand ∧
      (runAll eval (.start s) (calls ++ [.result])).getLast?
        = some ⟨.concluded (p.verdict eval s).matched, .start (p.verdict eval s).stream,
            [.concluded (p.verdict eval s).matched]⟩ ∧
      invocations eval (.start s) (calls ++ [.result]) = (p.verdict eval s).invoked := by
  obtain ⟨p, read, _, walked, invoked⟩ := Phrase.exists_walked_of_accepted inner accepted
  refine ⟨p, read, Phrase.calls_of_ofCalls? read, ?_, ?_⟩
  · rw [accepted.getLast?_runAll_result, walked, p.perform_result_walked eval s]
  · -- Asking for the result runs no operand.
    have silent : invocations eval (after eval (.start s) calls) [.result] = [] := rfl
    rw [invocations_append, silent, List.append_nil, invoked]
    exact congrArg Valuation.invoked (p.valuation_walk_outermost eval s)

/-- Calls that leave nothing out: repeated connectives and one before the
end of a group, an operand that is skipped, one that replaces the result,
and an empty group inside a skipped one. -/
def tangle : List (Call (Bool × Nat)) :=
  [.attempt (true, 1), .connect .or, .connect .and, .enterGroup, .attempt (false, 3),
    .connect .and, .attempt (true, 0), .connect .or, .leaveGroup .optional, .connectEnter .or,
    .attempt (true, 0), .enterGroup, .leaveGroup .required, .leaveGroup .required,
    .attempt (false, 2), .connect .or, .attempt (true, 3)]

/-- The operand that fails in the group is taken back, so the one that
replaces the result is run at 1. -/
theorem runAll_result_tangle :
    (∀ call ∈ tangle, call.isAnchor = false) ∧
    Accepted (Tape.leap #['a', 'b', 'c']) (.start (.clamped _ 0)) (tangle ++ [.result]) ∧
    (runAll (Tape.leap #['a', 'b', 'c']) (.start (.clamped _ 0)) (tangle ++ [.result])).getLast?
      = some ⟨.concluded true, .start (.clamped _ 3), [.concluded true]⟩ ∧
    invocations (Tape.leap #['a', 'b', 'c']) (.start (.clamped _ 0)) (tangle ++ [.result])
      = [((true, 1), .clamped _ 0), ((false, 3), .clamped _ 1), ((false, 2), .clamped _ 1),
          ((true, 3), .clamped _ 2)] := by
  have inner : ∀ call ∈ tangle, call.isAnchor = false := by decide
  have accepted : Accepted (Tape.leap #['a', 'b', 'c']) (.start (.clamped _ 0))
      (tangle ++ [.result]) := by decide
  have value : ∀ p ∈ Phrase.ofCalls? tangle,
      p.verdict (Tape.leap #['a', 'b', 'c']) (.clamped _ 0)
        = ⟨true, .clamped _ 3, [((true, 1), .clamped _ 0), ((false, 3), .clamped _ 1),
            ((false, 2), .clamped _ 1), ((true, 3), .clamped _ 2)]⟩ := by
    intro p read
    cases read
    rfl
  obtain ⟨p, read, _, answered, invoked⟩ :=
    runAll_result_eq_evaluate (Tape.leap _) (.clamped _ 0) tangle inner accepted
  rw [value p read] at answered invoked
  exact ⟨inner, accepted, answered, invoked⟩

end Call

end ScanExpr
