import ScanExpr.Proofs.Phrase.Nested

/-!
# `ScanExpr.Proofs.Phrase.Alternation`: one expression after another

Expressions can be tried one after another on one matcher, each with a
call for its result, until one of them matches (`Call.tryEach`). Or they
can be handed over as the alternatives of a single expression, each in a
group of its own (`Call.alternation`). The first way stops making calls
when an expression has matched. The second makes all of them, and the
groups that come after the match are skipped.

`Call.alternation_eq_tryEach` says that both ways come to the same result,
at the same place, and run the same operands on the same streams.

The induction is on the expressions that are still to be tried. What they
come to as alternatives depends on whether one has matched before them: if
so they do nothing at all, and if not they start where the first one did,
because an expression that does not match is taken back
(`Phrase.Retries`).
-/

set_option autoImplicit false

namespace ScanExpr

variable {σ μ ρ ο : Type}

/-- What trying expressions one after another leads to: whether one of them
matched, the matcher after it, and the operands that were run. -/
structure Tried (ο σ μ : Type) where
  matched : Bool
  matcher : Matcher σ μ
  invoked : List (ο × σ)

/-- The operands put first that were run before. -/
def Tried.since (t : Tried ο σ μ) (earlier : List (ο × σ)) : Tried ο σ μ :=
  { t with invoked := earlier ++ t.invoked }

namespace Call

/-- Tries expressions one after another on one matcher, asking for the
result of each, until one of them matches. -/
def tryEach [Rewindable σ μ] (eval : ο → σ → Verdict σ ρ) (m : Matcher σ μ) :
    List (List (Call ο)) → Tried ο σ μ
  | [] => ⟨false, m, []⟩
  | body :: others =>
    let invoked := invocations eval m body
    let outcome := Call.result.run eval (after eval m body)
    if outcome.reply.isMatch then ⟨true, outcome.matcher, invoked⟩
    else (tryEach eval outcome.matcher others).since invoked

/-- An expression as one more alternative. -/
def alternative (body : List (Call ο)) : List (Call ο) :=
  .connectEnter .or :: (body ++ [.leaveGroup .required])

/-- Expressions as the alternatives of a single one. -/
def alternation (first : List (Call ο)) (others : List (List (Call ο))) : List (Call ο) :=
  .enterGroup :: (first ++ .leaveGroup .required :: others.flatMap alternative)

end Call

variable [Rewindable σ μ] [LawfulRewindable σ] {eval : ο → σ → Verdict σ ρ}

/-- What trying leads to where an evaluation ends. -/
def Valuation.tried (v : Valuation ο σ) : Tried ο σ μ :=
  ⟨v.matched, .start v.stream, v.invoked⟩

namespace Phrase

/-- The phrase is a whole expression, and the calls spell it. -/
structure SpelledBy (p : Phrase ο) (body : List (Call ο)) : Prop where
  calls : p.calls = body.flatMap Call.expand
  legal : p.legal false = true
  hasOperand : p.hasOperand = true

/-- Calls that spell an expression are accepted together with the call for
the result, which is the value of the expression. -/
theorem SpelledBy.result {p : Phrase ο} {body : List (Call ο)} (spelled : p.SpelledBy body)
    (eval : ο → σ → Verdict σ ρ) (s : σ) :
    let v := p.verdict eval s
    Call.Accepted eval (.start s) (body ++ [.result]) ∧
    Call.result.run eval (Call.after eval (.start s) body)
      = ⟨.concluded v.matched, .start v.stream, [.concluded v.matched]⟩ ∧
    Call.invocations eval (.start s) body = v.invoked := by
  obtain ⟨accepted, walked, invoked⟩ := after_spelled eval spelled.calls (.start s) spelled.legal
  have sensible : (Call.result : Call ο).refusal? (p.walked eval (.start s)) = none :=
    Call.refusal?_result_eq_none_iff.2 ⟨spelled.hasOperand, rfl⟩
  refine ⟨?_, ?_, ?_⟩
  · rw [Call.accepted_append, walked, Call.accepted_cons]
    exact ⟨accepted, sensible, Call.accepted_nil _⟩
  · rw [walked, Call.run_of_refusal?_eq_none sensible, perform_result_walked]
  · rw [invoked, verdict, ← valuation_walk_outermost]
    rfl

/-- The expressions are tried by what is left of a level, whether or not
one has matched before them. -/
structure Retries (eval : ο → σ → Verdict σ ρ) (others : List (List (Call ο)))
    (rest : Phrase ο) : Prop where
  spelled : rest.calls = (others.flatMap Call.alternative).flatMap Call.expand
  legal : rest.legal true = true
  /-- After a match none of them is tried. -/
  idle : ∀ s, rest.evaluate eval none true s = ⟨true, s, []⟩
  /-- Otherwise they are tried one after another. -/
  tries : ∀ s, (rest.evaluate eval none false s).tried = Call.tryEach eval (.start s) others
  /-- If none of them matches, the stream is where it was. -/
  back : ∀ s, (rest.evaluate eval none false s).orBack s = rest.evaluate eval none false s

/-- One more expression is tried before the others. -/
theorem Retries.group {others : List (List (Call ο))} {rest : Phrase ο}
    (retries : Retries eval others rest) {p : Phrase ο} {body : List (Call ο)}
    (spelled : p.SpelledBy body) (latest : Option Connective)
    (runs : skips latest false = false) (s : σ) :
    let v := (Phrase.group p .required rest).evaluate eval latest false s
    v.tried = Call.tryEach eval (.start s) (body :: others) ∧ v.orBack s = v := by
  intro v
  obtain ⟨_, told, invoked⟩ := spelled.result eval s
  have evaluated : v = (rest.evaluate eval none (p.verdict eval s).matched
      (p.verdict eval s).stream).since (p.verdict eval s).invoked := by
    show (Phrase.group p .required rest).evaluate eval latest false s = _
    rw [evaluate, if_neg (Bool.eq_false_iff.1 runs)]
    show Valuation.since (evaluate eval rest none (_ || false) _) _ = _
    rw [Bool.or_false]
    rfl
  rw [evaluated, Call.tryEach, told, invoked]
  -- After a match the others are skipped, and nothing more is run.
  by_cases matched : (p.verdict eval s).matched = true
  · rw [matched, retries.idle]
    simp [Valuation.tried, Valuation.since, Valuation.orBack, Reply.isMatch]
  · -- The expression is taken back, so the others are tried from where it began.
    rw [Bool.not_eq_true] at matched
    have stays : (p.verdict eval s).stream = s := Valuation.stream_orBack_of_failed matched
    rw [matched, stays]
    constructor
    · show Tried.since (rest.evaluate eval none false s).tried _ = Tried.since _ _
      rw [retries.tries]
    · show Valuation.since ((rest.evaluate eval none false s).orBack s) _ = _
      rw [retries.back]

/-- Whatever expressions are spelled by calls, some rest of a level tries
them. -/
theorem exists_retries (eval : ο → σ → Verdict σ ρ) (others : List (List (Call ο)))
    (spelled : ∀ body ∈ others, ∃ p : Phrase ο, p.SpelledBy body) :
    ∃ rest, Retries eval others rest := by
  -- From the last expression to the first, which are put in front of the others.
  induction others with
  | nil => exact ⟨.done, rfl, rfl, fun _ => rfl, fun _ => rfl, fun _ => rfl⟩
  | cons body others ih =>
    obtain ⟨⟨p, spelled⟩, others⟩ := List.forall_mem_cons.1 spelled
    obtain ⟨rest, retries⟩ := ih others
    have next := retries.group spelled (some .or) rfl
    refine ⟨.connective .or (.group p .required rest), ?_, ?_, ?_, ?_, ?_⟩
    · simp [calls, Call.alternative, Call.expand, spelled.calls, retries.spelled]
    · simp [Phrase.legal, spelled.legal, retries.legal]
    · -- After a match the `or` skips the expression, and the others are skipped in turn.
      intro s
      exact retries.idle s
    · intro s
      exact (next s).1
    · intro s
      exact (next s).2

end Phrase

namespace Call

/-- Handing over expressions as the alternatives of a single one comes to
what trying them one after another comes to. The result is the same, the
matcher is left in the same state with its stream at the same place, and
the same operands are run on the same streams. None of the calls is
refused. -/
theorem alternation_eq_tryEach (eval : ο → σ → Verdict σ ρ) (s : σ) (first : List (Call ο))
    (others : List (List (Call ο)))
    (sensible : ∀ body ∈ first :: others, (∀ call ∈ body, call.isAnchor = false) ∧
      ∃ t : σ, Accepted eval (.start t) (body ++ [.result])) :
    let tried := tryEach eval (.start s) (first :: others)
    (∀ body ∈ first :: others, Accepted eval (.start s) (body ++ [.result])) ∧
    Accepted eval (.start s) (alternation first others ++ [.result]) ∧
    (runAll eval (.start s) (alternation first others ++ [.result])).getLast?
      = some ⟨.concluded tried.matched, tried.matcher, [.concluded tried.matched]⟩ ∧
    invocations eval (.start s) (alternation first others ++ [.result]) = tried.invoked := by
  intro tried
  have spelled : ∀ body ∈ first :: others, ∃ p : Phrase ο, p.SpelledBy body := by
    intro body h
    obtain ⟨inner, t, accepted⟩ := sensible body h
    obtain ⟨p, calls, legal, hasOperand⟩ := Phrase.exists_spelled_of_accepted inner accepted
    exact ⟨p, calls, legal, hasOperand⟩
  -- What spells an expression is accepted wherever it starts.
  have each : ∀ body ∈ first :: others, Accepted eval (.start s) (body ++ [.result]) := by
    intro body h
    obtain ⟨p, spelled⟩ := spelled body h
    exact (spelled.result eval s).1
  obtain ⟨⟨p, spelled⟩, others_spelled⟩ := List.forall_mem_cons.1 spelled
  obtain ⟨rest, retries⟩ := Phrase.exists_retries eval others others_spelled
  -- The whole expression spells the first group and what tries the others after it.
  have whole : (Phrase.group p .required rest).SpelledBy (alternation first others) := by
    refine ⟨?_, ?_, rfl⟩
    · simp [Phrase.calls, alternation, Call.expand, spelled.calls, retries.spelled]
    · simp [Phrase.legal, spelled.legal, retries.legal]
  obtain ⟨made, told, invoked⟩ := whole.result eval s
  obtain ⟨tries, back⟩ := retries.group spelled none rfl s
  rw [Phrase.verdict, back] at told invoked
  have same : tried = ((Phrase.group p .required rest).evaluate eval none false s).tried :=
    tries.symm
  rw [same]
  refine ⟨each, made, ?_, ?_⟩
  · obtain ⟨_, last⟩ := accepted_append.1 made
    rw [made.getLast?_runAll_result, ← run_of_refusal?_eq_none (accepted_cons.1 last).1, told]
    rfl
  · -- Asking for the result runs no operand.
    have silent : invocations eval (after eval (.start s) (alternation first others)) [.result]
        = [] := rfl
    rw [invocations_append, silent, List.append_nil, invoked]
    rfl

/-- An expression that moves the stream and does not match. -/
def vain : List (Call (Bool × Nat)) :=
  [.attempt (true, 2), .connect .and, .attempt (false, 3)]

/-- Another expression that does not match, although the group in it
counts for a match, then one that does, and one that would. -/
def retried : List (List (Call (Bool × Nat))) :=
  [[.enterGroup, .attempt (false, 1), .leaveGroup .optional, .attempt (false, 2)],
    [.attempt (false, 3), .connectEnter .or, .attempt (true, 3), .leaveGroup .required,
      .connect .or],
    [.attempt (true, 1)]]

/-- The second expression starts where the first one did, and so does the
third. It matches, and the fourth is neither tried nor run as an
alternative. -/
theorem alternation_eq_tryEach_retried :
    (∀ body ∈ vain :: retried, (∀ call ∈ body, call.isAnchor = false) ∧
      ∃ t, Accepted (Tape.leap #['a', 'b', 'c']) (.start t) (body ++ [.result])) ∧
    (runAll (Tape.leap #['a', 'b', 'c']) (.start (.clamped _ 0))
        (alternation vain retried ++ [.result])).getLast?
      = some ⟨.concluded true, .start (.clamped _ 3), [.concluded true]⟩ ∧
    invocations (Tape.leap #['a', 'b', 'c']) (.start (.clamped _ 0))
        (alternation vain retried ++ [.result])
      = [((true, 2), .clamped _ 0), ((false, 3), .clamped _ 2), ((false, 1), .clamped _ 0),
          ((false, 2), .clamped _ 0), ((false, 3), .clamped _ 0), ((true, 3), .clamped _ 3)] := by
  have sensible : ∀ body ∈ vain :: retried, (∀ call ∈ body, call.isAnchor = false) ∧
      ∃ t, Accepted (Tape.leap #['a', 'b', 'c']) (.start t) (body ++ [.result]) := by
    -- That the expressions are accepted has to be shown from one place only.
    have decided : ∀ body ∈ vain :: retried, (∀ call ∈ body, call.isAnchor = false) ∧
        Accepted (Tape.leap #['a', 'b', 'c']) (.start (.clamped _ 0)) (body ++ [.result]) := by
      decide
    intro body h
    obtain ⟨inner, accepted⟩ := decided body h
    exact ⟨inner, _, accepted⟩
  obtain ⟨_, _, answered, invoked⟩ :=
    alternation_eq_tryEach (Tape.leap #['a', 'b', 'c']) (.clamped _ 0) vain retried sensible
  exact ⟨sensible, answered, invoked⟩

end Call

end ScanExpr
