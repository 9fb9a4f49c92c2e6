import ScanExpr.Proofs.Matcher.Reached

/-!
# `ScanExpr.Proofs.Matcher.Chain`: typed expressions and the calls behind them

A step of a typed expression is not checked when it is taken. What stands
in for the checks is the phase, and the phase is only a type: it has to
keep up with the groups that are open in the matcher, through groups that
are empty, through restarts from any depth, and from whatever state an
expression left behind that was dropped before.

`Chain.calls` lists the call that each step amounts to. The end of a group
amounts to none until its quantifier is chosen. `Outcome.account` is what
a sequence of outcomes shows: the matcher at its end, what was answered,
and what was reported.

`Chain.account_run_eq` is the main result: step by step, an expression
shows what its calls show when a matcher makes them with all their checks,
none of these calls is refused, and the phase is true of the matcher.
-/

set_option autoImplicit false

namespace ScanExpr

variable {σ μ ρ ο : Type}

/-! ### What a sequence of outcomes shows -/

/-- Whether the reply says no more than that the call was made. -/
def Reply.isDone : Reply ρ → Bool
  | .done => true
  | _ => false

/-- The matcher after a sequence of outcomes, the replies in it that say
something, and its events. -/
structure Account (σ μ ρ : Type) where
  matcher : Matcher σ μ
  replies : List (Reply ρ)
  events : List Event

namespace Outcome

/-- What the outcomes show that began with the matcher `m`. -/
def account (m : Matcher σ μ) (outcomes : List (Outcome σ μ ρ)) : Account σ μ ρ where
  matcher := finalMatcher m outcomes
  replies := (outcomes.map (·.reply)).filter fun reply => !reply.isDone
  events := outcomes.flatMap (·.events)

/-- An outcome that leaves the matcher alone shows nothing. -/
theorem account_idle (m : Matcher σ μ) (rest : List (Outcome σ μ ρ)) :
    account m (⟨.done, m, []⟩ :: rest) = account m rest := rfl

/-- What a sequence of outcomes shows depends on all but the first of them
through what these show. -/
theorem account_cons_congr (m : Matcher σ μ) (outcome : Outcome σ μ ρ)
    {rest rest' : List (Outcome σ μ ρ)}
    (same : account outcome.matcher rest = account outcome.matcher rest') :
    account m (outcome :: rest) = account m (outcome :: rest') := by
  have ⟨matcher, replies, events⟩ := Account.mk.inj same
  simp only [account, finalMatcher, List.map_cons, List.filter_cons, List.flatMap_cons, matcher,
    replies, events]

end Outcome

/-! ### What a phase says -/

namespace Phase

/-- How many groups the phase says are open. A group that is being closed
is open until its quantifier is chosen. -/
def openGroups : Phase → Nat
  | .operand depth _ => depth
  | .operator depth => depth
  | .closing depth => depth + 1
  | .concluded => 0

/-- All that a phase says of the matcher is true. -/
structure Holds (m : Matcher σ μ) (p : Phase) : Prop where
  depth_eq : m.depth = p.openGroups
  /-- Where a connective may come, the level has had an operand. -/
  attempted : ∀ depth, p = .operator depth → m.current.attempted = true
  /-- Where the phase is fresh, it has not. -/
  fresh : ∀ depth, p = .operand depth true → m.current.attempted = false

/-- What `Fits` leaves out: a fresh level has had no operand, and at the
end no group is open. -/
def Clean (m : Matcher σ μ) : Phase → Prop
  | .operand _ true => m.current.attempted = false
  | .concluded => m.depth = 0
  | _ => True

/-- A phase that fits the matcher is true of it if the matcher is clean for it. -/
theorem Fits.holds {m : Matcher σ μ} {p : Phase} (fits : p.Fits m) (clean : p.Clean m) :
    p.Holds m := by
  cases p with
  | operand depth fresh =>
    refine ⟨fits, nofun, ?_⟩
    intro _ isFresh
    cases isFresh
    exact clean
  | operator depth => exact ⟨fits.1, fun _ _ => fits.2.1, nofun⟩
  | closing depth => exact ⟨fits, nofun, nofun⟩
  | concluded => exact ⟨clean, nofun, nofun⟩

end Phase

variable [Rewindable σ μ]

/-- A step leads to a matcher that is clean for the next phase, whatever
the matcher was before. -/
theorem Link.clean_perform (eval : ο → σ → Verdict σ ρ) (m : Matcher σ μ) {p q : Phase}
    (l : Link ο p q) : q.Clean (l.perform eval m).matcher := by
  cases l with
  | enterGroup | connectEnter c | restart | result => rfl
  | attempt op | leaveEmpty | leave | quantify q | leaveWith q | connect c => trivial

/-- No step is refused. -/
theorem Link.isRefused_perform (eval : ο → σ → Verdict σ ρ) (m : Matcher σ μ) {p q : Phase}
    (l : Link ο p q) : (l.perform eval m).reply.isRefused = false := by
  cases l <;> rfl

/-! ### A path and its calls -/

namespace Chain

/-- The call that each step of a path amounts to, if it amounts to one. -/
def calls {p : Phase} : Chain ο p → List (Option (Call ο))
  | .stop => []
  | .link first rest => first.call? :: rest.calls

/-- The phases that a path passes through, from the one in which it
starts. -/
def phases : {p : Phase} → Chain ο p → List Phase
  | p, .stop => [p]
  | p, .link _ rest => p :: rest.phases

/-- A path from a phase that is true of the matcher shows what its calls
show, and its phases stay true. -/
theorem account_follow_eq (eval : ο → σ → Verdict σ ρ) {p : Phase} (c : Chain ο p)
    {m : Matcher σ μ} (fits : p.Fits m) (clean : p.Clean m) :
    Call.Accepted eval m (c.calls.filterMap id) ∧
    ∀ n, Outcome.account m ((c.follow eval m).take n)
        = Outcome.account m (Call.runAll eval m ((c.calls.take n).filterMap id)) ∧
      ∀ phase ∈ c.phases[n]?,
        phase.Holds (Outcome.finalMatcher m ((c.follow eval m).take n)) := by
  -- Along the path, from any matcher that is clean for the phase in which it starts.
  induction c generalizing m with
  | stop =>
    refine ⟨Call.accepted_nil m, fun n => ?_⟩
    rw [follow, calls, List.take_nil, List.take_nil]
    refine ⟨rfl, fun phase passed => ?_⟩
    cases n with
    | zero =>
      cases passed
      exact fits.holds clean
    | succ n => cases passed
  | @link p q first rest ih =>
    have ⟨accepted, agrees⟩ := ih (fits.perform first) (first.clean_perform eval m)
    -- The first step shows what its call shows, whatever number of steps is taken after it.
    have ⟨made, shown⟩ : Call.Accepted eval m ((first.call? :: rest.calls).filterMap id) ∧
        ∀ n, Outcome.account m (first.perform eval m
              :: (rest.follow eval (first.perform eval m).matcher).take n)
          = Outcome.account m
              (Call.runAll eval m ((first.call? :: rest.calls.take n).filterMap id)) := by
      cases amounts : first.call? with
      | none =>
        -- The end of a group leaves everything as it is, and so does making no call.
        have idle : first.perform eval m = ⟨.done, m, []⟩ :=
          first.perform_of_call?_eq_none amounts m
        rw [idle] at accepted agrees ⊢
        exact ⟨accepted, fun n => (Outcome.account_idle m _).trans (agrees n).1⟩
      | some call =>
        -- The phase fits, so the call is made as the step is, without a refusal.
        have sensible := fits.refusal?_eq_none amounts
        have step : first.perform eval m = call.run eval m := by
          rw [first.perform_of_call? amounts, Call.run_of_refusal?_eq_none sensible]
        rw [step] at accepted agrees ⊢
        exact ⟨Call.accepted_cons.2 ⟨sensible, accepted⟩,
          fun n => Outcome.account_cons_congr m _ (agrees n).1⟩
    refine ⟨made, fun n => ?_⟩
    cases n with
    | zero =>
      refine ⟨rfl, fun phase passed => ?_⟩
      cases passed
      exact fits.holds clean
    | succ n => exact ⟨shown n, (agrees n).2⟩

/-- No step of a path is refused. -/
theorem isRefused_follow (eval : ο → σ → Verdict σ ρ) (m : Matcher σ μ) {p : Phase}
    (c : Chain ο p) : ∀ outcome ∈ c.follow eval m, outcome.reply.isRefused = false := by
  induction c generalizing m with
  | stop =>
    intro outcome h
    cases h
  | link first rest ih =>
    rw [follow, List.forall_mem_cons]
    exact ⟨first.isRefused_perform eval m, ih _⟩

/-- The calls of an expression are accepted after a restart and lead where
the expression leads. -/
theorem after_calls (eval : ο → σ → Verdict σ ρ) (m : Matcher σ μ)
    (c : Chain ο (.operand 0 true)) :
    Call.Accepted eval m (.restart :: c.calls.filterMap id) ∧
    Call.after eval m (.restart :: c.calls.filterMap id)
      = Outcome.finalMatcher m.restart (c.run eval m) := by
  have started : (Phase.operand 0 true).Fits m.restart := rfl
  have clean : (Phase.operand 0 true).Clean m.restart := rfl
  have ⟨accepted, agrees⟩ := c.account_follow_eq eval started clean
  -- All steps have been taken when their number has been reached.
  have ⟨same, _⟩ := agrees ((c.follow eval m.restart).length + c.calls.length)
  rw [List.take_of_length_le (Nat.le_add_right _ _),
    List.take_of_length_le (Nat.le_add_left _ _)] at same
  exact ⟨Call.accepted_cons.2 ⟨rfl, accepted⟩, (congrArg Account.matcher same).symm⟩

/-- A typed expression, from any state of the matcher and up to any point
at which it may be dropped, against the calls that its steps amount to,
made after a restart:

* none of the calls is refused;
* after any number of steps the matcher, the answers, the result among
  them, and the events are those after the calls of these steps;
* the phase that has been reached says truly how many groups are open,
  and whether the level has had an operand. -/
theorem account_run_eq (eval : ο → σ → Verdict σ ρ) (m : Matcher σ μ)
    (c : Chain ο (.operand 0 true)) :
    Call.Accepted eval m (.restart :: c.calls.filterMap id) ∧
    ∀ n, Outcome.account m.restart ((c.run eval m).take n)
        = Outcome.account m
            (Call.runAll eval m (.restart :: (c.calls.take n).filterMap id)) ∧
      ∀ phase ∈ c.phases[n]?,
        phase.Holds (Outcome.finalMatcher m.restart ((c.run eval m).take n)) := by
  have started : (Phase.operand 0 true).Fits m.restart := rfl
  have clean : (Phase.operand 0 true).Clean m.restart := rfl
  have ⟨accepted, agrees⟩ := c.account_follow_eq eval started clean
  exact ⟨Call.accepted_cons.2 ⟨rfl, accepted⟩, agrees⟩

/-- An empty group, a group that is given up half way by a restart, and
another that is open when the expression is dropped. -/
def winding : Chain (Bool × Nat) (.operand 0 true) :=
  .link .enterGroup <| .link .leaveEmpty <| .link (.quantify .optional) <|
    .link (.connectEnter .and) <| .link (.attempt (true, 3)) <| .link .restart <|
    .link (.attempt (true, 1)) <| .link (.connectEnter .or) .stop

/-- It runs on a matcher in which a group was left open at 2. -/
theorem account_run_eq_winding :
    ∃ m : Matcher (Tape #['a', 'b', 'c']) Nat, m.depth = 1 ∧ m.stream.pos = 2 ∧
      Call.Accepted (Tape.leap _) m (.restart :: winding.calls.filterMap id) ∧
      winding.phases[5]? = some (.operator 1) ∧
      (Phase.operator 1).Holds
        (Outcome.finalMatcher m.restart ((winding.run (Tape.leap _) m).take 5)) ∧
      Outcome.account m
          (Call.runAll (Tape.leap _) m (.restart :: (winding.calls.take 8).filterMap id))
        = ⟨⟨.clamped _ 1, ⟨[⟨true, false, true, some .or, true, 3⟩]⟩, .opened 1 true, true⟩,
            [.attempted (some ()), .attempted (some ())],
            [.opened 1 false, .closed 1 .optional false true true, .opened 1 false,
              .opened 1 true]⟩ := by
  let m : Matcher (Tape #['a', 'b', 'c']) Nat :=
    Call.after (Tape.leap _) (.start (.clamped _ 0)) [.enterGroup, .attempt (true, 2)]
  have ⟨accepted, agrees⟩ := account_run_eq (Tape.leap _) m winding
  exact ⟨m, rfl, rfl, accepted, rfl, (agrees 5).2 (.operator 1) rfl, (agrees 8).1.symm⟩

end Chain

end ScanExpr
