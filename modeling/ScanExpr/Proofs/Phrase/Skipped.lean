import ScanExpr.Proofs.Matcher.Levels
import ScanExpr.Proofs.Phrase.Nested

/-!
# `ScanExpr.Proofs.Phrase.Skipped`: operands that are skipped

An operand that cannot change the result is skipped. If it is a group, all of
its calls are still made: levels are opened and closed, connectives are read,
the stream is taken back wherever a group ends, and optional groups in it
count for a match. None of this can be seen afterwards.

`Matcher.passed` is the matcher after a skipped operand. It differs from the
matcher before in what the level notes about its next operand, and in that an
operand has been had.

* `Call.OneOperand.passedBy`: one operand, a group of any depth included.
* `Call.MoreOperands.passedBy`: any number of operands after a result that is
  decided, by induction on the operands.
* `Reached.skipped_operand_passedBy`: both, and where operands are skipped.
-/

set_option autoImplicit false

namespace ScanExpr

variable {σ μ ρ ο : Type}

/-- The level after an operand that was skipped. -/
def Level.passed (l : Level μ) : Level μ :=
  { l with
    skipsNext := l.skipsAll
    pending := none
    attempted := true }

/-- The outcome of an operand that is skipped is not looked at. -/
theorem Level.fold_eq_passed {l : Level μ} (next : l.skipsNext = true) (outcome : Bool) :
    l.fold outcome = l.passed := by
  rw [fold, next]
  rfl

/-- The matcher after an operand that was skipped. -/
def Matcher.passed (m : Matcher σ μ) : Matcher σ μ :=
  { m with current := m.current.passed, attempted := true }

/-- A matcher passes an operand that is skipped, whatever outcome is folded in
for it. -/
theorem Matcher.fold_eq_passed {m : Matcher σ μ} (next : m.current.skipsNext = true)
    (outcome : Bool) : m.fold outcome = m.passed := by
  rw [fold, Level.fold_eq_passed next, passed]

variable [Rewindable σ μ]

namespace Call

variable {eval : ο → σ → Verdict σ ρ} {m : Matcher σ μ}

/-- Calls that differ only in how a group is opened after a connective lead to
the same. -/
theorem Accepted.of_expand_eq {calls others : List (Call ο)} (accepted : Accepted eval m calls)
    (same : others.flatMap Call.expand = calls.flatMap Call.expand) :
    Accepted eval m others ∧ after eval m others = after eval m calls ∧
      invocations eval m others = invocations eval m calls := by
  have ⟨expanded, after_eq, invoked⟩ := accepted.expand
  rw [← same] at expanded after_eq invoked
  have others_accepted := accepted_of_accepted_expand expanded
  have ⟨_, others_after, others_invoked⟩ := others_accepted.expand
  exact ⟨others_accepted, others_after.symm.trans after_eq, others_invoked.symm.trans invoked⟩

/-- Calls that hand one operand to a matcher: a single one, or a group with
anything in it that makes sense at the start of a level. -/
inductive OneOperand (eval : ο → σ → Verdict σ ρ) : List (Call ο) → Prop where
  | single (op : ο) : OneOperand eval [.attempt op]
  | group {body : List (Call ο)} {s : σ} (balanced : Balanced eval s body) (q : Quantifier) :
    OneOperand eval (.enterGroup :: (body ++ [.leaveGroup q]))

/-- Calls that hand any number of operands to a matcher, each of them after the
connective `c`. -/
inductive MoreOperands (eval : ο → σ → Verdict σ ρ) (c : Connective) : List (Call ο) → Prop where
  | none : MoreOperands eval c []
  | joined {operand rest : List (Call ο)} (first : OneOperand eval operand)
    (others : MoreOperands eval c rest) : MoreOperands eval c (.connect c :: (operand ++ rest))
  /-- A group that is opened in one call with the connective before it. -/
  | joinedGroup {body rest : List (Call ο)} {s : σ} (balanced : Balanced eval s body)
    (q : Quantifier) (others : MoreOperands eval c rest) :
    MoreOperands eval c (.connectEnter c :: (body ++ .leaveGroup q :: rest))

/-- The matcher passes the calls by: it accepts them, runs no operand, and is
left as it is after a single operand that was skipped. -/
structure PassedBy (eval : ο → σ → Verdict σ ρ) (m : Matcher σ μ) (calls : List (Call ο)) :
    Prop where
  accepted : Accepted eval m calls
  after_eq : after eval m calls = m.passed
  silent : invocations eval m calls = []

variable [LawfulRewindable σ]

/-- A skipped operand is passed by, whatever there is in it. -/
theorem OneOperand.passedBy {operand : List (Call ο)} (one : OneOperand eval operand)
    (next : m.current.skipsNext = true) : PassedBy eval m operand := by
  cases one with
  -- The operand is not run, and false is folded in, which is not looked at.
  | single op =>
    refine ⟨accepted_cons.2 ⟨rfl, accepted_nil _⟩, ?_, ?_⟩
    · rw [after_cons, run_attempt_of_skipsNext next, after_nil]
      exact Matcher.fold_eq_passed next false
    · rw [invocations_cons, invocation?_attempt_of_skipsNext next]
      rfl
  | @group body s balanced q =>
    obtain ⟨p, read, legal, _⟩ := Phrase.exists_walked_of_balanced balanced
    obtain ⟨made, grouped, invoked⟩ :=
      Phrase.after_group_spelled eval (Phrase.calls_of_ofCalls? read) legal m q
    -- The group is opened where operands are skipped, so the walk through it is idle.
    have skipped : m.current.skipsChild = true := by
      rw [Level.skipsChild, next, Bool.or_true]
    rw [skipped] at grouped invoked
    obtain ⟨failed, back, silent⟩ := p.walk_idle eval m.stream
    refine ⟨made, ?_, invoked.trans silent⟩
    rw [grouped, failed, back]
    exact Matcher.fold_eq_passed next (q.outcome false)

/-- An operand is passed by after a connective that decides the result, and
those after it if they are passed by in turn. -/
theorem OneOperand.passedBy_joined {c : Connective} {operand rest : List (Call ο)}
    (one : OneOperand eval operand) (attempted : m.current.attempted = true)
    (decided : Connective.decides (some c) m.current.result = true)
    (others : rest = [] ∨ PassedBy eval m.passed rest) :
    PassedBy eval m (.connect c :: (operand ++ rest)) := by
  have next : (m.connect c).current.skipsNext = true := by
    show (m.current.skipsAll || Connective.decides (some c) m.current.result) = true
    rw [decided, Bool.or_true]
  obtain ⟨made, passed, silent⟩ := one.passedBy next
  -- What the connective has noted is gone after the operand.
  have passed : after eval (m.connect c) operand = m.passed := passed
  have sensible : (Call.connect c : Call ο).refusal? m = none :=
    refusal?_connect_eq_none_iff.2 attempted
  have others : Accepted eval m.passed rest ∧ after eval m.passed rest = m.passed ∧
      invocations eval m.passed rest = [] := by
    rcases others with rfl | ⟨accepted, after_eq, silent⟩
    · exact ⟨accepted_nil _, rfl, rfl⟩
    · exact ⟨accepted, after_eq, silent⟩
  obtain ⟨others_made, others_passed, others_silent⟩ := others
  constructor
  · rw [accepted_cons, run_connect attempted, accepted_append, passed]
    exact ⟨sensible, made, others_made⟩
  · rw [after_cons, run_connect attempted, after_append, passed, others_passed]
  · rw [invocations_cons, run_connect attempted, invocations_append, passed, silent, others_silent]
    rfl

/-- Operands that are joined by a connective that decides the result are all
passed by. -/
theorem MoreOperands.passedBy {c : Connective} {calls : List (Call ο)}
    (more : MoreOperands eval c calls) (attempted : m.current.attempted = true)
    (decided : Connective.decides (some c) m.current.result = true) :
    calls = [] ∨ PassedBy eval m calls := by
  -- The result stays as it is, so it decides about the operand after the next as well.
  induction more generalizing m with
  | none => exact .inl rfl
  | joined one _ ih =>
    have others := ih (m := m.passed) rfl decided
    exact .inr (one.passedBy_joined attempted decided others)
  | @joinedGroup body rest s balanced q _ ih =>
    have others := ih (m := m.passed) rfl decided
    obtain ⟨made, passed, silent⟩ :=
      (OneOperand.group balanced q).passedBy_joined attempted decided others
    -- The group is opened in one call, and written out that is two.
    have same : (.connectEnter c :: (body ++ .leaveGroup q :: rest)).flatMap Call.expand
        = (.connect c :: (.enterGroup :: (body ++ [.leaveGroup q]) ++ rest)).flatMap
            Call.expand := by
      simp [Call.expand]
    obtain ⟨made', after_eq, invoked⟩ := made.of_expand_eq same
    exact .inr ⟨made', after_eq.trans passed, invoked.trans silent⟩

end Call

/-! ### In every state -/

/-- In every state that the use of a matcher leads to:

* the next operand is skipped exactly if one of the open levels was opened
  where operands are skipped, or if it comes after `and` with the result false
  or after `or` with the result true;
* a skipped operand, be it a group of any depth, is accepted, runs nothing and
  leaves the matcher as `Matcher.passed` says, with its stream and the levels
  around the current one as they were;
* where the result is true, any number of operands joined by `or`, and where it
  is false, any number of operands joined by `and`, is accepted, runs nothing
  and leaves the result, the stream and the levels around as they were. -/
theorem Reached.skipped_operand_passedBy [LawfulRewindable σ] {ο' ρ' : Type}
    {eval' : ο' → σ → Verdict σ ρ'} {m : Matcher σ μ} {j : Journal σ} {phase : Option Phase}
    (reached : Reached eval' m j phase) (eval : ο → σ → Verdict σ ρ) :
    (m.current.skipsNext = true ↔ (∃ l ∈ m.levels, l.skipsAll = true) ∨
      m.current.pending = some .and ∧ m.current.result = false ∨
      m.current.pending = some .or ∧ m.current.result = true) ∧
    (∀ operand, Call.OneOperand eval operand → m.current.skipsNext = true →
      Call.PassedBy eval m operand) ∧
    (∀ c calls, Call.MoreOperands eval c calls → m.current.attempted = true →
      m.current.result = (c == .or) →
      Call.Accepted eval m calls ∧ Call.invocations eval m calls = [] ∧
        (Call.after eval m calls).current.result = m.current.result ∧
        (Call.after eval m calls).stream = m.stream ∧
        (Call.after eval m calls).suspended = m.suspended) := by
  have nest := reached.consistent.nest
  refine ⟨?_, fun operand one next => one.passedBy next, fun c calls more attempted settled => ?_⟩
  · -- A level inside one that skips everything skips everything itself.
    have inherited : (∃ l ∈ m.levels, l.skipsAll = true) ↔ m.current.skipsAll = true := by
      constructor
      · rintro ⟨l, level, all⟩
        by_contra runs
        rw [nest.skipsAll_eq_false (Bool.not_eq_true _ ▸ runs) l level] at all
        cases all
      · intro all
        exact ⟨m.current, List.mem_cons_self, all⟩
    rw [inherited, ← Connective.decides_eq_true_iff, ← Bool.or_eq_true, ← reached.coherent]
  · have decided : Connective.decides (some c) m.current.result = true := by
      rw [settled]
      cases c <;> rfl
    rcases more.passedBy attempted decided with rfl | ⟨made, passed, silent⟩
    · exact ⟨Call.accepted_nil m, rfl, rfl, rfl, rfl⟩
    · rw [passed]
      exact ⟨made, silent, rfl, rfl, rfl⟩

/-- A body that would match and move the stream, with an operand that replaces
the result, an optional group that is empty, and a group inside another. -/
def Call.busy : List (Call (Bool × Nat)) :=
  [.attempt (true, 2), .attempt (false, 3), .connectEnter .or, .leaveGroup .optional,
    .connect .and, .enterGroup, .enterGroup, .attempt (true, 0), .leaveGroup .required,
    .leaveGroup .optional]

/-- After `or` with the result true, in a group at 1, the body is passed by as
an optional group. So are an operand and the same body as a required group,
both of them joined by `or`. -/
theorem Reached.skipped_operand_passedBy_busy :
    ∃ (m joined : Matcher (Tape #['a', 'b', 'c']) Nat) (j : Journal (Tape #['a', 'b', 'c'])),
      Reached (Tape.leap _) m j none ∧ Reached (Tape.leap _) joined j none ∧
      joined = m.connect .or ∧ m.stream.pos = 1 ∧ m.depth = 1 ∧
      joined.current.skipsNext = true ∧
      Call.PassedBy (Tape.leap _) joined
        (.enterGroup :: (Call.busy ++ [.leaveGroup .optional])) ∧
      m.current.attempted = true ∧ m.current.result = true ∧
      Call.invocations (Tape.leap _) m (.connect .or :: ([.attempt (true, 3)]
        ++ .connectEnter .or :: (Call.busy ++ [.leaveGroup .required]))) = [] := by
  have start : Reached (Tape.leap #['a', 'b', 'c']) (.start (.clamped _ 0)) _ none := .new _
  have reached := (start.call .enterGroup).call (.attempt (true, 1))
  have joined := reached.call (.connect .or)
  have balanced : Call.Balanced (Tape.leap #['a', 'b', 'c']) (.clamped _ 0) Call.busy :=
    ⟨by decide, by decide, rfl⟩
  have more : Call.MoreOperands (Tape.leap #['a', 'b', 'c']) .or (.connect .or ::
      ([.attempt (true, 3)] ++ .connectEnter .or :: (Call.busy ++ [.leaveGroup .required]))) :=
    .joined (.single _) (.joinedGroup balanced _ .none)
  have ⟨_, one, _⟩ := joined.skipped_operand_passedBy (Tape.leap _)
  have ⟨_, _, several⟩ := reached.skipped_operand_passedBy (Tape.leap _)
  exact ⟨_, _, _, reached, joined, rfl, rfl, rfl, rfl, one _ (.group balanced _) rfl, rfl, rfl,
    (several _ _ more rfl rfl).2.1⟩

end ScanExpr
