import ScanExpr.Matcher.Call
import ScanExpr.Stream.Tape

/-!
# `ScanExpr.Proofs.Matcher.Run`: what a sequence of calls comes to

A sequence of calls leaves a matcher behind (`Call.after`) and runs some
of the operands on the way (`Call.invocations`). `Call.Accepted` says that
none of the calls is refused. All three of them split at any point of the
sequence, which is what inductions over calls rest on.

`connectEnter` is nothing new: `Call.expand` replaces it by a connective
and the start of a group, and no accepted sequence tells the difference
(`Call.Accepted.expand`).
-/

set_option autoImplicit false

namespace ScanExpr

/-- Whether the call was refused. -/
def Reply.isRefused {ρ : Type} : Reply ρ → Bool
  | .refused _ => true
  | _ => false

/-- After an operand there has been one, in its level and in the
expression. -/
theorem Matcher.attempted_attempt {σ μ ρ : Type} (m : Matcher σ μ) (operand : σ → Verdict σ ρ) :
    (m.attempt operand).1.current.attempted = true ∧ (m.attempt operand).1.attempted = true := by
  rw [attempt]
  split <;> exact ⟨rfl, rfl⟩

namespace Call

variable {σ μ ρ ο : Type}

/-- Whether the call ends an expression, so that the next one begins. -/
def isAnchor : Call ο → Bool
  | .result | .restart => true
  | _ => false

/-- The call, or the connective and the start of a group that it stands
for. -/
def expand : Call ο → List (Call ο)
  | .connectEnter c => [.connect c, .enterGroup]
  | call => [call]

/-- How a call that is made changes the number of open groups. -/
def depthAfter (depth : Nat) : Call ο → Nat
  | .enterGroup | .connectEnter _ => depth + 1
  | .leaveGroup _ => depth - 1
  | .result | .restart => 0
  | .attempt _ | .connect _ => depth

/-! ### What makes sense -/

section

variable {m : Matcher σ μ}

/-- A connective makes sense where the level has had an operand. -/
theorem refusal?_connect_eq_none_iff {c : Connective} :
    refusal? m (.connect c : Call ο) = none ↔ m.current.attempted = true := by
  rw [refusal?]
  cases m.current.attempted <;> simp

/-- A group can be closed where one is open. -/
theorem refusal?_leaveGroup_eq_none_iff {q : Quantifier} :
    refusal? m (.leaveGroup q : Call ο) = none ↔ 0 < m.depth := by
  rw [refusal?, Nat.pos_iff_ne_zero, Matcher.depth, Ne,
    ← LevelStack.isEmpty_iff_depth_eq_zero]
  cases m.suspended.isEmpty <;> simp

/-- The result can be asked for when there has been an operand and no group is
open. -/
theorem refusal?_result_eq_none_iff :
    refusal? m (.result : Call ο) = none ↔ m.attempted = true ∧ m.depth = 0 := by
  rw [refusal?, Matcher.depth, ← LevelStack.isEmpty_iff_depth_eq_zero]
  cases m.attempted <;> cases m.suspended.isEmpty <;> simp

end

/-! ### Sequences of calls -/

variable [Rewindable σ μ] {eval : ο → σ → Verdict σ ρ}

/-- The matcher after a sequence of calls. -/
def after (eval : ο → σ → Verdict σ ρ) (m : Matcher σ μ) (calls : List (Call ο)) :
    Matcher σ μ :=
  Outcome.finalMatcher m (runAll eval m calls)

/-- No call of the sequence is refused. -/
def Accepted (eval : ο → σ → Verdict σ ρ) (m : Matcher σ μ) (calls : List (Call ο)) : Prop :=
  ∀ outcome ∈ runAll eval m calls, outcome.reply.isRefused = false

/-- The operand that the call runs and the stream that it is run on, if
the call runs one. -/
def invocation? (eval : ο → σ → Verdict σ ρ) (m : Matcher σ μ) (call : Call ο) :
    Option (ο × σ) :=
  match call, (call.run eval m).reply with
  | .attempt operand, .attempted (some _) => some (operand, m.stream)
  | _, _ => none

/-- The operands that a sequence of calls runs, in order, each with the
stream that it is run on. -/
def invocations (eval : ο → σ → Verdict σ ρ) (m : Matcher σ μ) :
    List (Call ο) → List (ο × σ)
  | [] => []
  | call :: rest =>
    (call.invocation? eval m).toList ++ invocations eval (call.run eval m).matcher rest

/-! ### One call after another -/

/-- Without a call the matcher stays as it is. -/
@[simp]
theorem after_nil (m : Matcher σ μ) : after eval m [] = m := rfl

/-- The first call leads to the matcher on which the others are made. -/
@[simp]
theorem after_cons (m : Matcher σ μ) (call : Call ο) (rest : List (Call ο)) :
    after eval m (call :: rest) = after eval (call.run eval m).matcher rest := rfl

/-- Calls lead where their last part leads from where their first part does. -/
theorem after_append (m : Matcher σ μ) (calls rest : List (Call ο)) :
    after eval m (calls ++ rest) = after eval (after eval m calls) rest := by
  induction calls generalizing m with
  | nil => rfl
  | cons call calls ih => exact ih _

/-- The first call runs its operand, if it has one to run, before all others. -/
@[simp]
theorem invocations_cons (m : Matcher σ μ) (call : Call ο) (rest : List (Call ο)) :
    invocations eval m (call :: rest)
      = (call.invocation? eval m).toList
        ++ invocations eval (call.run eval m).matcher rest := rfl

/-- The operands that are run by calls are those of their first part and then
those of their last part. -/
theorem invocations_append (m : Matcher σ μ) (calls rest : List (Call ο)) :
    invocations eval m (calls ++ rest)
      = invocations eval m calls ++ invocations eval (after eval m calls) rest := by
  induction calls generalizing m with
  | nil => rfl
  | cons call calls ih =>
    rw [List.cons_append, invocations_cons, invocations_cons, ih, after_cons,
      List.append_assoc]

/-- The last part of a sequence of calls is made where the first part has led. -/
theorem runAll_append (m : Matcher σ μ) (calls rest : List (Call ο)) :
    runAll eval m (calls ++ rest)
      = runAll eval m calls ++ runAll eval (after eval m calls) rest := by
  induction calls generalizing m with
  | nil => rfl
  | cons call calls ih => exact congrArg (_ :: ·) (ih _)

/-! ### Accepted calls -/

/-- How a call that is made changes the number of open groups is a matter of
the call alone. -/
theorem depth_perform (m : Matcher σ μ) (call : Call ο) :
    (call.perform eval m).matcher.depth = call.depthAfter m.depth := by
  cases call with
  | attempt operand =>
    -- Skipped or run, an operand is folded into the level that is there.
    show (m.attempt (eval operand)).1.depth = m.depth
    rw [Matcher.attempt]
    split <;> rfl
  | leaveGroup q =>
    -- With no group open there is nothing to resume, and the depth stays zero.
    obtain ⟨stream, ⟨levels⟩, current, attempted⟩ := m
    cases levels <;> rfl
  | connect _ | enterGroup | connectEnter _ | result | restart => rfl

/-- A call is made unless there is a reason to refuse it. -/
theorem run_of_refusal?_eq_none {m : Matcher σ μ} {call : Call ο}
    (h : call.refusal? m = none) : call.run eval m = call.perform eval m := by
  rw [run, h]

/-- The reply to a call that is made is never a refusal. -/
theorem isRefused_perform (m : Matcher σ μ) (call : Call ο) :
    (call.perform eval m).reply.isRefused = false := by
  cases call <;> rfl

/-- A call is refused exactly if there is a reason to. -/
theorem isRefused_run_eq_false_iff {m : Matcher σ μ} {call : Call ο} :
    (call.run eval m).reply.isRefused = false ↔ call.refusal? m = none := by
  rw [run]
  -- Only a reason leads to the reply of a refusal.
  cases h : call.refusal? m with
  | none => simp only [isRefused_perform]
  | some misuse => simp [Reply.isRefused]

instance (eval : ο → σ → Verdict σ ρ) (m : Matcher σ μ) (calls : List (Call ο)) :
    Decidable (Accepted eval m calls) :=
  inferInstanceAs (Decidable (∀ outcome ∈ runAll eval m calls, outcome.reply.isRefused = false))

/-- Where there are no calls none is refused. -/
theorem accepted_nil (m : Matcher σ μ) : Accepted eval m ([] : List (Call ο)) := by
  intro outcome h
  cases h

/-- Calls are accepted if the first one makes sense and the others are accepted
where it leads. -/
theorem accepted_cons {m : Matcher σ μ} {call : Call ο} {rest : List (Call ο)} :
    Accepted eval m (call :: rest)
      ↔ call.refusal? m = none ∧ Accepted eval (call.run eval m).matcher rest := by
  rw [Accepted, runAll, List.forall_mem_cons, isRefused_run_eq_false_iff]
  rfl

/-- Calls are accepted if both their parts are, each from where it is made. -/
theorem accepted_append {m : Matcher σ μ} {calls rest : List (Call ο)} :
    Accepted eval m (calls ++ rest)
      ↔ Accepted eval m calls ∧ Accepted eval (after eval m calls) rest := by
  rw [Accepted, runAll_append, List.forall_mem_append]
  rfl

/-- The last answer to accepted calls that end by asking for the result. -/
theorem Accepted.getLast?_runAll_result {m : Matcher σ μ} {calls : List (Call ο)}
    (accepted : Accepted eval m (calls ++ [.result])) :
    (runAll eval m (calls ++ [.result])).getLast?
      = some (Call.result.perform eval (after eval m calls)) := by
  have ⟨_, last⟩ := accepted_append.1 accepted
  have ⟨sensible, _⟩ := accepted_cons.1 last
  -- The calls before it make no difference to the last answer but for where they lead.
  rw [runAll_append, runAll, runAll, List.getLast?_concat, run_of_refusal?_eq_none sensible]

/-! ### Single calls -/

/-- A skipped operand is folded in without being run. -/
theorem run_attempt_of_skipsNext {m : Matcher σ μ} (h : m.current.skipsNext = true) (op : ο) :
    (Call.attempt op).run eval m = ⟨.attempted none, m.fold false, []⟩ := by
  rw [run_of_refusal?_eq_none rfl, perform, Matcher.attempt, if_pos h]

/-- An operand that is not skipped moves the stream, and its outcome is folded
in. -/
theorem run_attempt_of_runs {m : Matcher σ μ} (h : m.current.skipsNext = false) (op : ο) :
    (Call.attempt op).run eval m
      = ⟨.attempted (some (eval op m.stream).report),
          { m with stream := (eval op m.stream).stream }.fold (eval op m.stream).matched, []⟩ := by
  rw [run_of_refusal?_eq_none rfl, perform, Matcher.attempt, h]
  rfl

/-- A skipped operand is not among those that are run. -/
theorem invocation?_attempt_of_skipsNext {m : Matcher σ μ} (h : m.current.skipsNext = true)
    (op : ο) : (Call.attempt op).invocation? eval m = none := by
  simp only [invocation?, run_attempt_of_skipsNext h]

/-- An operand that is not skipped is run where the stream stands. -/
theorem invocation?_attempt_of_runs {m : Matcher σ μ} (h : m.current.skipsNext = false)
    (op : ο) : (Call.attempt op).invocation? eval m = some (op, m.stream) := by
  simp only [invocation?, run_attempt_of_runs h]

/-- After an operand, skipped or not, the level has had one. -/
theorem attempted_run_attempt (m : Matcher σ μ) (op : ο) :
    ((Call.attempt op).run eval m).matcher.current.attempted = true :=
  (m.attempted_attempt (eval op)).1

/-- A connective that makes sense is noted, and nothing is reported. -/
theorem run_connect {m : Matcher σ μ} (h : m.current.attempted = true) (c : Connective) :
    (Call.connect c : Call ο).run eval m = ⟨.done, m.connect c, []⟩ :=
  run_of_refusal?_eq_none (refusal?_connect_eq_none_iff.2 h)

/-- Where a group is open it is closed, and that is reported. -/
theorem run_leaveGroup {m : Matcher σ μ} (h : 0 < m.depth) (q : Quantifier) :
    (Call.leaveGroup q : Call ο).run eval m = ⟨.done, m.leaveGroup q, [m.closedEvent q]⟩ :=
  run_of_refusal?_eq_none (refusal?_leaveGroup_eq_none_iff.2 h)

/-! ### Without `connectEnter` -/

/-- Where it makes sense, `connectEnter` leads where a connective and the
start of a group lead. -/
theorem matcher_run_connect_enterGroup (eval : ο → σ → Verdict σ ρ) {m : Matcher σ μ}
    {c : Connective} (sensible : (Call.connectEnter c : Call ο).refusal? m = none) :
    ((Call.enterGroup : Call ο).run eval ((Call.connect c : Call ο).run eval m).matcher).matcher
      = ((Call.connectEnter c : Call ο).run eval m).matcher := by
  have joins : (Call.connect c : Call ο).refusal? m = none := sensible
  rw [run_of_refusal?_eq_none joins, run_of_refusal?_eq_none sensible]
  rfl

/-- Accepted calls lead to the same matcher and run the same operands when
every `connectEnter` is made in two steps, and then too all of them are
accepted. -/
theorem Accepted.expand {m : Matcher σ μ} {calls : List (Call ο)}
    (accepted : Accepted eval m calls) :
    Accepted eval m (calls.flatMap Call.expand) ∧
    after eval m (calls.flatMap Call.expand) = after eval m calls ∧
    invocations eval m (calls.flatMap Call.expand) = invocations eval m calls := by
  induction calls generalizing m with
  | nil => exact ⟨accepted, rfl, rfl⟩
  | cons call calls ih =>
    have ⟨sensible, others⟩ := accepted_cons.1 accepted
    -- The matcher behind the first call is the same for all three parts.
    have ⟨h₁, h₂, h₃⟩ := ih others
    rw [List.flatMap_cons, accepted_append, after_append, invocations_append]
    cases call with
    | connectEnter c =>
      -- The connective makes sense for the same reason as the call that it is taken from.
      have joins : (Call.connect c : Call ο).refusal? m = none := sensible
      have two_steps : after eval m (Call.connectEnter c : Call ο).expand
          = ((Call.connectEnter c : Call ο).run eval m).matcher :=
        matcher_run_connect_enterGroup eval sensible
      have silent : invocations eval m (Call.connectEnter c : Call ο).expand = [] := rfl
      rw [two_steps, silent]
      refine ⟨⟨?_, h₁⟩, h₂, ?_⟩
      · rw [Call.expand, accepted_cons, accepted_cons]
        exact ⟨joins, rfl, accepted_nil _⟩
      · rw [h₃]
        rfl
    | attempt _ | connect _ | enterGroup | leaveGroup _ | result | restart =>
      -- Every other call stands for itself.
      refine ⟨⟨accepted_cons.2 ⟨sensible, accepted_nil _⟩, h₁⟩, h₂, ?_⟩
      show (Call.invocation? eval m _).toList ++ [] ++ _ = _
      rw [List.append_nil, invocations_cons, ← h₃]
      rfl

/-- Calls are accepted if they are accepted with every `connectEnter` made
in two steps. -/
theorem accepted_of_accepted_expand {m : Matcher σ μ} {calls : List (Call ο)}
    (accepted : Accepted eval m (calls.flatMap Call.expand)) : Accepted eval m calls := by
  induction calls generalizing m with
  | nil => exact accepted
  | cons call calls ih =>
    rw [List.flatMap_cons, accepted_append] at accepted
    obtain ⟨first, others⟩ := accepted
    cases call with
    | connectEnter c =>
      -- The connective is refused exactly where the call is that it is taken from.
      have sensible : (Call.connectEnter c : Call ο).refusal? m = none := (accepted_cons.1 first).1
      have two_steps : after eval m (Call.connectEnter c : Call ο).expand
          = ((Call.connectEnter c : Call ο).run eval m).matcher :=
        matcher_run_connect_enterGroup eval sensible
      rw [two_steps] at others
      exact accepted_cons.2 ⟨sensible, ih others⟩
    | attempt _ | connect _ | enterGroup | leaveGroup _ | result | restart =>
      exact accepted_cons.2 ⟨(accepted_cons.1 first).1, ih others⟩

end Call

/-- An operand that goes to a place on the tape, whatever is there, and
has a fixed outcome. -/
def Tape.leap (text : Array Char) (op : Bool × Nat) (_ : Tape text) : Verdict (Tape text) Unit :=
  ⟨op.1, .clamped text op.2, ()⟩

end ScanExpr
