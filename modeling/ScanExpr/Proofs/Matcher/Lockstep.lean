import Mathlib.Data.List.Forall2
import ScanExpr.Proofs.Matcher.Run

/-!
# `ScanExpr.Proofs.Matcher.Lockstep`: what a refusal does not depend on

Whether a sequence of calls is legal is a matter of the calls alone. Two
matchers may read different texts with different operands, so that one
runs an operand or a whole group that the other skips, and one goes back
where the other goes on. Their results then differ, and so do their
streams and their notes about what to skip.

What decides about refusals moves in step all the same:

* `Call.SameKind`: calls that ask for the same, of operands and with
  quantifiers of their own.
* `Matcher.InStep`: matchers whose levels, from the innermost outwards,
  have had an operand or not and wait with a connective or without one in
  the same way.
* `Call.SameKind.run`: the step lemma. Matchers in step refuse calls of the
  same kind for the same reason, and are in step afterwards.
* `Call.inStep_runAll`: two runs of a sequence of calls from their starts.

A skipped operand leaves the level as attempted as one that was run, and
both use up the connective before it (`Matcher.InStep.attempt`); that is
all that keeps the input from having a say.
-/

set_option autoImplicit false

namespace ScanExpr

variable {σ τ μ ν ρ ρ' ο ο' : Type}

/-- Why the call was refused, if it was. -/
def Reply.misuse? : Reply ρ → Option Misuse
  | .refused misuse => some misuse
  | _ => none

/-- Calls that differ in nothing but their operand or their quantifier. -/
inductive Call.SameKind : Call ο → Call ο' → Prop where
  | attempt (operand : ο) (operand' : ο') : SameKind (.attempt operand) (.attempt operand')
  | connect (c : Connective) : SameKind (.connect c) (.connect c)
  | enterGroup : SameKind .enterGroup .enterGroup
  | connectEnter (c : Connective) : SameKind (.connectEnter c) (.connectEnter c)
  | leaveGroup (q q' : Quantifier) : SameKind (.leaveGroup q) (.leaveGroup q')
  | result : SameKind .result .result
  | restart : SameKind .restart .restart

/-- Levels with the same connective waiting, that have both had an operand
or both had none. -/
structure Level.InStep (l : Level μ) (k : Level ν) : Prop where
  attempted : l.attempted = k.attempted
  pending : l.pending = k.pending

/-- Matchers whose levels are in step, one by one. -/
structure Matcher.InStep (m : Matcher σ μ) (n : Matcher τ ν) : Prop where
  attempted : m.attempted = n.attempted
  current : m.current.InStep n.current
  suspended : List.Forall₂ Level.InStep m.suspended.levels n.suspended.levels

/-! ### Operations -/

namespace Matcher.InStep

variable {m : Matcher σ μ} {n : Matcher τ ν}

/-- Matchers in step have as many groups open. -/
theorem depth (inStep : m.InStep n) : m.depth = n.depth :=
  inStep.suspended.length_eq

/-- Where the streams stand plays no part. -/
theorem withStream (inStep : m.InStep n) (s : σ) (t : τ) :
    ({ m with stream := s } : Matcher σ μ).InStep { n with stream := t } :=
  ⟨inStep.attempted, inStep.current, inStep.suspended⟩

/-- Whatever the outcomes are, folding one in leaves no connective waiting
and a level that has had an operand. -/
theorem fold (inStep : m.InStep n) (x y : Bool) : (m.fold x).InStep (n.fold y) where
  attempted := rfl
  current := ⟨rfl, rfl⟩
  suspended := inStep.suspended

/-- An operand that is run by one matcher may be skipped by the other. -/
theorem attempt (inStep : m.InStep n) (operand : σ → Verdict σ ρ) (operand' : τ → Verdict τ ρ') :
    (m.attempt operand).1.InStep (n.attempt operand').1 := by
  rw [Matcher.attempt, Matcher.attempt]
  -- Skipped or run on each side: in all four cases an outcome is folded in.
  cases m.current.skipsNext <;> cases n.current.skipsNext <;>
    exact (inStep.withStream _ _).fold _ _

/-- A connective that is read by both waits in both. -/
theorem connect (inStep : m.InStep n) (c : Connective) : (m.connect c).InStep (n.connect c) where
  attempted := inStep.attempted
  current := ⟨inStep.current.attempted, rfl⟩
  suspended := inStep.suspended

variable [Rewindable σ μ] [Rewindable τ ν]

/-- New matchers are in step, wherever they start. -/
theorem start (s : σ) (t : τ) : (Matcher.start s).InStep (Matcher.start t) :=
  ⟨rfl, ⟨rfl, rfl⟩, .nil⟩

/-- A group that is opened in both has had no operand in either, whether or not
it is skipped. -/
theorem enterGroup (inStep : m.InStep n) : m.enterGroup.InStep n.enterGroup where
  attempted := inStep.attempted
  current := ⟨rfl, rfl⟩
  suspended := .cons inStep.current inStep.suspended

/-- A group that is closed may match on one side and be rewound on the
other, and may count for different outcomes. -/
theorem leaveGroup (inStep : m.InStep n) (q q' : Quantifier) :
    (m.leaveGroup q).InStep (n.leaveGroup q') := by
  obtain ⟨_, ⟨levels⟩, _, _⟩ := m
  obtain ⟨_, ⟨levels'⟩, _, _⟩ := n
  -- The levels that are resumed are in step whatever became of the groups inside them.
  cases inStep.suspended with
  | nil => exact ⟨rfl, ⟨rfl, rfl⟩, .nil⟩
  | cons _ rest => exact ⟨rfl, ⟨rfl, rfl⟩, rest⟩

end Matcher.InStep

/-! ### Calls -/

namespace Call

variable {m : Matcher σ μ} {n : Matcher τ ν} {call : Call ο} {call' : Call ο'}

/-- Matchers in step have the same reason to refuse, if they have one. -/
theorem SameKind.refusal?_eq (same : SameKind call call') (inStep : m.InStep n) :
    call.refusal? m = call'.refusal? n := by
  have isEmpty := LevelStack.isEmpty_eq_of_depth_eq inStep.depth
  -- An operand and a quantifier are never a reason to refuse, and these alone may differ.
  cases same with
  | connect _ | connectEnter _ => rw [refusal?, refusal?, inStep.current.attempted]
  | leaveGroup _ _ => rw [refusal?, refusal?, isEmpty]
  | result => rw [refusal?, refusal?, inStep.attempted, isEmpty, inStep.depth]
  | attempt _ _ | enterGroup | restart => rfl

variable [Rewindable σ μ] [Rewindable τ ν]

/-- The reply to a call names the reason to refuse it, if there is one. -/
theorem misuse?_run (eval : ο → σ → Verdict σ ρ) (m : Matcher σ μ) (call : Call ο) :
    (call.run eval m).reply.misuse? = call.refusal? m := by
  rw [run]
  cases call.refusal? m with
  | some misuse => rfl
  | none => cases call <;> rfl

/-- Calls of the same kind that are made keep matchers in step. -/
theorem SameKind.perform (same : SameKind call call') (inStep : m.InStep n)
    (eval : ο → σ → Verdict σ ρ) (eval' : ο' → τ → Verdict τ ρ') :
    (call.perform eval m).matcher.InStep (call'.perform eval' n).matcher := by
  cases same with
  | attempt operand operand' => exact inStep.attempt (eval operand) (eval' operand')
  | connect c => exact inStep.connect c
  | enterGroup => exact inStep.enterGroup
  | connectEnter c => exact (inStep.connect c).enterGroup
  | leaveGroup q q' => exact inStep.leaveGroup q q'
  | result | restart => exact .start _ _

/-- Matchers in step make calls of the same kind or refuse them for the same
reason, and are in step afterwards. -/
theorem SameKind.run (same : SameKind call call') (inStep : m.InStep n)
    (eval : ο → σ → Verdict σ ρ) (eval' : ο' → τ → Verdict τ ρ') :
    (call.run eval m).reply.misuse? = (call'.run eval' n).reply.misuse? ∧
      (call.run eval m).matcher.InStep (call'.run eval' n).matcher := by
  have reason := same.refusal?_eq inStep
  refine ⟨?_, ?_⟩
  · rw [misuse?_run, misuse?_run, reason]
  · rw [Call.run, Call.run, ← reason]
    cases call.refusal? m with
    | some misuse => exact inStep
    | none => exact same.perform inStep eval eval'

/-- Sequences of calls, each of the same kind as its counterpart, keep
matchers in step all the way. -/
theorem inStep_runAll_of_inStep {calls : List (Call ο)} {calls' : List (Call ο')}
    (same : List.Forall₂ SameKind calls calls') (inStep : m.InStep n)
    (eval : ο → σ → Verdict σ ρ) (eval' : ο' → τ → Verdict τ ρ') :
    List.Forall₂
      (fun x y => x.reply.misuse? = y.reply.misuse? ∧ x.matcher.depth = y.matcher.depth ∧
        x.matcher.InStep y.matcher)
      (runAll eval m calls) (runAll eval' n calls') := by
  induction same generalizing m n with
  | nil => exact .nil
  | cons first _ ih =>
    have ⟨reason, next⟩ := first.run inStep eval eval'
    exact .cons ⟨reason, next.depth, next⟩ (ih next)

/-- Two matchers at the start of an expression, on streams and texts of any
kind, are asked for the same things in the same order. Their operands and
quantifiers may differ, and so may all outcomes. At every step both make
the call or both refuse it for the same misuse, and then they have as many
groups open, have both had an operand in the expression or not, and agree
level by level on whether the level has had one and on the connective that
waits there. -/
theorem inStep_runAll {calls : List (Call ο)} {calls' : List (Call ο')}
    (same : List.Forall₂ SameKind calls calls') (eval : ο → σ → Verdict σ ρ)
    (eval' : ο' → τ → Verdict τ ρ') (s : σ) (t : τ) :
    List.Forall₂
      (fun x y => x.reply.misuse? = y.reply.misuse? ∧ x.matcher.depth = y.matcher.depth ∧
        x.matcher.InStep y.matcher)
      (runAll eval (.start s) calls) (runAll eval' (.start t) calls') :=
  inStep_runAll_of_inStep same (.start s t) eval eval'

/-- An operand that matches and a group that is skipped after it, with
three calls that are refused. -/
def matching : List (Call (Bool × Nat)) :=
  [.connect .and, .attempt (true, 1), .connectEnter .or, .connect .or, .attempt (true, 2), .result,
    .leaveGroup .optional, .leaveGroup .required, .result]

/-- The same with an operand that does not match, so that the group is
evaluated, and with the quantifiers exchanged. -/
def failing : List (Call (Bool × Nat)) :=
  [.connect .and, .attempt (false, 0), .connectEnter .or, .connect .or, .attempt (false, 2), .result,
    .leaveGroup .required, .leaveGroup .optional, .result]

/-- On one text the operand of the group is skipped and the expression
matches, on another the operand is run and the expression fails, and the
same calls are refused. -/
theorem inStep_runAll_matching_failing :
    List.Forall₂ SameKind matching failing ∧
    invocations (Tape.leap #['a', 'b', 'c']) (.start (.clamped _ 0)) matching
      = [((true, 1), .clamped _ 0)] ∧
    invocations (Tape.leap #['x', 'y']) (.start (.clamped _ 1)) failing
      = [((false, 0), .clamped _ 1), ((false, 2), .clamped _ 0)] ∧
    (runAll (Tape.leap #['x', 'y']) (.start (.clamped _ 1)) failing).map (·.reply.misuse?)
      = [some .strayConnective, none, none, some .strayConnective, none,
          some (.groupsLeftOpen 1), none, some .noOpenGroup, none] := by
  have same : List.Forall₂ SameKind matching failing :=
    .cons (.connect _) <| .cons (.attempt _ _) <| .cons (.connectEnter _) <| .cons (.connect _) <|
      .cons (.attempt _ _) <| .cons .result <| .cons (.leaveGroup _ _) <|
      .cons (.leaveGroup _ _) <| .cons .result .nil
  have inStep := inStep_runAll same (Tape.leap #['a', 'b', 'c']) (Tape.leap #['x', 'y'])
    (.clamped _ 0) (.clamped _ 1)
  -- The refusals on the one side are evaluated, and those on the other are the same.
  have misuses : (runAll (Tape.leap #['a', 'b', 'c']) (.start (.clamped _ 0)) matching).map
        (·.reply.misuse?)
      = (runAll (Tape.leap #['x', 'y']) (.start (.clamped _ 1)) failing).map (·.reply.misuse?) := by
    rw [← List.forall₂_eq_eq_eq, List.forall₂_map_left_iff, List.forall₂_map_right_iff]
    exact inStep.imp fun _ _ same => same.1
  refine ⟨same, rfl, rfl, ?_⟩
  rw [← misuses]
  rfl

end Call

end ScanExpr
