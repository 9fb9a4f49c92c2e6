import ScanExpr.Matcher.Basic

/-!
# `ScanExpr.Matcher.Call`: calls that are checked when they are made

A `Call` is one of the things that can be asked of a matcher. Its operands
are of any type `ο`, and `eval` says what an operand does to a stream, so
one sequence of calls can be run with different operands.

* `Call.refusal?`: why a call makes no sense in a state of the matcher.
* `Call.run`: makes a call, or refuses it and leaves the matcher alone.
* `Call.runAll`: makes calls one after another.
-/

set_option autoImplicit false

namespace ScanExpr

/-- Something asked of a matcher, with operands of type `ο`. -/
inductive Call (ο : Type) where
  | attempt (operand : ο)
  | connect (c : Connective)
  | enterGroup
  /-- Reads a connective and opens a group after it. -/
  | connectEnter (c : Connective)
  | leaveGroup (q : Quantifier)
  | result
  /-- Gives up the expression. -/
  | restart

/-- The reply to a call. -/
inductive Reply (ρ : Type) where
  | done
  /-- An operand was read: the report of its run, or none if it was skipped. -/
  | attempted (report : Option ρ)
  | concluded (matched : Bool)
  | refused (misuse : Misuse)

/-- What a call leads to. -/
structure Outcome (σ μ ρ : Type) where
  reply : Reply ρ
  matcher : Matcher σ μ
  events : List Event

namespace Call

variable {σ μ ρ ο : Type}

/-- Why the call makes no sense in the matcher's state, if it does not. -/
def refusal? (m : Matcher σ μ) : Call ο → Option Misuse
  | .connect _ | .connectEnter _ =>
    if m.current.attempted then none else some .strayConnective
  | .leaveGroup _ => if m.suspended.isEmpty then some .noOpenGroup else none
  | .result =>
    if !m.attempted then some .nothingAttempted
    else if m.suspended.isEmpty then none
    else some (.groupsLeftOpen m.depth)
  | .attempt _ | .enterGroup | .restart => none

variable [Rewindable σ μ]

/-- Makes a call that has been found to make sense. -/
def perform (eval : ο → σ → Verdict σ ρ) (m : Matcher σ μ) : Call ο → Outcome σ μ ρ
  | .attempt operand =>
    let (next, report) := m.attempt (eval operand)
    ⟨.attempted report, next, []⟩
  | .connect c => ⟨.done, m.connect c, []⟩
  | .enterGroup =>
    let next := m.enterGroup
    ⟨.done, next, [next.openedEvent]⟩
  | .connectEnter c =>
    let next := (m.connect c).enterGroup
    ⟨.done, next, [next.openedEvent]⟩
  | .leaveGroup q => ⟨.done, m.leaveGroup q, [m.closedEvent q]⟩
  | .result => ⟨.concluded m.current.result, m.finish, [m.concludedEvent]⟩
  | .restart => ⟨.done, m.restart, []⟩

/-- Makes a call, unless it makes no sense: then it is refused and the
matcher stays as it is. -/
def run (eval : ο → σ → Verdict σ ρ) (m : Matcher σ μ) (call : Call ο) : Outcome σ μ ρ :=
  match call.refusal? m with
  | some misuse => ⟨.refused misuse, m, [.refused misuse]⟩
  | none => call.perform eval m

/-- Makes calls one after another, refused ones included, and returns what
each led to. -/
def runAll (eval : ο → σ → Verdict σ ρ) (m : Matcher σ μ) : List (Call ο) → List (Outcome σ μ ρ)
  | [] => []
  | call :: rest =>
    let outcome := call.run eval m
    outcome :: runAll eval outcome.matcher rest

end Call

namespace Outcome

variable {σ μ ρ : Type}

/-- The matcher after a sequence of calls that was made on `m`. -/
def finalMatcher (m : Matcher σ μ) : List (Outcome σ μ ρ) → Matcher σ μ
  | [] => m
  | outcome :: rest => finalMatcher outcome.matcher rest

end Outcome

end ScanExpr
