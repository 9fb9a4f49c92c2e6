import ScanExpr.Expr.LevelStack
import ScanExpr.Matcher.Event
import ScanExpr.Stream.Basic

/-!
# `ScanExpr.Matcher.Basic`: evaluating an expression while it is read

A `Matcher` evaluates an expression operand by operand, as its parts are
handed to it. It owns a stream and the levels of the expression: those
that wait and the one that receives operands now. A group that closes on
a false result takes the stream back to where the group was opened, and a
false expression takes it back to where the expression began.

The operations here can be applied in any state. `ScanExpr.Matcher.Call`
refuses those that make no sense, and `ScanExpr.Matcher.Chain` has types
by which they cannot be written down.
-/

set_option autoImplicit false

namespace ScanExpr

/-- What an operand makes of a stream: whether it matched, the stream after
it, and a report for whoever asked. -/
structure Verdict (σ ρ : Type) where
  matched : Bool
  stream : σ
  report : ρ

/-- An expression in progress over a stream of type `σ` with marks of type
`μ`. -/
structure Matcher (σ μ : Type) where
  stream : σ
  /-- The levels around the current one. -/
  suspended : LevelStack μ
  /-- The level that receives operands. -/
  current : Level μ
  /-- Whether the expression has had an operand. -/
  attempted : Bool

namespace Matcher

variable {σ μ ρ : Type}

/-- The number of open groups. -/
def depth (m : Matcher σ μ) : Nat :=
  m.suspended.depth

/-- Folds an outcome into the current level. -/
def fold (m : Matcher σ μ) (outcome : Bool) : Matcher σ μ :=
  { m with current := m.current.fold outcome, attempted := true }

/-- Reads an operand: runs it on the stream and folds its outcome in,
unless it is skipped. Returns the operand's report if it was run. -/
def attempt (m : Matcher σ μ) (operand : σ → Verdict σ ρ) : Matcher σ μ × Option ρ :=
  if m.current.skipsNext then (m.fold false, none)
  else
    let verdict := operand m.stream
    ({ m with stream := verdict.stream }.fold verdict.matched, some verdict.report)

/-- Reads a connective. -/
def connect (m : Matcher σ μ) (c : Connective) : Matcher σ μ :=
  { m with current := m.current.setPending (some c) }

section

variable [Rewindable σ μ]

/-- A matcher at the start of an expression, anchored where the stream
stands. -/
def start (s : σ) : Matcher σ μ where
  stream := s
  suspended := .empty
  current := .outermost (mark s)
  attempted := false

/-- Gives up the expression and starts another where the stream stands. -/
def restart (m : Matcher σ μ) : Matcher σ μ :=
  start m.stream

/-- Opens a group as the next operand. -/
def enterGroup (m : Matcher σ μ) : Matcher σ μ :=
  { m with
    suspended := m.suspended.push m.current
    current := .opened (mark m.stream) m.current.skipsChild }

/-- Closes the innermost group, rewinding the stream if its result is
false, and folds what the group counts for into the level around it. -/
def leaveGroup (m : Matcher σ μ) (q : Quantifier) : Matcher σ μ :=
  let inner := m.current.result
  let stream := if inner then m.stream else rewind m.stream m.current.entry
  let resumed : Matcher σ μ :=
    match m.suspended.pop? with
    | some (parent, rest) => { m with stream, suspended := rest, current := parent }
    | none => { m with stream }
  resumed.fold (q.outcome inner)

/-- Ends the expression, rewinding the stream if its result is false, and
starts another. -/
def finish (m : Matcher σ μ) : Matcher σ μ :=
  start (if m.current.result then m.stream else rewind m.stream m.current.entry)

end

/-! ### Reports -/

/-- The report of the group that was opened last. -/
def openedEvent (m : Matcher σ μ) : Event :=
  .opened m.depth m.current.skipsAll

/-- The report of the innermost group when it is closed. -/
def closedEvent (m : Matcher σ μ) (q : Quantifier) : Event :=
  .closed m.depth q m.current.result (q.outcome m.current.result) (!m.current.result)

/-- The report of the expression when it is concluded. -/
def concludedEvent (m : Matcher σ μ) : Event :=
  .concluded m.current.result

/-- A matcher shows its stream and the level in progress. -/
instance [Dump σ] [Dump μ] : Dump (Matcher σ μ) where
  dump m := Text.record "Matcher"
    [("cursor", dump m.stream), ("depth", dump m.depth), ("current", dump m.current),
      ("has_attempted", dump m.attempted)]

end Matcher

end ScanExpr
