import ScanExpr.Script.Session

/-!
# `ScanExpr.Script.Step`: scripts as data

A script is a list of `Step`s. It is written without regard to the type of
stream that it runs on: its operands are primitives, routines, and scripts
that run on matchers of their own. The type `ω` holds the steps that only
one kind of stream can take; it is empty for a script that runs on all.

* `Step.run`, `Step.runAll`: take a step, or all steps of a script.
* `OperandSpec.eval`: the operand that a description stands for.
-/

set_option autoImplicit false

namespace ScanExpr

mutual

/-- The description of an operand. -/
inductive OperandSpec (ω : Type) where
  | primitive (p : Primitive)
  | routine (r : Routine)
  /-- A script on a matcher of its own. -/
  | nested (steps : List (Step ω))
  /-- A script that is run as often as it makes headway. -/
  | rounds (steps : List (Step ω))

/-- A step of a script. -/
inductive Step (ω : Type) where
  | call (c : Call (OperandSpec ω))
  /-- Runs an expression. -/
  | chain (moves : List (Except RangeError (Move (OperandSpec ω))))
  | stream (op : StreamOp)
  /-- Starts over with a new matcher. -/
  | rewrap
  /-- Would fold in a primitive, had its class been built. -/
  | faulty (cause : RangeError)
  | extra (op : ω)

end

/-- Streams of type `σ` can take the steps `ω`. -/
class ExtraOp (ω σ μ : Type) where
  exec : Session σ μ → ω → Answer × Session σ μ

instance {σ μ : Type} : ExtraOp Empty σ μ where
  exec _ op := nomatch op

section

variable {ω σ μ : Type} [CharStream σ μ] [Positioned σ μ] [ExtraOp ω σ μ]

mutual

/-- The operand that a description stands for. -/
def OperandSpec.eval : OperandSpec ω → Operand σ
  | .primitive p => Operand.primitive p
  | .routine r => Operand.routine r
  | .nested steps => Operand.script fun x => Step.runAll steps x
  | .rounds steps => Operand.rounds fun x => Step.runAll steps x
termination_by structural spec => spec

/-- The call with its operand evaluated. -/
def Step.evalCall : Call (OperandSpec ω) → Call (Operand σ)
  | .attempt spec => .attempt spec.eval
  | .connect c => .connect c
  | .enterGroup => .enterGroup
  | .connectEnter c => .connectEnter c
  | .leaveGroup q => .leaveGroup q
  | .result => .result
  | .restart => .restart
termination_by structural call => call

/-- The move with its operand evaluated. -/
def Step.evalMove : Move (OperandSpec ω) → Move (Operand σ)
  | .attempt spec => .attempt spec.eval
  | .enterGroup => .enterGroup
  | .leave => .leave
  | .quantify q => .quantify q
  | .leaveWith q => .leaveWith q
  | .connect c => .connect c
  | .connectEnter c => .connectEnter c
  | .restart => .restart
  | .result => .result
termination_by structural move => move

/-- A move, unless its class is at fault, with its operand evaluated. -/
def Step.evalMove? : Except RangeError (Move (OperandSpec ω)) → Except RangeError (Move (Operand σ))
  | .ok move => .ok (Step.evalMove move)
  | .error cause => .error cause
termination_by structural move => move

/-- The moves of an expression with their operands evaluated. -/
def Step.evalMoves :
    List (Except RangeError (Move (OperandSpec ω))) → List (Except RangeError (Move (Operand σ)))
  | [] => []
  | move :: rest => Step.evalMove? move :: Step.evalMoves rest
termination_by structural moves => moves

/-- Takes a step. -/
def Step.run (x : Session σ μ) : Step ω → Progress σ μ
  | .call c => x.call (Step.evalCall c)
  | .chain moves => x.chain (Step.evalMoves moves)
  | .stream op => x.streamOp op
  | .rewrap => x.rewrap
  | .faulty cause => ⟨.fault cause, x, []⟩
  | .extra op =>
    let (answer, y) := ExtraOp.exec x op
    ⟨answer, y, []⟩
termination_by structural step => step

/-- Takes the steps of a script one after another. -/
def Step.runAll : List (Step ω) → Session σ μ → List (Progress σ μ)
  | [], _ => []
  | step :: rest, x =>
    let progress := step.run x
    progress :: Step.runAll rest progress.session
termination_by structural steps => steps

end

end

/-- The steps that need a cursor. -/
inductive CursorStep where
  | cursor (op : CursorOp)
  | display

instance {src : Source} : ExtraOp CursorStep (Cursor src) Cursor.Mark where
  exec x
    | .cursor op =>
      let (answer, c) := op.run x.marks x.matcher.stream
      (answer, { x with matcher := { x.matcher with stream := c } })
    | .display => (.text (dump x.matcher), x)

end ScanExpr
