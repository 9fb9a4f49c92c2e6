import ScanExpr.Matcher.Call

/-!
# `ScanExpr.Matcher.Chain`: expressions that are right by their type

A `Chain` is an expression written down as a path through phases: where an
operand is expected, where a connective is expected, and where a group is
being closed and its quantifier is still to be chosen. The phase knows how
many groups are open, so a path that has a type closes only groups that it
opened and asks for the result only when all are closed. Nothing needs to
be checked while it runs.

* `Link`: one step from a phase to another.
* `Link.perform`: what the step does to a matcher.
* `Chain.run`: runs a path; it may stop before the result.
* `Move`, `Chain.ofMoves`: steps written without phases, and the longest
  path that they spell.
-/

set_option autoImplicit false

namespace ScanExpr

/-- What may come next in an expression. -/
inductive Phase where
  /-- An operand, with `depth` groups open. The phase is fresh if the level
  has had no operand yet, and only a fresh level may be closed here. -/
  | operand (depth : Nat) (fresh : Bool)
  /-- A connective or the end of the level, with `depth` groups open. -/
  | operator (depth : Nat)
  /-- The quantifier of a group, with `depth` groups open around it. -/
  | closing (depth : Nat)
  | concluded
deriving DecidableEq

/-- A step of an expression from one phase to another, with operands of
type `ο`. -/
inductive Link (ο : Type) : Phase → Phase → Type where
  | attempt {depth : Nat} {fresh : Bool} (operand : ο) :
    Link ο (.operand depth fresh) (.operator depth)
  | enterGroup {depth : Nat} {fresh : Bool} :
    Link ο (.operand depth fresh) (.operand (depth + 1) true)
  /-- The end of an empty group. -/
  | leaveEmpty {depth : Nat} : Link ο (.operand (depth + 1) true) (.closing depth)
  | leave {depth : Nat} : Link ο (.operator (depth + 1)) (.closing depth)
  /-- The quantifier of the group that ends. -/
  | quantify {depth : Nat} (q : Quantifier) : Link ο (.closing depth) (.operator depth)
  /-- The end of a group together with its quantifier. -/
  | leaveWith {depth : Nat} (q : Quantifier) : Link ο (.operator (depth + 1)) (.operator depth)
  | connect {depth : Nat} (c : Connective) : Link ο (.operator depth) (.operand depth false)
  | connectEnter {depth : Nat} (c : Connective) :
    Link ο (.operator depth) (.operand (depth + 1) true)
  | restart {depth : Nat} : Link ο (.operator depth) (.operand 0 true)
  | result : Link ο (.operator 0) .concluded

/-- A path of steps that starts in a phase. It may end anywhere, also before
the result. -/
inductive Chain (ο : Type) : Phase → Type where
  | stop {p : Phase} : Chain ο p
  | link {p q : Phase} (first : Link ο p q) (rest : Chain ο q) : Chain ο p

namespace Link

variable {σ μ ρ ο : Type} [Rewindable σ μ]

/-- What a step does to the matcher. A group is closed when its quantifier
is known; its end alone does nothing. -/
def perform (eval : ο → σ → Verdict σ ρ) (m : Matcher σ μ) {p q : Phase} :
    Link ο p q → Outcome σ μ ρ
  | .attempt operand =>
    let (next, report) := m.attempt (eval operand)
    ⟨.attempted report, next, []⟩
  | .enterGroup => ⟨.done, m.enterGroup, [m.enterGroup.openedEvent]⟩
  | .leaveEmpty | .leave => ⟨.done, m, []⟩
  | .quantify quantifier | .leaveWith quantifier =>
    ⟨.done, m.leaveGroup quantifier, [m.closedEvent quantifier]⟩
  | .connect c => ⟨.done, m.connect c, []⟩
  | .connectEnter c =>
    let joined := m.connect c
    ⟨.done, joined.enterGroup, [joined.enterGroup.openedEvent]⟩
  | .restart => ⟨.done, m.restart, []⟩
  | .result => ⟨.concluded m.current.result, m.finish, [m.concludedEvent]⟩

end Link

namespace Chain

variable {σ μ ρ ο : Type} [Rewindable σ μ]

/-- Takes the steps of a path one after another and returns what each led
to. -/
def follow (eval : ο → σ → Verdict σ ρ) (m : Matcher σ μ) {p : Phase} :
    Chain ο p → List (Outcome σ μ ρ)
  | .stop => []
  | .link first rest =>
    let outcome := first.perform eval m
    outcome :: rest.follow eval outcome.matcher

/-- Runs an expression from its beginning, giving up what the matcher was
doing. -/
def run (eval : ο → σ → Verdict σ ρ) (m : Matcher σ μ) (chain : Chain ο (.operand 0 true)) :
    List (Outcome σ μ ρ) :=
  chain.follow eval m.restart

end Chain

/-- A step of an expression, written without the phases. -/
inductive Move (ο : Type) where
  | attempt (operand : ο)
  | enterGroup
  | leave
  | quantify (q : Quantifier)
  | leaveWith (q : Quantifier)
  | connect (c : Connective)
  | connectEnter (c : Connective)
  | restart
  | result

namespace Chain

variable {ο : Type}

/-- The longest path from a phase that a list of moves spells: it stops
before the first move that the phase reached does not have. -/
def ofMoves (p : Phase) (moves : List (Move ο)) : Chain ο p :=
  match moves with
  | [] => .stop
  | move :: rest =>
    match p, move with
    | .operand _ _, .attempt operand => .link (.attempt operand) (ofMoves _ rest)
    | .operand _ _, .enterGroup => .link .enterGroup (ofMoves _ rest)
    | .operand (_ + 1) true, .leave => .link .leaveEmpty (ofMoves _ rest)
    | .operator (_ + 1), .leave => .link .leave (ofMoves _ rest)
    | .closing _, .quantify q => .link (.quantify q) (ofMoves _ rest)
    | .operator (_ + 1), .leaveWith q => .link (.leaveWith q) (ofMoves _ rest)
    | .operator _, .connect c => .link (.connect c) (ofMoves _ rest)
    | .operator _, .connectEnter c => .link (.connectEnter c) (ofMoves _ rest)
    | .operator _, .restart => .link .restart (ofMoves _ rest)
    | .operator 0, .result => .link .result (ofMoves _ rest)
    | _, _ => .stop

end Chain

end ScanExpr
