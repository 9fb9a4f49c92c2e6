import ScanExpr.Matcher.Chain
import ScanExpr.Script.StreamOp
import ScanExpr.Stream.Routine

/-!
# `ScanExpr.Script.Session`: a matcher and the marks taken on its stream

A `Session` is a matcher that is being used together with the marks that
have been taken by name. Each thing that can be done to it answers with a
`Progress`: the answer, the session afterwards, and what was reported on
the way, by matchers that operands ran on the same stream too.

* `Session.call`, `Session.chain`: make a call, or run an expression.
* `Operand.script`: an operand that runs a script on a matcher of its own.
* `Operand.rounds`: one that runs a script as long as it makes headway.
-/

set_option autoImplicit false

namespace ScanExpr

/-- What an operand of a session reports: its answer, and the events of the
matchers that it ran. -/
structure Report where
  answer : Answer
  events : List Event

/-- A function on streams that can be folded into a matcher. -/
abbrev Operand (σ : Type) := σ → Verdict σ Report

/-- A matcher in use. -/
structure Session (σ μ : Type) where
  matcher : Matcher σ μ
  marks : Marks μ

/-- What a step of a session leads to. -/
structure Progress (σ μ : Type) where
  answer : Answer
  session : Session σ μ
  events : List Event

namespace Progress

variable {σ μ : Type}

/-- The session after a sequence of steps that began with `x`. -/
def finalSession (x : Session σ μ) : List (Progress σ μ) → Session σ μ
  | [] => x
  | p :: rest => finalSession p.session rest

/-- All events of a sequence of steps. -/
def allEvents (steps : List (Progress σ μ)) : List Event :=
  steps.flatMap (·.events)

/-- The answers of a sequence of steps. -/
def answers (steps : List (Progress σ μ)) : List Answer :=
  steps.map (·.answer)

end Progress

namespace Outcome

variable {σ μ : Type}

/-- The report of the operand, if the call ran one. -/
def report? (o : Outcome σ μ Report) : Option Report :=
  match o.reply with
  | .attempted report => report
  | _ => none

/-- The answer of the operand, if the call ran one. -/
def operandAnswer (o : Outcome σ μ Report) : Answer :=
  match o.report? with
  | some report => report.answer
  | none => .nothing

/-- The answer to the caller. -/
def answer (o : Outcome σ μ Report) : Answer :=
  match o.reply with
  | .done => .nothing
  | .attempted _ => o.operandAnswer
  | .concluded matched => .flag matched
  | .refused misuse => .misuse misuse

/-- The matcher's own events and those of its operand. -/
def allEvents (o : Outcome σ μ Report) : List Event :=
  match o.report? with
  | some report => o.events ++ report.events
  | none => o.events

/-- The result of an expression whose steps led to the given outcomes. -/
def result? (outcomes : List (Outcome σ μ Report)) : Option Bool :=
  match outcomes.getLast? with
  | some ⟨.concluded matched, _, _⟩ => some matched
  | _ => none

end Outcome

/-- The moves of an expression up to the first whose class cannot be built,
and why it cannot. -/
def Move.untilFault {ο : Type} : List (Except RangeError (Move ο)) → List (Move ο) × Option RangeError
  | [] => ([], none)
  | .error cause :: _ => ([], some cause)
  | .ok move :: rest =>
    let (moves, fault) := untilFault rest
    (move :: moves, fault)

namespace Session

variable {σ μ : Type} [CharStream σ μ]

/-- A session whose expression starts where the stream stands. -/
def start (s : σ) : Session σ μ :=
  ⟨.start s, []⟩

/-- Makes a call. -/
def call (x : Session σ μ) (c : Call (Operand σ)) : Progress σ μ :=
  let outcome := c.run (fun operand => operand) x.matcher
  ⟨outcome.answer, { x with matcher := outcome.matcher }, outcome.allEvents⟩

/-- Runs an expression. If the class of an operand cannot be built, the
expression ends there and that is the answer. -/
def chain (x : Session σ μ) (steps : List (Except RangeError (Move (Operand σ)))) :
    Progress σ μ :=
  let (moves, fault) := Move.untilFault steps
  let path := Chain.ofMoves (.operand 0 true) moves
  let outcomes := path.run (fun operand => operand) x.matcher
  let answer : Answer :=
    match fault with
    | some cause => .fault cause
    | none => .chain (outcomes.map (·.operandAnswer)) (Outcome.result? outcomes)
  ⟨answer, { x with matcher := Outcome.finalMatcher x.matcher.restart outcomes },
    outcomes.flatMap (·.allEvents)⟩

/-- Takes a step on the matcher's stream, behind its back. -/
def streamOp [Positioned σ μ] (x : Session σ μ) (op : StreamOp) : Progress σ μ :=
  let (answer, marks, stream) := op.run x.marks x.matcher.stream
  ⟨answer, ⟨{ x.matcher with stream }, marks⟩, []⟩

/-- Takes the stream out of the matcher and puts it into a new one. -/
def rewrap (x : Session σ μ) : Progress σ μ :=
  ⟨.nothing, { x with matcher := .start x.matcher.stream }, []⟩

end Session

namespace Operand

variable {σ μ : Type} [CharStream σ μ]

/-- Applies a primitive. -/
def primitive (p : Primitive) : Operand σ := fun s =>
  let (matched, t) := p.apply s
  ⟨matched, t, ⟨.nothing, []⟩⟩

variable [Positioned σ μ]

/-- Runs a routine. -/
def routine (r : Routine) : Operand σ := fun s =>
  let (matched, t) := r.run [] s
  ⟨matched, t, ⟨.log (position s) (position t) matched .nothing, []⟩⟩

/-- Runs a script on a matcher of its own over the same stream, and matches
if the script succeeds. -/
def script (run : Session σ μ → List (Progress σ μ)) : Operand σ := fun s =>
  let begun := Session.start s
  let steps := run begun
  let t := (Progress.finalSession begun steps).matcher.stream
  let answers := Progress.answers steps
  let matched := Answer.succeeded answers
  ⟨matched, t, ⟨.log (position s) (position t) matched (.list answers), Progress.allEvents steps⟩⟩

/-- Runs a script, each time on a new matcher, until it does not succeed or
leaves the stream where it was, and at most `limit` times. Returns the
number of rounds before that, the stream, and all events. -/
def countRounds (run : Session σ μ → List (Progress σ μ)) :
    Nat → Nat → σ → List Event → Nat × σ × List Event
  | 0, count, s, events => (count, s, events)
  | limit + 1, count, s, events =>
    let begun := Session.start s
    let steps := run begun
    let t := (Progress.finalSession begun steps).matcher.stream
    let events := events ++ Progress.allEvents steps
    if Answer.succeeded (Progress.answers steps) && position s != position t then
      countRounds run limit (count + 1) t events
    else (count, t, events)

/-- Runs a script as often as it makes headway, and matches in any case. A
round depends on nothing but the position, so rounds that come to an end
at all do so before a position is met again. -/
def rounds (run : Session σ μ → List (Progress σ μ)) : Operand σ := fun s =>
  let (count, t, events) := countRounds run (positionCount s) 0 s []
  ⟨true, t, ⟨.log (position s) (position t) true (.number count), events⟩⟩

end Operand

end ScanExpr
