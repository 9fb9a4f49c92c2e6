import ScanExpr.Matcher.Call
import ScanExpr.Proofs.Stream.Simulation

/-!
# `ScanExpr.Proofs.Matcher.Alike`: matchers that cannot be told apart

Two matchers over streams of different types are alike if their streams
are the same in the sense of a `Simulation` and their levels differ in
nothing but the way in which their entries are marked. Every operation of
a matcher keeps this:

* `Matcher.Alike.attempt`: with operands that do the same to both streams;
* `Call.alike_run`: a call without an operand is answered or refused in the
  same way, with the same events.
-/

set_option autoImplicit false

namespace ScanExpr

variable {σ τ μ ν ρ : Type}

/-! ### Levels -/

namespace Level

/-- What a level knows but for the place where it was opened. -/
def flags (l : Level μ) : Level Unit :=
  { l with entry := () }

/-- A connective is read by what a level knows, wherever it was opened. -/
@[simp]
theorem flags_setPending (l : Level μ) (pending : Option Connective) :
    (l.setPending pending).flags = l.flags.setPending pending := rfl

/-- An outcome is folded in by what a level knows, wherever it was opened. -/
@[simp]
theorem flags_fold (l : Level μ) (outcome : Bool) :
    (l.fold outcome).flags = l.flags.fold outcome := rfl

/-- Levels that know the same and were opened at the same place. -/
structure Alike (sameMark : μ → ν → Prop) (l : Level μ) (k : Level ν) : Prop where
  flags : l.flags = k.flags
  entry : sameMark l.entry k.entry

namespace Alike

variable {sameMark : μ → ν → Prop} {l : Level μ} {k : Level ν}

/-- Levels that are alike have the same running result. -/
theorem result (alike : l.Alike sameMark k) : l.result = k.result :=
  congrArg Level.result alike.flags

/-- Of levels that are alike both have had an operand, or neither has. -/
theorem attempted (alike : l.Alike sameMark k) : l.attempted = k.attempted :=
  congrArg Level.attempted alike.flags

/-- Of levels that are alike both skip all of their operands, or neither does. -/
theorem skipsAll (alike : l.Alike sameMark k) : l.skipsAll = k.skipsAll :=
  congrArg Level.skipsAll alike.flags

/-- Of levels that are alike both skip the next operand, or neither does. -/
theorem skipsNext (alike : l.Alike sameMark k) : l.skipsNext = k.skipsNext :=
  congrArg Level.skipsNext alike.flags

/-- A group in the place of the next operand is skipped in both levels or in
neither. -/
theorem skipsChild (alike : l.Alike sameMark k) : l.skipsChild = k.skipsChild :=
  congrArg Level.skipsChild alike.flags

/-- Levels that are opened at the same place, and both with operands to skip or
both without, are alike. -/
theorem opened {m : μ} {n : ν} (entry : sameMark m n) {skipped skipped' : Bool}
    (skips : skipped = skipped') :
    (Level.opened m skipped).Alike sameMark (Level.opened n skipped') := by
  subst skips
  exact ⟨rfl, entry⟩

/-- The same connective keeps levels alike. -/
theorem setPending (alike : l.Alike sameMark k) (pending : Option Connective) :
    (l.setPending pending).Alike sameMark (k.setPending pending) where
  flags := by rw [flags_setPending, flags_setPending, alike.flags]
  entry := alike.entry

/-- The same outcome keeps levels alike. -/
theorem fold (alike : l.Alike sameMark k) (outcome : Bool) :
    (l.fold outcome).Alike sameMark (k.fold outcome) where
  flags := by rw [flags_fold, flags_fold, alike.flags]
  entry := alike.entry

end Alike

end Level

/-! ### Matchers -/

namespace Matcher

/-- Matchers over the same stream with the same levels. -/
structure Alike (same : σ → τ → Prop) (sameMark : μ → ν → Prop) (m : Matcher σ μ)
    (n : Matcher τ ν) : Prop where
  stream : same m.stream n.stream
  suspended : List.Forall₂ (Level.Alike sameMark) m.suspended.levels n.suspended.levels
  current : m.current.Alike sameMark n.current
  attempted : m.attempted = n.attempted

namespace Alike

variable {same : σ → τ → Prop} {sameMark : μ → ν → Prop} {m : Matcher σ μ} {n : Matcher τ ν}

/-- Matchers that are alike have as many groups open. -/
theorem depth (alike : m.Alike same sameMark n) : m.depth = n.depth :=
  alike.suspended.length_eq

/-- Matchers stay alike when their streams are moved to the same place. -/
theorem withStream (alike : m.Alike same sameMark n) {s : σ} {t : τ} (stream : same s t) :
    ({ m with stream := s } : Matcher σ μ).Alike same sameMark { n with stream := t } :=
  { alike with stream }

/-- The same outcome keeps matchers alike. -/
theorem fold (alike : m.Alike same sameMark n) (outcome : Bool) :
    (m.fold outcome).Alike same sameMark (n.fold outcome) :=
  { alike with current := alike.current.fold outcome, attempted := rfl }

/-- The same connective keeps matchers alike. -/
theorem connect (alike : m.Alike same sameMark n) (c : Connective) :
    (m.connect c).Alike same sameMark (n.connect c) :=
  { alike with current := alike.current.setPending (some c) }

/-- Operands with alike verdicts are both run or both skipped, and lead to
matchers that are alike again. -/
theorem attempt {ρ' : Type} (alike : m.Alike same sameMark n) {f : σ → Verdict σ ρ}
    {g : τ → Verdict τ ρ'} {sameReport : ρ → ρ' → Prop}
    (operands : (f m.stream).matched = (g n.stream).matched ∧
      same (f m.stream).stream (g n.stream).stream ∧
      sameReport (f m.stream).report (g n.stream).report) :
    (m.attempt f).1.Alike same sameMark (n.attempt g).1 ∧
      Option.Rel sameReport (m.attempt f).2 (n.attempt g).2 := by
  have ⟨matched, stream, report⟩ := operands
  rw [Matcher.attempt, Matcher.attempt, ← alike.current.skipsNext]
  -- The flag is the same on both sides, so either both operands are run or none is.
  cases m.current.skipsNext with
  | true => exact ⟨alike.fold false, .none⟩
  | false =>
    have folded := (alike.withStream stream).fold (f m.stream).matched
    refine ⟨?_, .some report⟩
    show Matcher.Alike same sameMark _ (Matcher.fold _ (g n.stream).matched)
    exact matched ▸ folded

variable [CharStream σ μ] [CharStream τ ν]

/-- New matchers are alike if they start at the same place. -/
theorem start (simulation : Simulation same sameMark) {s : σ} {t : τ} (stream : same s t) :
    (Matcher.start s).Alike same sameMark (Matcher.start t) where
  stream := stream
  suspended := .nil
  current := .opened (simulation.mark stream) rfl
  attempted := rfl

/-- Groups that are opened in matchers that are alike remember the same place. -/
theorem enterGroup (simulation : Simulation same sameMark) (alike : m.Alike same sameMark n) :
    m.enterGroup.Alike same sameMark n.enterGroup where
  stream := alike.stream
  suspended := .cons alike.current alike.suspended
  current := .opened (simulation.mark alike.stream) alike.current.skipsChild
  attempted := alike.attempted

/-- The stream after a level with a false result is rewound on both sides. -/
theorem rewound (simulation : Simulation same sameMark) (alike : m.Alike same sameMark n) :
    same (if m.current.result then m.stream else rewind m.stream m.current.entry)
      (if n.current.result then n.stream else rewind n.stream n.current.entry) := by
  rw [← alike.current.result]
  cases m.current.result with
  | true => exact alike.stream
  | false => exact simulation.rewind alike.stream alike.current.entry

/-- When a group is closed, the levels around it are resumed on both sides, and
both streams are rewound or neither is. -/
theorem leaveGroup (simulation : Simulation same sameMark) (alike : m.Alike same sameMark n)
    (q : Quantifier) : (m.leaveGroup q).Alike same sameMark (n.leaveGroup q) := by
  have stream := alike.rewound simulation
  have outcome := congrArg q.outcome alike.current.result
  obtain ⟨_, ⟨levels⟩, _, _⟩ := m
  obtain ⟨_, ⟨levels'⟩, _, _⟩ := n
  rw [Matcher.leaveGroup, Matcher.leaveGroup, outcome]
  -- Either a level waits on both sides, and the two that are resumed are alike, or on none.
  cases alike.suspended with
  | nil => exact (alike.withStream stream).fold _
  | cons parent rest =>
    refine fold ?_ _
    exact { stream, suspended := rest, current := parent, attempted := alike.attempted }

/-- When the expression ends, both sides begin another one at the same place. -/
theorem finish (simulation : Simulation same sameMark) (alike : m.Alike same sameMark n) :
    m.finish.Alike same sameMark n.finish :=
  start simulation (alike.rewound simulation)

end Alike

end Matcher

/-! ### Calls -/

/-- Outcomes with the same reply and events and with matchers that are
alike. -/
structure Outcome.Alike (same : σ → τ → Prop) (sameMark : μ → ν → Prop) (x : Outcome σ μ ρ)
    (y : Outcome τ ν ρ) : Prop where
  reply : x.reply = y.reply
  matcher : x.matcher.Alike same sameMark y.matcher
  events : x.events = y.events

namespace Call

variable {same : σ → τ → Prop} {sameMark : μ → ν → Prop} {m : Matcher σ μ} {n : Matcher τ ν}

/-- A call makes sense in both matchers or in neither. -/
theorem refusal?_eq_of_alike {ο : Type} (alike : m.Alike same sameMark n) (call : Call ο) :
    call.refusal? m = call.refusal? n := by
  have isEmpty := LevelStack.isEmpty_eq_of_depth_eq alike.depth
  -- A refusal looks at flags and at the number of levels, and at no mark and no stream.
  cases call with
  | connect _ | connectEnter _ => rw [refusal?, refusal?, alike.current.attempted]
  | leaveGroup _ => rw [refusal?, refusal?, isEmpty]
  | result => rw [refusal?, refusal?, alike.attempted, isEmpty, alike.depth]
  | attempt _ | enterGroup | restart => rfl

/-- The event of a group that is opened. -/
theorem openedEvent_eq_of_alike (alike : m.Alike same sameMark n) :
    m.openedEvent = n.openedEvent := by
  rw [Matcher.openedEvent, Matcher.openedEvent, alike.depth, alike.current.skipsAll]

variable [CharStream σ μ] [CharStream τ ν]

/-- A call without an operand is answered in the same way by matchers that
are alike, and leaves them alike. -/
theorem alike_run (simulation : Simulation same sameMark) (alike : m.Alike same sameMark n)
    (eval : Empty → σ → Verdict σ ρ) (eval' : Empty → τ → Verdict τ ρ) (call : Call Empty) :
    (call.run eval m).Alike same sameMark (call.run eval' n) := by
  rw [run, run, ← refusal?_eq_of_alike alike call]
  -- A call that is refused on one side is refused on the other, and changes neither.
  cases call.refusal? m with
  | some misuse => exact ⟨rfl, alike, rfl⟩
  | none =>
    -- What is reported depends on depths and flags only, never on where the streams stand.
    cases call with
    | attempt operand => exact nomatch operand
    | connect c => exact ⟨rfl, alike.connect c, rfl⟩
    | enterGroup =>
      have entered := alike.enterGroup simulation
      exact ⟨rfl, entered, congrArg (fun e => [e]) (openedEvent_eq_of_alike entered)⟩
    | connectEnter c =>
      have entered := (alike.connect c).enterGroup simulation
      exact ⟨rfl, entered, congrArg (fun e => [e]) (openedEvent_eq_of_alike entered)⟩
    | leaveGroup q =>
      refine ⟨rfl, alike.leaveGroup simulation q, ?_⟩
      show [m.closedEvent q] = [n.closedEvent q]
      rw [Matcher.closedEvent, Matcher.closedEvent, alike.depth, alike.current.result]
    | result =>
      refine ⟨congrArg Reply.concluded alike.current.result, alike.finish simulation, ?_⟩
      exact congrArg (fun x => [Event.concluded x]) alike.current.result
    | restart => exact ⟨rfl, .start simulation alike.stream, rfl⟩

end Call

end ScanExpr
