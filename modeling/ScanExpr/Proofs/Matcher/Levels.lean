import Mathlib.Data.List.Chain
import ScanExpr.Proofs.Matcher.Reached

/-!
# `ScanExpr.Proofs.Matcher.Levels`: levels inside levels

The levels of a matcher are opened one inside the other, and what a level
notes about skipping was right when it was written down. It stays right
because a level changes only while it is the innermost one: those around
it wait, and nothing is decided in them until they are resumed.

`Level.Sound` is what a level knows by itself, and `Level.Nest` is what
the levels of a matcher know of each other: one that was opened where
operands are skipped skips all of its own, and the outermost one does not.
`Matcher.Consistent` adds that the matcher knows whether there has been an
operand at all.

* `Matcher.Consistent.perform`: the step lemma, for a call that makes sense.
* `Reached.consistent`: every state that the use of a matcher leads to.
* `Reached.levels_agree`: the same, spelled out.

The conditions hold only together. A level that has had no operand is
blank because a connective is refused there, and a level that skips
everything has the result false because none of its operands is ever run,
which is what `Coherent` says of it.
-/

set_option autoImplicit false

namespace ScanExpr

variable {σ μ ρ ο : Type}

/-! ### One level -/

/-- What a level notes is right as far as it can tell by itself. -/
structure Level.Sound (l : Level μ) : Prop where
  coherent : l.Coherent
  /-- No operand of a level that skips all of them has matched. -/
  failed : l.skipsAll = true → l.result = false
  /-- A level that has had no operand is as it was when it was opened. -/
  blank : l.attempted = false → l.result = false ∧ l.pending = none

namespace Level.Sound

variable {l : Level μ}

/-- A level that has just been opened is sound. -/
theorem opened (entry : μ) (skipped : Bool) : (Level.opened entry skipped).Sound :=
  ⟨coherent_opened entry skipped, fun _ => rfl, fun _ => ⟨rfl, rfl⟩⟩

/-- A level that skips everything takes no outcome into account, so its result
stays false. -/
theorem fold (sound : l.Sound) (outcome : Bool) : (l.fold outcome).Sound where
  coherent := coherent_fold l outcome
  failed all := by
    have all : l.skipsAll = true := all
    rw [result_fold_of_skipsNext (sound.coherent.skipsNext_of_skipsAll all), sound.failed all]
  blank := Bool.noConfusion

/-- A connective may wait only in a level that has had an operand. -/
theorem setPending (sound : l.Sound) (attempted : l.attempted = true)
    (pending : Option Connective) : (l.setPending pending).Sound where
  coherent := coherent_setPending l pending
  failed := sound.failed
  blank none := absurd none (ne_false_of_eq_true attempted)

end Level.Sound

/-! ### One level inside another -/

/-- Sound levels, the innermost first. Each but the last was opened in the
next, and skips all operands exactly if the next skipped what was opened
there. The last one skips none of its operands on its own account. -/
inductive Level.Nest : List (Level μ) → Prop where
  | outermost {l : Level μ} (sound : l.Sound) (runs : l.skipsAll = false) : Nest [l]
  | inner {l around : Level μ} {rest : List (Level μ)} (sound : l.Sound)
    (inherits : l.skipsAll = around.skipsChild) (others : Nest (around :: rest)) :
    Nest (l :: around :: rest)

namespace Level.Nest

variable {l k around : Level μ} {levels : List (Level μ)}

/-- The innermost level is sound. -/
theorem head (nest : Nest (l :: levels)) : l.Sound := by
  cases nest with
  | outermost sound | inner sound => exact sound

/-- Without the innermost level the others are still one inside the other. -/
theorem tail (nest : Nest (l :: around :: levels)) : Nest (around :: levels) := by
  cases nest with
  | inner _ _ others => exact others

/-- The innermost level may change, as long as it skips all operands if it
did. -/
theorem replace (nest : Nest (l :: levels)) (sound : k.Sound) (same : k.skipsAll = l.skipsAll) :
    Nest (k :: levels) := by
  cases nest with
  | outermost _ runs => exact .outermost sound (same.trans runs)
  | inner _ inherits others => exact .inner sound (same.trans inherits) others

/-- A group is opened as the current level has it. -/
theorem enter (nest : Nest (l :: levels)) (entry : μ) :
    Nest (Level.opened entry l.skipsChild :: l :: levels) :=
  .inner (.opened entry _) rfl nest

/-- All levels are sound. -/
theorem sound (nest : Nest levels) : ∀ l ∈ levels, l.Sound := by
  induction nest with
  | outermost sound _ =>
    rw [List.forall_mem_singleton]
    exact sound
  | inner sound _ _ ih =>
    rw [List.forall_mem_cons]
    exact ⟨sound, ih⟩

/-- Each level skips everything if the one around it skips what is opened
there. -/
theorem isChain (nest : Nest levels) :
    levels.IsChain fun l around => l.skipsAll = around.skipsChild := by
  induction nest with
  | outermost _ _ => exact List.isChain_singleton _
  | inner _ inherits _ ih => exact List.isChain_cons_cons.2 ⟨inherits, ih⟩

/-- The outermost level does not skip everything. -/
theorem skipsAll_getLast (nest : Nest levels) (nonempty : levels ≠ []) :
    (levels.getLast nonempty).skipsAll = false := by
  induction nest with
  | outermost _ runs => exact runs
  | inner _ _ _ ih => exact ih (List.cons_ne_nil _ _)

/-- Where the innermost level does not skip everything, none does. -/
theorem skipsAll_eq_false (nest : Nest (l :: levels)) (runs : l.skipsAll = false) :
    ∀ k ∈ l :: levels, k.skipsAll = false := by
  -- From the innermost level outwards: what is skipped around a level is skipped in it.
  induction levels generalizing l with
  | nil =>
    rw [List.forall_mem_singleton]
    exact runs
  | cons around rest ih =>
    cases nest with
    | inner _ inherits others =>
      have inherited := Bool.or_eq_false_iff.1 (inherits.symm.trans runs)
      rw [List.forall_mem_cons]
      exact ⟨runs, ih others inherited.1⟩

end Level.Nest

/-! ### All levels of a matcher -/

namespace Matcher

/-- The levels that are open, the innermost first. -/
def levels (m : Matcher σ μ) : List (Level μ) :=
  m.current :: m.suspended.levels

/-- A matcher has an outermost level at any time. -/
theorem levels_ne_nil (m : Matcher σ μ) : m.levels ≠ [] :=
  List.cons_ne_nil _ _

/-- What the levels note is right, and so is whether the expression has had
an operand. -/
structure Consistent (m : Matcher σ μ) : Prop where
  nest : Level.Nest m.levels
  attempted : m.attempted = true ↔ ∃ l ∈ m.levels, l.attempted = true

namespace Consistent

variable {m : Matcher σ μ}

/-- After an operand there has been one, in the current level. -/
theorem of_current (nest : Level.Nest m.levels) (level : m.current.attempted = true)
    (expression : m.attempted = true) : m.Consistent :=
  ⟨nest, iff_of_true expression ⟨m.current, List.mem_cons_self, level⟩⟩

/-- Folding in an outcome changes the innermost level only, and leaves the
levels consistent. -/
theorem fold (nest : Level.Nest m.levels) (outcome : Bool) : (m.fold outcome).Consistent :=
  of_current (nest.replace (nest.head.fold outcome) rfl) rfl rfl

/-- An operand leaves the levels consistent, whether it is run or skipped. -/
theorem attempt (consistent : m.Consistent) (operand : σ → Verdict σ ρ) :
    (m.attempt operand).1.Consistent := by
  rw [Matcher.attempt]
  split
  · exact fold consistent.nest false
  -- The operand has moved the stream, and the levels do not depend on it.
  · exact fold (m := { m with stream := (operand m.stream).stream }) consistent.nest _

/-- A connective leaves the levels consistent, since it waits in a level that
has had an operand. -/
theorem connect (consistent : m.Consistent) (attempted : m.current.attempted = true)
    (c : Connective) : (m.connect c).Consistent := by
  have sound := consistent.nest.head.setPending attempted (some c)
  have expression := consistent.attempted.2 ⟨m.current, List.mem_cons_self, attempted⟩
  exact of_current (consistent.nest.replace sound rfl) attempted expression

variable [Rewindable σ μ]

/-- The level of a new matcher is blank, so it is consistent. -/
theorem start (s : σ) : (Matcher.start s).Consistent where
  nest := .outermost (.opened _ _) rfl
  attempted := by
    constructor
    · exact Bool.noConfusion
    · rintro ⟨l, only, attempted⟩
      cases List.mem_singleton.1 only
      cases attempted

/-- Opening a group leaves the levels consistent, since the new one skips
everything where its surroundings skip it. -/
theorem enterGroup (consistent : m.Consistent) : m.enterGroup.Consistent where
  nest := consistent.nest.enter _
  attempted := by
    -- The level that is new has had no operand.
    refine consistent.attempted.trans ⟨fun ⟨l, old, attempted⟩ => ?_, fun ⟨l, level, attempted⟩ => ?_⟩
    · exact ⟨l, List.mem_cons_of_mem _ old, attempted⟩
    · rcases List.mem_cons.1 level with rfl | old
      · cases attempted
      · exact ⟨l, old, attempted⟩

/-- The level around a group has waited while the group was open, so it is
resumed as it was. -/
theorem leaveGroup (consistent : m.Consistent) (some_open : 0 < m.depth) (q : Quantifier) :
    (m.leaveGroup q).Consistent := by
  obtain ⟨stream, ⟨levels⟩, current, attempted⟩ := m
  cases levels with
  | nil => cases some_open
  | cons parent rest => exact fold (m := ⟨_, ⟨rest⟩, parent, _⟩) consistent.nest.tail _

/-- A call that is made leaves the levels consistent. -/
theorem perform (consistent : m.Consistent) (eval : ο → σ → Verdict σ ρ) {call : Call ο}
    (sensible : call.refusal? m = none) : (call.perform eval m).matcher.Consistent := by
  cases call with
  | attempt op => exact consistent.attempt (eval op)
  | connect c => exact consistent.connect (Call.refusal?_connect_eq_none_iff.1 sensible) c
  | enterGroup => exact consistent.enterGroup
  | connectEnter c =>
    -- The call is refused for the same reason as the connective in it.
    have sensible : (Call.connect c : Call ο).refusal? m = none := sensible
    exact (consistent.connect (Call.refusal?_connect_eq_none_iff.1 sensible) c).enterGroup
  | leaveGroup q =>
    exact consistent.leaveGroup (Call.refusal?_leaveGroup_eq_none_iff.1 sensible) q
  | result | restart => exact start _

end Consistent

end Matcher

/-! ### All states -/

variable [Rewindable σ μ] {eval : ο → σ → Verdict σ ρ} {m : Matcher σ μ} {j : Journal σ}
  {phase : Option Phase}

/-- The levels are consistent in every state that is reached. -/
theorem Reached.consistent (h : Reached eval m j phase) : m.Consistent :=
  h.invariant (P := fun m _ => m.Consistent) .start
    (fun _ _ _ consistent => ⟨consistent.nest, consistent.attempted⟩)
    (fun _ _ _ consistent sensible => consistent.perform eval sensible)

/-- In every state that the use of a matcher leads to, by calls, refused
ones among them, by typed expressions, finished or dropped, and by moves of
the stream, with operands that do anything:

* the outermost level does not skip everything, and every other level does
  exactly if the level around it skips what is opened there;
* a level skips its next operand exactly if it skips all of them or if the
  operand comes after `and` with the result false or after `or` with the
  result true;
* a level that skips everything has the result false;
* a level that has had no operand has the result false and no connective
  waiting;
* the expression has had an operand exactly if one of the levels has. -/
theorem Reached.levels_agree (h : Reached eval m j phase) :
    (m.levels.getLast m.levels_ne_nil).skipsAll = false ∧
    m.levels.IsChain (fun l around => l.skipsAll = around.skipsChild) ∧
    (∀ l ∈ m.levels,
      (l.skipsNext = true ↔ l.skipsAll = true ∨ l.pending = some .and ∧ l.result = false ∨
        l.pending = some .or ∧ l.result = true) ∧
      (l.skipsAll = true → l.result = false) ∧
      (l.attempted = false → l.result = false ∧ l.pending = none)) ∧
    (m.attempted = true ↔ ∃ l ∈ m.levels, l.attempted = true) := by
  have ⟨nest, attempted⟩ := h.consistent
  refine ⟨nest.skipsAll_getLast _, nest.isChain, fun l level => ?_, attempted⟩
  have sound := nest.sound l level
  refine ⟨?_, sound.failed, sound.blank⟩
  rw [sound.coherent, Bool.or_eq_true, Connective.decides_eq_true_iff]

/-- A typed expression is dropped in a group that is skipped, the result is
asked for in vain, the stream is moved, and another group is opened. -/
theorem Reached.levels_agree_dropped :
    ∃ (m : Matcher (Tape #['a', 'b', 'c']) Nat) (j : Journal (Tape #['a', 'b', 'c'])),
      Reached (Tape.leap _) m j none ∧
      m.levels = [⟨false, true, true, none, false, 3⟩, ⟨false, true, true, none, true, 1⟩,
        ⟨true, false, true, some .or, true, 0⟩] ∧
      (m.levels.getLast m.levels_ne_nil).skipsAll = false ∧
      m.levels.IsChain (fun l around => l.skipsAll = around.skipsChild) ∧
      (∀ l ∈ m.levels, l.attempted = false → l.result = false ∧ l.pending = none) ∧
      (m.attempted = true ↔ ∃ l ∈ m.levels, l.attempted = true) := by
  have start : Reached (Tape.leap #['a', 'b', 'c']) (.start (.clamped _ 0)) _ none := .new _
  -- The first operand decides the `or`, so the group is skipped.
  have typed := (start.expression.link (.attempt (true, 1))).link (.connectEnter .or)
  have skipped := (typed.link (.attempt (false, 2))).call .result
  have reached := (skipped.move (.clamped _ 3)).call .enterGroup
  have ⟨outermost, nested, sound, attempted⟩ := levels_agree reached
  exact ⟨_, _, reached, rfl, outermost, nested, fun l level => (sound l level).2.2, attempted⟩

end ScanExpr
