import ScanExpr.Matcher.Chain
import ScanExpr.Proofs.Expr.Level
import ScanExpr.Proofs.Matcher.Run

/-!
# `ScanExpr.Proofs.Matcher.Reached`: the states that a matcher can get into

A matcher is used by calls, accepted or not, by typed expressions, which
may be dropped at any point, and by moving its stream behind its back.
`Reached` holds of the states that come about in this way, in any order
and with any operands. It keeps a `Journal` of where the stream stood at
the last anchor and at the start of each open group, and the phase of the
typed expression that is being written, if there is one.

One step amounts to nothing or to a call that makes sense
(`Journal.Step`), so what such calls keep true holds in all of these states
(`Reached.invariant`). Three invariants do:

* `Reached.tells`: the marks in the levels are those of the places in the
  journal, level by level. The step lemma is `Journal.Tells.perform`.
* `Reached.fits`: the phase of a typed expression knows how many groups
  are open and whether there has been an operand. A typed step performs
  without a check what some call does with one (`Link.call?`), and the
  phase makes up for the check (`Phase.Fits.refusal?_eq_none`).
* `Reached.coherent`: the current level skips its next operand exactly if
  the operand cannot matter.

`Reached.stream_eq_of_result_eq_false` is the main result: a group or an
expression that comes to the result false leaves the stream where it began.
-/

set_option autoImplicit false

namespace ScanExpr

variable {σ μ ρ ο : Type}

/-! ### Typed steps as calls -/

namespace Link

/-- The call that a step amounts to. The end of a group amounts to nothing
until its quantifier is chosen. -/
def call? {p q : Phase} : Link ο p q → Option (Call ο)
  | .attempt op => some (.attempt op)
  | .enterGroup => some .enterGroup
  | .leaveEmpty | .leave => none
  | .quantify q | .leaveWith q => some (.leaveGroup q)
  | .connect c => some (.connect c)
  | .connectEnter c => some (.connectEnter c)
  | .restart => some .restart
  | .result => some .result

variable [Rewindable σ μ] {eval : ο → σ → Verdict σ ρ}

/-- A step does what its call does, without asking whether it makes
sense. -/
theorem perform_of_call? {p q : Phase} {l : Link ο p q} {call : Call ο}
    (h : l.call? = some call) (m : Matcher σ μ) : l.perform eval m = call.perform eval m := by
  cases l <;> cases h <;> rfl

/-- The end of a group leaves the matcher alone. -/
theorem perform_of_call?_eq_none {p q : Phase} {l : Link ο p q} (h : l.call? = none)
    (m : Matcher σ μ) : l.perform eval m = ⟨.done, m, []⟩ := by
  cases l with
  | leaveEmpty | leave => rfl
  | attempt _ | enterGroup | quantify _ | leaveWith _ | connect _ | connectEnter _ | restart
  | result => cases h

end Link

/-- What a phase says of the matcher is true. -/
def Phase.Fits (m : Matcher σ μ) : Phase → Prop
  | .operand depth _ => m.depth = depth
  | .operator depth => m.depth = depth ∧ m.current.attempted = true ∧ m.attempted = true
  | .closing depth => m.depth = depth + 1
  | .concluded => True

/-- A step that has a type makes sense. -/
theorem Phase.Fits.refusal?_eq_none {m : Matcher σ μ} {p q : Phase} (fits : p.Fits m)
    {l : Link ο p q} {call : Call ο} (h : l.call? = some call) : call.refusal? m = none := by
  -- The phase from which a step starts says what the check of its call asks for.
  cases l with
  | attempt _ | enterGroup | restart =>
    cases h
    rfl
  | leaveEmpty | leave => cases h
  | connect c =>
    cases h
    exact Call.refusal?_connect_eq_none_iff.2 fits.2.1
  | connectEnter c =>
    cases h
    show Call.refusal? m (.connect c : Call ο) = none
    exact Call.refusal?_connect_eq_none_iff.2 fits.2.1
  | @quantify depth quantifier =>
    cases h
    have some_open : m.depth = depth + 1 := fits
    exact Call.refusal?_leaveGroup_eq_none_iff.2 (some_open ▸ Nat.succ_pos depth)
  | @leaveWith depth quantifier =>
    cases h
    have some_open : m.depth = depth + 1 := fits.1
    exact Call.refusal?_leaveGroup_eq_none_iff.2 (some_open ▸ Nat.succ_pos depth)
  | result =>
    cases h
    exact Call.refusal?_result_eq_none_iff.2 ⟨fits.2.2, fits.1⟩

/-! ### The marks of the levels -/

namespace Matcher

/-- The marks with which the levels were opened, the innermost first. -/
def entries (m : Matcher σ μ) : List μ :=
  (m.current :: m.suspended.levels).map Level.entry

/-- An operand leaves the marks alone. -/
theorem entries_attempt (m : Matcher σ μ) (operand : σ → Verdict σ ρ) :
    (m.attempt operand).1.entries = m.entries := by
  rw [attempt]
  split <;> rfl

variable [Rewindable σ μ] {m : Matcher σ μ}

/-- Closing a group leaves one group less open. -/
theorem depth_leaveGroup (m : Matcher σ μ) (q : Quantifier) :
    (m.leaveGroup q).depth = m.depth - 1 := by
  obtain ⟨stream, ⟨levels⟩, current, attempted⟩ := m
  cases levels <;> rfl

/-- Closing a group forgets its mark. -/
theorem entries_leaveGroup (some_open : 0 < m.depth) (q : Quantifier) :
    (m.leaveGroup q).entries = m.entries.tail := by
  obtain ⟨stream, ⟨levels⟩, current, attempted⟩ := m
  cases levels with
  | nil => cases some_open
  | cons parent rest => rfl

/-- Closing a group on a false result goes back to its mark. -/
theorem stream_leaveGroup_of_false (failed : m.current.result = false) (q : Quantifier) :
    (m.leaveGroup q).stream = rewind m.stream m.current.entry := by
  obtain ⟨stream, ⟨levels⟩, current, attempted⟩ := m
  cases levels <;> exact if_neg (Bool.eq_false_iff.1 failed)

/-- An expression that comes to the result false goes back to the mark of its
level. -/
theorem stream_finish_of_false (failed : m.current.result = false) :
    m.finish.stream = rewind m.stream m.current.entry :=
  if_neg (Bool.eq_false_iff.1 failed)

end Matcher

/-! ### The journal -/

/-- Where the stream stood at the last anchor, and at the start of each
open group, the innermost first. -/
structure Journal (σ : Type) where
  anchor : σ
  begun : List σ

namespace Journal

/-- The journal after a call that was made, which took the stream from
`s` to `t`. -/
def note (j : Journal σ) (s t : σ) : Call ο → Journal σ
  | .enterGroup | .connectEnter _ => ⟨j.anchor, s :: j.begun⟩
  | .leaveGroup _ => ⟨j.anchor, j.begun.tail⟩
  | .result | .restart => ⟨t, []⟩
  | .attempt _ | .connect _ => j

/-- The journal after a call, which may have been refused. -/
def noteCall (j : Journal σ) (m : Matcher σ μ) (call : Call ο) (outcome : Outcome σ μ ρ) :
    Journal σ :=
  if outcome.reply.isRefused then j else j.note m.stream outcome.matcher.stream call

/-- The journal after a typed step. -/
def noteLink (j : Journal σ) (m : Matcher σ μ) {p q : Phase} (l : Link ο p q)
    (outcome : Outcome σ μ ρ) : Journal σ :=
  match l.call? with
  | some call => j.note m.stream outcome.matcher.stream call
  | none => j

/-- Where the levels began, the innermost first. -/
def places (j : Journal σ) : List σ :=
  j.begun ++ [j.anchor]

variable [Rewindable σ μ] {j : Journal σ} {m : Matcher σ μ}

/-- The marks of the levels were taken of the places in the journal. -/
def Tells (j : Journal σ) (m : Matcher σ μ) : Prop :=
  m.entries = j.places.map mark

/-- There is a place for each open group. -/
theorem Tells.length_begun (h : j.Tells m) : j.begun.length = m.depth := by
  have lengths := congrArg List.length h
  rw [places, List.length_map, List.length_append] at lengths
  simpa [Matcher.entries, Matcher.depth, LevelStack.depth] using lengths.symm

/-- With no group open, the anchor is the only place in the journal. -/
theorem Tells.places_of_closed (h : j.Tells m) (closed : m.depth = 0) : j.places = [j.anchor] := by
  have begun : j.begun = [] := List.length_eq_zero_iff.1 (h.length_begun.trans closed)
  rw [places, begun, List.nil_append]

/-- While a group is open, its place is in the journal. -/
theorem Tells.begun_ne_nil (h : j.Tells m) (some_open : 0 < m.depth) : j.begun ≠ [] := by
  rw [← List.length_pos_iff, h.length_begun]
  exact some_open

/-- The mark of the current level leads back to where the level began. -/
theorem Tells.rewind_entry [LawfulRewindable σ] (h : j.Tells m) {place : σ} {others : List σ}
    (places : j.places = place :: others) : rewind m.stream m.current.entry = place := by
  have entry : m.current.entry = mark place := by
    have first := congrArg List.head? h
    rw [places] at first
    exact Option.some.inj first
  rw [entry, LawfulRewindable.rewind_mark]

/-- A call that is made keeps the journal true. -/
theorem Tells.perform (h : j.Tells m) (eval : ο → σ → Verdict σ ρ) {call : Call ο}
    (sensible : call.refusal? m = none) :
    (j.note m.stream (call.perform eval m).matcher.stream call).Tells
      (call.perform eval m).matcher := by
  cases call with
  | attempt op => exact (m.entries_attempt (eval op)).trans h
  | connect c => exact h
  | enterGroup | connectEnter c => exact congrArg (mark m.stream :: ·) h
  | leaveGroup q =>
    -- A group is open, so what is taken off the journal is its place and not the anchor.
    have some_open := Call.refusal?_leaveGroup_eq_none_iff.1 sensible
    have nonempty := h.begun_ne_nil some_open
    show (m.leaveGroup q).entries = (j.begun.tail ++ [j.anchor]).map mark
    rw [Matcher.entries_leaveGroup some_open, h, ← List.map_tail, places,
      List.tail_append_of_ne_nil nonempty]
  | result | restart => rfl

end Journal

/-! ### The states -/

variable [Rewindable σ μ]

/-- The states that the use of a matcher leads to. -/
inductive Reached (eval : ο → σ → Verdict σ ρ) :
    Matcher σ μ → Journal σ → Option Phase → Prop where
  | new (s : σ) : Reached eval (.start s) ⟨s, []⟩ none
  /-- A call, accepted or refused. -/
  | call {m : Matcher σ μ} {j : Journal σ} {phase : Option Phase} (call : Call ο) :
    Reached eval m j phase →
    Reached eval (call.run eval m).matcher (j.noteCall m call (call.run eval m)) none
  /-- A move of the stream, to anywhere. -/
  | move {m : Matcher σ μ} {j : Journal σ} {phase : Option Phase} (t : σ) :
    Reached eval m j phase → Reached eval { m with stream := t } j none
  /-- The start of a typed expression. -/
  | expression {m : Matcher σ μ} {j : Journal σ} {phase : Option Phase} :
    Reached eval m j phase →
    Reached eval m.restart ⟨m.stream, []⟩ (some (.operand 0 true))
  | link {m : Matcher σ μ} {j : Journal σ} {p q : Phase} (l : Link ο p q) :
    Reached eval m j (some p) →
    Reached eval (l.perform eval m).matcher (j.noteLink m l (l.perform eval m)) (some q)

variable {eval : ο → σ → Verdict σ ρ} {m : Matcher σ μ} {j : Journal σ} {phase : Option Phase}

/-- A step that has a type leads to a matcher that fits the next phase. -/
theorem Phase.Fits.perform {p q : Phase} (fits : p.Fits m) (l : Link ο p q) :
    q.Fits (l.perform eval m).matcher := by
  cases l with
  | attempt op =>
    have depth : (m.attempt (eval op)).1.depth = m.depth := Call.depth_perform m (.attempt op)
    exact ⟨depth.trans fits, m.attempted_attempt (eval op)⟩
  | enterGroup => exact congrArg (· + 1) fits
  | leaveEmpty => exact fits
  | leave => exact fits.1
  | quantify q =>
    have depth := (m.depth_leaveGroup q).trans (congrArg (· - 1) fits)
    exact ⟨depth, rfl, rfl⟩
  | leaveWith q =>
    have depth := (m.depth_leaveGroup q).trans (congrArg (· - 1) fits.1)
    exact ⟨depth, rfl, rfl⟩
  | connect c => exact fits.1
  | connectEnter c => exact congrArg (· + 1) fits.1
  | restart => rfl
  | result => trivial

/-- The phase of a typed expression fits the matcher. -/
theorem Reached.fits (h : Reached eval m j phase) : ∀ p ∈ phase, p.Fits m := by
  induction h with
  | new _ | call _ _ _ | move _ _ _ =>
    intro p none
    cases none
  | expression _ _ =>
    intro p started
    cases started
    rfl
  | link l _ ih =>
    intro q next
    cases next
    exact (ih _ rfl).perform l

/-! ### Invariants -/

/-- What one use of a matcher amounts to that leaves the stream to the
operands: nothing, or a call that makes sense and is made. -/
inductive Journal.Step (eval : ο → σ → Verdict σ ρ) (m : Matcher σ μ) (j : Journal σ) :
    Matcher σ μ → Journal σ → Prop where
  | idle : Step eval m j m j
  | made (call : Call ο) (sensible : call.refusal? m = none) :
    Step eval m j (call.perform eval m).matcher
      (j.note m.stream (call.perform eval m).matcher.stream call)

namespace Journal.Step

/-- A refused call changes neither the matcher nor the journal. -/
theorem run (call : Call ο) :
    Step eval m j (call.run eval m).matcher (j.noteCall m call (call.run eval m)) := by
  rw [Call.run, noteCall]
  cases sensible : call.refusal? m with
  | some misuse => exact .idle
  | none =>
    rw [Call.isRefused_perform]
    exact .made call sensible

/-- A typed step is not checked, but its phase fits, so no check would
refuse it. -/
theorem link {p q : Phase} (fits : p.Fits m) (l : Link ο p q) :
    Step eval m j (l.perform eval m).matcher (j.noteLink m l (l.perform eval m)) := by
  rw [noteLink]
  cases amounts : l.call? with
  | none =>
    rw [l.perform_of_call?_eq_none amounts]
    exact .idle
  | some call =>
    rw [l.perform_of_call? amounts]
    exact .made call (fits.refusal?_eq_none amounts)

/-- A typed expression begins as a restart does. -/
theorem expression : Step eval m j m.restart ⟨m.stream, []⟩ :=
  .made .restart rfl

end Journal.Step

/-- What is true at the start of an expression and stays true when the
stream is moved and when a call is made that makes sense, is true in every
state that is reached. -/
theorem Reached.invariant {P : Matcher σ μ → Journal σ → Prop}
    (start : ∀ s, P (.start s) ⟨s, []⟩)
    (moved : ∀ (m : Matcher σ μ) (j : Journal σ) (t : σ), P m j → P { m with stream := t } j)
    (made : ∀ (m : Matcher σ μ) (j : Journal σ) (call : Call ο), P m j →
      call.refusal? m = none →
      P (call.perform eval m).matcher (j.note m.stream (call.perform eval m).matcher.stream call))
    (h : Reached eval m j phase) : P m j := by
  have stepped : ∀ {m m' : Matcher σ μ} {j j' : Journal σ}, P m j →
      Journal.Step eval m j m' j' → P m' j' := by
    intro m m' j j' holds step
    cases step with
    | idle => exact holds
    | made call sensible => exact made m j call holds sensible
  induction h with
  | new s => exact start s
  | call call _ ih => exact stepped ih (.run call)
  | move t _ ih => exact moved _ _ t ih
  | expression _ ih => exact stepped ih .expression
  | link l before ih => exact stepped ih (.link (before.fits _ rfl) l)

/-- The journal is true in every state that is reached. -/
theorem Reached.tells (h : Reached eval m j phase) : j.Tells m :=
  h.invariant (P := fun m j => j.Tells m) (fun _ => rfl) (fun _ _ _ tells => tells)
    (fun _ _ _ tells sensible => tells.perform eval sensible)

/-- The level that a call leaves behind has just been opened, or a
connective or an outcome has just been read there, so it is coherent. -/
theorem Call.coherent_perform (eval : ο → σ → Verdict σ ρ) (m : Matcher σ μ) (call : Call ο) :
    (call.perform eval m).matcher.current.Coherent := by
  cases call with
  | attempt op =>
    show (m.attempt (eval op)).1.current.Coherent
    rw [Matcher.attempt]
    split <;> exact Level.coherent_fold _ _
  | connect c => exact m.current.coherent_setPending (some c)
  | enterGroup | connectEnter c | result | restart => exact Level.coherent_opened _ _
  | leaveGroup q =>
    -- Whatever level is resumed, an outcome has been folded into it.
    exact Level.coherent_fold _ _

/-- The current level is coherent in every state that is reached. -/
theorem Reached.coherent (h : Reached eval m j phase) : m.current.Coherent :=
  h.invariant (P := fun m _ => m.current.Coherent) (fun _ => Level.coherent_opened _ _)
    (fun _ _ _ coherent => coherent) (fun m _ call _ _ => call.coherent_perform eval m)

/-! ### Failure consumes nothing -/

/-- In every state that the use of a matcher leads to, and whatever the
operands have done to the stream:

* an expression that is concluded with the result false leaves the stream
  where the expression began;
* a group that is closed with the result false leaves the stream where the
  group began, optional or not;
* a step of a typed expression does what the call does that it amounts to,
  so both hold of typed expressions as well. -/
theorem Reached.stream_eq_of_result_eq_false [LawfulRewindable σ]
    (h : Reached eval m j phase) :
    (((Call.result : Call ο).run eval m).reply = .concluded false →
      ((Call.result : Call ο).run eval m).matcher.stream = j.anchor) ∧
    (∀ q, ((Call.leaveGroup q : Call ο).run eval m).reply = .done →
      m.current.result = false →
      j.begun.head? = some ((Call.leaveGroup q : Call ο).run eval m).matcher.stream) ∧
    (∀ (p p' : Phase) (l : Link ο p p') (call : Call ο), phase = some p →
      l.call? = some call → l.perform eval m = call.run eval m) := by
  have tells := h.tells
  refine ⟨?_, ?_, ?_⟩
  · intro concluded
    have made : ((Call.result : Call ο).run eval m).reply.isRefused = false := by
      rw [concluded]
      rfl
    have sensible := Call.isRefused_run_eq_false_iff.1 made
    rw [Call.run_of_refusal?_eq_none sensible] at concluded ⊢
    have failed : m.current.result = false := Reply.concluded.inj concluded
    -- With no group open, the anchor is the only place in the journal.
    have closed : j.begun = [] := by
      rw [← List.length_eq_zero_iff, tells.length_begun]
      exact (Call.refusal?_result_eq_none_iff.1 sensible).2
    have places : j.places = [j.anchor] := by
      rw [Journal.places, closed, List.nil_append]
    exact (Matcher.stream_finish_of_false failed).trans (tells.rewind_entry places)
  · intro q done failed
    have made : ((Call.leaveGroup q : Call ο).run eval m).reply.isRefused = false := by
      rw [done]
      rfl
    have sensible := Call.isRefused_run_eq_false_iff.1 made
    have some_open := Call.refusal?_leaveGroup_eq_none_iff.1 sensible
    rw [Call.run_leaveGroup some_open]
    -- The place of the group that is closed stands first in the journal.
    cases begun : j.begun with
    | nil =>
      rw [← tells.length_begun, begun] at some_open
      cases some_open
    | cons place others =>
      have places : j.places = place :: (others ++ [j.anchor]) := by
        rw [Journal.places, begun, List.cons_append]
      exact congrArg some
        ((Matcher.stream_leaveGroup_of_false failed q).trans (tells.rewind_entry places)).symm
  · intro p p' l call current h'
    rw [l.perform_of_call? h',
      Call.run_of_refusal?_eq_none ((h.fits p current).refusal?_eq_none h')]

/-- A group that begins at 2, after a leap to 1 and a move, goes back there
from 0, and an expression that begins at 1 goes back there from 3, after a
refused call and a group that was dropped while it was being closed. -/
theorem Reached.stream_eq_of_leaps :
    (∃ (m : Matcher (Tape #['a', 'b', 'c']) Nat) (j : Journal (Tape #['a', 'b', 'c'])),
      Reached (Tape.leap _) m j none ∧ m.stream.pos = 0 ∧
      ((Call.leaveGroup .optional).run (Tape.leap _) m).reply = .done ∧
      m.current.result = false ∧
      j.begun.head? = some ((Call.leaveGroup .optional).run (Tape.leap _) m).matcher.stream ∧
      ((Call.leaveGroup .optional).run (Tape.leap _) m).matcher.stream.pos = 2) ∧
    (∃ (m : Matcher (Tape #['a', 'b', 'c']) Nat) (j : Journal (Tape #['a', 'b', 'c'])),
      Reached (Tape.leap _) m j (some (.operator 0)) ∧ m.stream.pos = 3 ∧
      Link.result.perform (Tape.leap _) m = Call.result.run (Tape.leap _) m ∧
      (Call.result.run (Tape.leap _) m).reply = .concluded false ∧
      (Call.result.run (Tape.leap _) m).matcher.stream = j.anchor ∧ j.anchor.pos = 1) := by
  have start : Reached (Tape.leap #['a', 'b', 'c']) (.start (.clamped _ 0)) _ none := .new _
  have first := start.call (.attempt (true, 1))
  have grouped := ((first.move (.clamped _ 2)).call (.connectEnter .and)).call (.attempt (false, 0))
  have dropped := ((start.expression.link .enterGroup).link (.attempt (true, 1))).link .leave
  have typed := ((dropped.call .result).expression).link (.attempt (false, 3))
  refine ⟨⟨_, _, grouped, rfl, rfl, rfl, ?_, rfl⟩, ⟨_, _, typed, rfl, ?_, rfl, ?_, rfl⟩⟩
  · exact (stream_eq_of_result_eq_false grouped).2.1 .optional rfl rfl
  · exact (stream_eq_of_result_eq_false typed).2.2 _ _ .result .result rfl rfl
  · exact (stream_eq_of_result_eq_false typed).1 rfl

end ScanExpr
