import ScanExpr.Proofs.Matcher.Session

/-!
# `ScanExpr.Proofs.Matcher.Log`: the reports as an account of the expression

A matcher reports the groups that it opens and closes. What it has reported
since the expression began is a word of brackets in which no bracket is
closed that was not opened, so the groups can be read off the log alone.

A report says something about the levels that are open when it is made.
`Event.Step` is what one report may say, given which of these levels skip all
of their operands, and `Event.Steps` is a log in which each report fits what
the ones before it have left open. That a matcher writes such a log is shown
call by call (`Call.steps_perform`) and then for every use of it
(`Logged.steps`). All else is about words:

* `Event.Balanced`: the log of whole groups, one after another and one inside
  the other.
* `Event.Unclosed`: the same with some groups still open, cut where each of
  them begins. Every account has this form (`Event.Unclosed.steps`), and it
  is a prefix of a balanced log (`Event.Unclosed.exists_balanced`).
* `Event.Steps.skipping`: from where a group is skipped to where it is closed
  all levels skip.

What a single call reports is told by where it leads (`Call.Reports`), and
the words in which it is refused by the groups that are open
(`Misuse.Reads`). `Logged.faithful` is the main result.
-/

set_option autoImplicit false

namespace ScanExpr

variable {σ μ ρ ο : Type}

namespace Event

/-! ### What a report says of the levels -/

def isOpened : Event → Bool
  | .opened .. => true
  | _ => false

def isClosed : Event → Bool
  | .closed .. => true
  | _ => false

/-- What a report does to the levels. Of each level it is told whether it
skips all of its operands, the innermost first. A group that is opened in a
level that skips everything does so too, and comes to the result false. -/
inductive Step : List Bool → Event → List Bool → Prop where
  | opened {around skipped : Bool} {levels : List Bool}
    (inherits : around = true → skipped = true) :
    Step (around :: levels) (.opened (levels.length + 1) skipped) (skipped :: around :: levels)
  | closed {around skipped inner : Bool} {levels : List Bool} (q : Quantifier)
    (failed : skipped = true → inner = false) :
    Step (skipped :: around :: levels)
      (.closed (levels.length + 1) q inner (q.outcome inner) (!inner)) (around :: levels)
  | refused {levels : List Bool} (misuse : Misuse) : Step levels (.refused misuse) levels

/-- What reports do to the levels, one after another. -/
inductive Steps : List Bool → List Event → List Bool → Prop where
  | nil {levels : List Bool} : Steps levels [] levels
  | cons {before between after : List Bool} {e : Event} {log : List Event}
    (first : Step before e between) (others : Steps between log after) :
    Steps before (e :: log) after

namespace Steps

variable {before between after levels : List Bool} {e : Event} {log later : List Event}

/-- A log of one report. -/
theorem single (step : Step before e after) : Steps before [e] after :=
  .cons step .nil

/-- A log gives account of the levels if both of its parts do, the second one
from where the first has led. -/
theorem append_iff :
    Steps before (log ++ later) after
      ↔ ∃ between, Steps before log between ∧ Steps between later after := by
  constructor
  · intro steps
    induction log generalizing before with
    | nil => exact ⟨before, .nil, steps⟩
    | cons e log ih =>
      cases steps with
      | cons first others =>
        obtain ⟨between, here, there⟩ := ih others
        exact ⟨between, .cons first here, there⟩
  · rintro ⟨between, here, there⟩
    induction here with
    | nil => exact there
    | cons first _ ih => exact .cons first (ih there)

/-- Logs that give account of the levels one after the other do so together. -/
theorem append (steps : Steps before log between) (more : Steps between later after) :
    Steps before (log ++ later) after :=
  append_iff.2 ⟨between, steps, more⟩

/-- Every report fits what the ones before it have left open. -/
theorem split (steps : Steps before (log ++ e :: later) after) :
    ∃ left left', Steps before log left ∧ Step left e left' ∧ Steps left' later after := by
  obtain ⟨left, here, there⟩ := append_iff.1 steps
  cases there with
  | cons first others => exact ⟨left, _, here, first, others⟩

/-- The levels that are left are those that there were, and one for each
group that was opened, but for those that were closed. -/
theorem count (steps : Steps before log after) :
    before.length + log.countP isOpened = after.length + log.countP isClosed := by
  induction steps with
  | nil => rfl
  | cons first _ ih =>
    cases first with
    | opened _ | closed _ _ | refused _ =>
      simp [List.countP_cons, isOpened, isClosed] at ih ⊢
      omega

/-- As long as a group is not closed that skips everything, all that is
opened in it skips everything too. -/
theorem skipping {inner outer : List Bool} {n : Nat}
    (steps : Steps (List.replicate (n + 1) true ++ outer) log inner)
    (still : ∀ q result outcome rewound, .closed outer.length q result outcome rewound ∉ log) :
    ∃ k, inner = List.replicate (k + 1) true ++ outer := by
  generalize entered : List.replicate (n + 1) true ++ outer = levels at steps
  -- Along the log. The invariant is that the levels above `outer` skip, one of them at least.
  induction steps generalizing n with
  | nil => exact ⟨n, entered.symm⟩
  | cons first _ ih =>
    have later := fun q result outcome rewound h =>
      still q result outcome rewound (List.mem_cons_of_mem _ h)
    cases first with
    | @opened around skipped levels inherits =>
      obtain ⟨rfl, rfl⟩ := List.cons.inj entered
      obtain rfl := inherits rfl
      exact ih (n := n + 1) later rfl
    | @closed around skipped result levels q failed =>
      obtain ⟨rfl, rest⟩ := List.cons.inj entered
      -- The last of these levels cannot be left, for this is what `still` forbids.
      cases n with
      | zero =>
        obtain rfl : outer = around :: levels := rest
        exact absurd List.mem_cons_self (still q _ _ _)
      | succ n => exact ih later rest
    | refused misuse => exact ih later entered

/-- The depth with which a group is opened counts the groups that are open
then, this one included. -/
theorem depth_of_opened {d : Nat} {level skipped : Bool}
    (steps : Steps [level] (log ++ .opened d skipped :: later) after) :
    log.countP isOpened + 1 = log.countP isClosed + d := by
  obtain ⟨left, _, here, step, _⟩ := steps.split
  have count := here.count
  cases step with
  | opened _ =>
    simp only [List.length_cons, List.length_nil] at count
    omega

/-- From where a group is skipped to where it is closed every group that is
opened is skipped, and every group that is closed has the result false. -/
theorem skips_until_closed {d : Nat} {inside : List Event}
    (steps : Steps before (log ++ .opened d true :: (inside ++ e :: later)) after)
    (still : ∀ q result outcome rewound, .closed d q result outcome rewound ∉ inside) :
    (∀ d' skipped, e = .opened d' skipped → skipped = true) ∧
    (∀ d' q result outcome rewound, e = .closed d' q result outcome rewound → result = false) := by
  obtain ⟨left, _, _, entering, steps⟩ := steps.split
  obtain ⟨left', _, within, step, _⟩ := steps.split
  cases entering with
  | @opened around _ levels _ =>
    -- When `e` is reported, the innermost level skips everything.
    have entered : Steps (List.replicate 1 true ++ around :: levels) inside left' := within
    obtain ⟨k, innermost⟩ := entered.skipping still
    rw [List.replicate_succ, List.cons_append] at innermost
    generalize List.replicate k true ++ around :: levels = others at innermost
    subst innermost
    cases step with
    | opened inherits =>
      refine ⟨?_, fun _ _ _ _ _ => Event.noConfusion⟩
      rintro d' skipped ⟨⟩
      exact inherits rfl
    | closed q failed =>
      refine ⟨fun _ _ => Event.noConfusion, ?_⟩
      rintro d' q result outcome rewound ⟨⟩
      exact failed rfl
    | refused misuse => exact ⟨fun _ _ => Event.noConfusion, fun _ _ _ _ _ => Event.noConfusion⟩

end Steps

/-! ### Groups in a log -/

/-- What is reported between two points at which the same `depth` groups are
open: whole groups, and refusals. -/
inductive Balanced : Nat → List Event → Prop where
  | nil {depth : Nat} : Balanced depth []
  | refused {depth : Nat} {later : List Event} (misuse : Misuse) (others : Balanced depth later) :
    Balanced depth (.refused misuse :: later)
  | group {depth : Nat} {inside later : List Event} {skipped inner outcome rewound : Bool}
    {q : Quantifier} (within : Balanced (depth + 1) inside) (others : Balanced depth later) :
    Balanced depth (.opened (depth + 1) skipped ::
      (inside ++ .closed (depth + 1) q inner outcome rewound :: later))

/-- Two balanced logs of the same depth make a balanced log. -/
theorem Balanced.append {depth : Nat} {log later : List Event} (first : Balanced depth log)
    (second : Balanced depth later) : Balanced depth (log ++ later) := by
  induction first with
  | nil => exact second
  | refused misuse _ ih => exact .refused misuse (ih second)
  | group within _ _ ih =>
    rw [List.cons_append, List.append_assoc, List.cons_append]
    exact .group within (ih second)

/-- No group of the depth itself is closed between the two points. -/
theorem Balanced.closed_notMem {depth : Nat} {log : List Event} (balanced : Balanced depth log)
    {d : Nat} {q : Quantifier} {inner outcome rewound : Bool} (le : d ≤ depth) :
    .closed d q inner outcome rewound ∉ log := by
  -- Inside a group the depth is larger by one, so its reports are of other depths.
  induction balanced with
  | nil => exact List.not_mem_nil
  | refused misuse _ ih => simp [ih le]
  | group _ _ within later =>
    have deeper : d ≠ _ + 1 := Nat.ne_of_lt (Nat.lt_succ_of_le le)
    simp [within (Nat.le_succ_of_le le), later le, deeper]

/-- The log of an expression of which some groups are still open. It is
balanced between the starts of any two of them. -/
inductive Unclosed : List Event → List Bool → Prop where
  | outermost {log : List Event} {level : Bool} (balanced : Balanced 0 log) :
    Unclosed log [level]
  | inner {log inside : List Event} {skipped around : Bool} {levels : List Bool}
    (before : Unclosed log (around :: levels)) (within : Balanced (levels.length + 1) inside) :
    Unclosed (log ++ .opened (levels.length + 1) skipped :: inside) (skipped :: around :: levels)

namespace Unclosed

variable {log later : List Event} {levels left : List Bool} {level skipped around : Bool}
  {e : Event}

/-- Whole groups in the innermost level leave the same groups open. -/
theorem append (unclosed : Unclosed log (level :: levels)) (more : Balanced levels.length later) :
    Unclosed (log ++ later) (level :: levels) := by
  cases unclosed with
  | outermost balanced => exact .outermost (balanced.append more)
  | inner before within =>
    rw [List.append_assoc, List.cons_append]
    exact .inner before (within.append more)

/-- The innermost group is closed, whatever is said of it. -/
theorem close (unclosed : Unclosed log (skipped :: around :: levels)) (q : Quantifier)
    (result outcome rewound : Bool) :
    Unclosed (log ++ [.closed (levels.length + 1) q result outcome rewound])
      (around :: levels) := by
  cases unclosed with
  | inner before within =>
    rw [List.append_assoc, List.cons_append]
    exact before.append (.group within .nil)

/-- A log with some groups open stays one, with one group more or less, when a
report is added. -/
theorem step (unclosed : Unclosed log levels) (step : Step levels e left) :
    Unclosed (log ++ [e]) left := by
  cases step with
  | opened inherits => exact .inner unclosed .nil
  | closed q failed => exact unclosed.close q _ _ _
  | refused misuse =>
    cases levels with
    | nil => cases unclosed
    | cons level levels => exact unclosed.append (.refused misuse .nil)

/-- A log with some groups open stays one when any number of reports are added. -/
theorem steps (unclosed : Unclosed log levels) (steps : Steps levels later left) :
    Unclosed (log ++ later) left := by
  induction steps generalizing log with
  | nil =>
    rw [List.append_nil]
    exact unclosed
  | cons first _ ih =>
    rw [List.append_cons]
    exact ih (unclosed.step first)

/-- A log to which the ends of the groups are added that are still open is
balanced. -/
theorem exists_balanced (unclosed : Unclosed log levels) :
    ∃ later, Balanced 0 (log ++ later) := by
  -- From the innermost group outwards: it is closed, and the others are left.
  induction levels generalizing log with
  | nil => cases unclosed
  | cons skipped levels ih =>
    cases levels with
    | nil =>
      cases unclosed with
      | outermost balanced => exact ⟨[], balanced.append .nil⟩
    | cons around levels =>
      obtain ⟨later, balanced⟩ := ih (unclosed.close .required false false true)
      rw [← List.append_cons] at balanced
      exact ⟨_, balanced⟩

end Unclosed

/-- A group that is closed has been opened at the same depth, with whole
groups in between. -/
theorem Steps.pair_of_closed {after : List Bool} {log later : List Event} {d : Nat}
    {level inner outcome rewound : Bool} {q : Quantifier}
    (steps : Steps [level] (log ++ .closed d q inner outcome rewound :: later) after) :
    outcome = q.outcome inner ∧ rewound = !inner ∧
    ∃ earlier skipped inside, log = earlier ++ .opened d skipped :: inside ∧
      Balanced d inside := by
  obtain ⟨left, _, here, step, _⟩ := steps.split
  have unclosed : Unclosed log left := Unclosed.steps (.outermost .nil) here
  -- The group that is closed is the innermost one, and the log is cut where it began.
  cases step with
  | closed q failed =>
    cases unclosed with
    | inner around within => exact ⟨rfl, rfl, _, _, _, rfl, within⟩

end Event

/-! ### What a matcher reports -/

/-- For each level whether it skips all of its operands, the innermost
first. -/
def Matcher.skips (m : Matcher σ μ) : List Bool :=
  m.levels.map Level.skipsAll

/-- There is a level for each open group, and one for the expression. -/
theorem Matcher.length_skips (m : Matcher σ μ) : m.skips.length = m.depth + 1 :=
  List.length_map _

/-- The words in which a misuse is reported while `depth` groups are open. A
group cannot be closed only if there is none, and the refusal of a result
tells how many there are. -/
inductive Misuse.Reads (depth : Nat) : Misuse → String → Prop where
  | strayConnective : Reads depth .strayConnective "operator without a preceding operand"
  | nothingAttempted :
    Reads depth .nothingAttempted "result requested without trying to match anything"
  | noOpenGroup (none_open : depth = 0) :
    Reads depth .noOpenGroup "end without a matching begin"
  | groupsLeftOpen (some_open : 0 < depth) :
    Reads depth (.groupsLeftOpen depth)
      ("result requested with " ++ toString depth ++ " group(s) still open")

/-- A call is refused in the words that fit the groups that are open. -/
theorem Call.reads_of_refusal? {m : Matcher σ μ} {call : Call ο} {misuse : Misuse}
    (refused : call.refusal? m = some misuse) : misuse.Reads m.depth misuse.message := by
  have none_open : m.suspended.isEmpty = true → m.depth = 0 :=
    m.suspended.isEmpty_iff_depth_eq_zero.1
  have some_open : m.suspended.isEmpty = false → 0 < m.depth := fun some_waits =>
    Nat.pos_of_ne_zero fun zero =>
      Bool.false_ne_true (some_waits.symm.trans (m.suspended.isEmpty_iff_depth_eq_zero.2 zero))
  cases call with
  | attempt _ | enterGroup | restart => cases refused
  | connect _ | connectEnter _ =>
    rw [refusal?] at refused
    split at refused
    · cases refused
    · cases refused
      exact .strayConnective
  | leaveGroup _ =>
    rw [refusal?] at refused
    split at refused
    · rename_i empty
      cases refused
      exact .noOpenGroup (none_open empty)
    · cases refused
  | result =>
    rw [refusal?] at refused
    split at refused
    · cases refused
      exact .nothingAttempted
    · split at refused
      · cases refused
      · rename_i some_waits
        cases refused
        exact .groupsLeftOpen (some_open (Bool.eq_false_iff.2 some_waits))

/-- What a call that is made reports, if it leads from the one matcher to the
other. The start of a group is reported by the depth inside it, and its end
by the same depth. -/
inductive Call.Reports (m after : Matcher σ μ) : Call ο → List Event → Prop where
  | attempt (op : ο) : Reports m after (.attempt op) []
  | connect (c : Connective) : Reports m after (.connect c) []
  | enterGroup (deeper : after.depth = m.depth + 1) :
    Reports m after .enterGroup [.opened after.depth after.current.skipsAll]
  | connectEnter (c : Connective) (deeper : after.depth = m.depth + 1) :
    Reports m after (.connectEnter c) [.opened after.depth after.current.skipsAll]
  | leaveGroup (q : Quantifier) (shallower : m.depth = after.depth + 1) :
    Reports m after (.leaveGroup q) [.closed m.depth q m.current.result
      (q.outcome m.current.result) (!m.current.result)]
  | result : Reports m after .result [.concluded m.current.result]
  | restart : Reports m after .restart []

section

variable [Rewindable σ μ] {eval : ο → σ → Verdict σ ρ} {m : Matcher σ μ} {t : Turn ο}
  {log : List Event} {phase : Option Phase}

/-- A call that is made reports the group that it opens or closes, and the
result that it gives. -/
theorem Call.reports_perform {call : Call ο} (sensible : call.refusal? m = none) :
    call.Reports m (call.perform eval m).matcher (call.perform eval m).events := by
  cases call with
  | attempt op => exact .attempt op
  | connect c => exact .connect c
  | enterGroup => exact .enterGroup rfl
  | connectEnter c => exact .connectEnter c rfl
  | leaveGroup q =>
    have some_open := Call.refusal?_leaveGroup_eq_none_iff.1 sensible
    refine .leaveGroup q ?_
    show m.depth = (m.leaveGroup q).depth + 1
    rw [Matcher.depth_leaveGroup]
    exact (Nat.sub_add_cancel some_open).symm
  | result => exact .result
  | restart => exact .restart

/-- A group that is opened is reported with what it inherits from the level
around it. -/
theorem Matcher.step_enterGroup (m : Matcher σ μ) :
    Event.Step m.skips m.enterGroup.openedEvent m.enterGroup.skips := by
  have opened : m.enterGroup.openedEvent
      = .opened ((m.suspended.levels.map Level.skipsAll).length + 1) m.current.skipsChild := by
    rw [List.length_map]
    rfl
  rw [opened]
  exact .opened fun all => by rw [Level.skipsChild, all, Bool.true_or]

/-- A group that is closed is reported with its result, which is false if all
of it was skipped. -/
theorem Matcher.step_leaveGroup (sound : m.current.Sound) (some_open : 0 < m.depth)
    (q : Quantifier) : Event.Step m.skips (m.closedEvent q) (m.leaveGroup q).skips := by
  obtain ⟨stream, ⟨levels⟩, current, attempted⟩ := m
  cases levels with
  | nil => cases some_open
  | cons parent rest =>
    rw [closedEvent, depth, LevelStack.depth, List.length_cons,
      ← rest.length_map (f := Level.skipsAll)]
    exact .closed q sound.failed

/-- A call that is made, and does not end the expression, reports what it
does to the levels. -/
theorem Call.steps_perform (sound : m.current.Sound) {call : Call ο}
    (sensible : call.refusal? m = none) (goes_on : call.isAnchor = false) :
    Event.Steps m.skips (call.perform eval m).events (call.perform eval m).matcher.skips := by
  cases call with
  | attempt op =>
    have same : (m.attempt (eval op)).1.skips = m.skips := by
      rw [Matcher.attempt]
      split <;> rfl
    show Event.Steps m.skips [] (m.attempt (eval op)).1.skips
    rw [same]
    exact .nil
  | connect c => exact .nil
  | enterGroup => exact .single m.step_enterGroup
  | connectEnter c => exact .single (m.connect c).step_enterGroup
  | leaveGroup q =>
    have some_open := Call.refusal?_leaveGroup_eq_none_iff.1 sensible
    exact .single (m.step_leaveGroup sound some_open q)
  | result | restart => cases goes_on

namespace Turn

/-- What a turn can do: it makes the call that it amounts to, it is refused,
or it is the end of a group whose quantifier is still to be chosen. -/
theorem run_cases (eval : ο → σ → Verdict σ ρ) (fits : ∀ p ∈ phase, p.Fits m)
    (comes : t.ComesIn phase) :
    (∃ call, t.call? = some call ∧ call.refusal? m = none ∧ t.run eval m = call.perform eval m) ∨
    (∃ call misuse, t.call? = some call ∧ call.refusal? m = some misuse ∧ t.begins = false ∧
      t.run eval m = ⟨.refused misuse, m, [.refused misuse]⟩) ∨
    (t.call? = none ∧ t.begins = false ∧ t.run eval m = ⟨.done, m, []⟩) := by
  -- A call is checked, and a typed step makes sense by its type.
  cases t with
  | call c =>
    rw [run, Call.run]
    cases sensible : c.refusal? m with
    | some misuse =>
      refine .inr (.inl ⟨c, misuse, rfl, sensible, ?_, rfl⟩)
      -- A call that begins an expression is never refused.
      cases c with
      | restart => cases sensible
      | attempt _ | connect _ | enterGroup | connectEnter _ | leaveGroup _ | result => rfl
    | none => exact .inl ⟨c, rfl, sensible, rfl⟩
  | expression => exact .inl ⟨.restart, rfl, rfl, rfl⟩
  | link l =>
    obtain rfl : phase = _ := comes
    cases amounts : l.call? with
    | some call =>
      exact .inl ⟨call, amounts, (fits _ rfl).refusal?_eq_none amounts, l.perform_of_call? amounts m⟩
    | none =>
      refine .inr (.inr ⟨amounts, ?_, l.perform_of_call?_eq_none amounts m⟩)
      simp [begins, call?, amounts]

/-- What has been reported since the last anchor, after a turn: nothing, if
the turn is an anchor, and else what was reported before and what the turn
reports. -/
def logged (log : List Event) (t : Turn ο) (outcome : Outcome σ μ ρ) : List Event :=
  if t.begins || outcome.reply.result?.isSome then [] else log ++ outcome.events

end Turn

/-- The states that the use of a matcher leads to, each with all that has
been reported since the expression began. -/
inductive Logged (eval : ο → σ → Verdict σ ρ) :
    List Event → Matcher σ μ → Option Phase → Prop where
  | new (s : σ) : Logged eval [] (.start s) none
  /-- A move of the stream, to anywhere. -/
  | move {log : List Event} {m : Matcher σ μ} {phase : Option Phase} (s : σ) :
    Logged eval log m phase → Logged eval log { m with stream := s } none
  /-- A call, accepted or refused, or a part of a typed expression. -/
  | turn {log : List Event} {m : Matcher σ μ} {phase : Option Phase} (t : Turn ο)
    (comes : t.ComesIn phase) : Logged eval log m phase →
    Logged eval (t.logged log (t.run eval m)) (t.run eval m).matcher t.phaseAfter

namespace Logged

/-- The states that a log is kept of are those that the use of a matcher leads
to. -/
theorem reached (h : Logged eval log m phase) : ∃ j, Reached eval m j phase := by
  induction h with
  | new s => exact ⟨_, .new s⟩
  | move s _ ih =>
    obtain ⟨j, reached⟩ := ih
    exact ⟨j, reached.move s⟩
  | turn t comes _ ih =>
    obtain ⟨j, reached⟩ := ih
    cases t with
    | call c => exact ⟨_, reached.call c⟩
    | expression => exact ⟨_, reached.expression⟩
    | link l =>
      obtain rfl := comes
      exact ⟨_, reached.link l⟩

/-- The phase of the typed expression fits the matcher that a log is kept of. -/
theorem fits (h : Logged eval log m phase) : ∀ p ∈ phase, p.Fits m := by
  obtain ⟨j, reached⟩ := h.reached
  exact reached.fits

/-- The log gives account of the levels. -/
theorem steps (h : Logged eval log m phase) : Event.Steps [false] log m.skips := by
  -- Along the use of the matcher. A move leaves the levels alone, and an anchor begins a new log.
  induction h with
  | new s => exact .nil
  | move s _ ih => exact ih
  | @turn log m phase t comes before ih =>
    rcases Turn.run_cases eval before.fits comes with
      ⟨call, amounts, sensible, made⟩ | ⟨_, misuse, _, _, goes_on, refused⟩ | ⟨_, goes_on, idle⟩
    · obtain ⟨j, reached⟩ := before.reached
      have sound := reached.consistent.nest.head
      rw [made, Turn.logged, Turn.begins, amounts]
      cases call with
      | result | restart => exact .nil
      | attempt _ | connect _ | enterGroup | connectEnter _ | leaveGroup _ =>
        exact ih.append (Call.steps_perform sound sensible rfl)
    · rw [refused, Turn.logged, goes_on]
      exact ih.append (.single (.refused misuse))
    · rw [idle, Turn.logged, goes_on]
      exact ih.append .nil

/-- As many groups have been opened as were closed or are open. -/
theorem count (h : Logged eval log m phase) :
    log.countP Event.isOpened = log.countP Event.isClosed + m.depth := by
  have count := h.steps.count
  rw [Matcher.length_skips, List.length_singleton] at count
  omega

/-- A turn that amounts to a call that makes sense makes that call, and
reports what the call does. -/
theorem reports (h : Logged eval log m phase) (comes : t.ComesIn phase) {call : Call ο}
    (amounts : t.call? = some call) (sensible : call.refusal? m = none) :
    call.Reports m (t.run eval m).matcher (t.run eval m).events := by
  rcases Turn.run_cases eval h.fits comes with
    ⟨made, amounts', _, run⟩ | ⟨refused, _, amounts', misused, _⟩ | ⟨nothing, _⟩
  · obtain rfl := Option.some.inj (amounts.symm.trans amounts')
    rw [run]
    exact Call.reports_perform sensible
  · obtain rfl := Option.some.inj (amounts.symm.trans amounts')
    cases sensible.symm.trans misused
  · cases nothing.symm.trans amounts

/-- A turn that is refused reports its misuse, in words that fit the groups
that are open. -/
theorem events_of_refused (h : Logged eval log m phase) (comes : t.ComesIn phase)
    {misuse : Misuse} (refused : (t.run eval m).reply = .refused misuse) :
    (t.run eval m).events = [.refused misuse] ∧ misuse.Reads m.depth misuse.message := by
  rcases Turn.run_cases eval h.fits comes with
    ⟨call, _, _, made⟩ | ⟨call, _, _, misused, _, run⟩ | ⟨_, _, run⟩
  · have accepted : (call.perform eval m).reply.isRefused = false := call.isRefused_perform m
    rw [← made, refused] at accepted
    cases accepted
  · rw [run] at refused ⊢
    obtain rfl := Reply.refused.inj refused
    exact ⟨rfl, Call.reads_of_refusal? misused⟩
  · rw [run] at refused
    cases refused

/-- When the result is given, nothing else is reported, and no group is
open. -/
theorem events_of_concluded (h : Logged eval log m phase) (comes : t.ComesIn phase)
    {matched : Bool} (concluded : (t.run eval m).reply = .concluded matched) :
    (t.run eval m).events = [.concluded matched] ∧
    log.countP Event.isOpened = log.countP Event.isClosed := by
  rcases Turn.run_cases eval h.fits comes with
    ⟨call, _, sensible, made⟩ | ⟨_, _, _, _, _, run⟩ | ⟨_, _, run⟩
  · rw [made] at concluded ⊢
    cases call with
    | result =>
      obtain rfl := Reply.concluded.inj concluded
      have closed := (Call.refusal?_result_eq_none_iff.1 sensible).2
      have count := h.count
      rw [closed] at count
      exact ⟨rfl, count⟩
    | attempt _ | connect _ | enterGroup | connectEnter _ | leaveGroup _ | restart =>
      cases concluded
  · rw [run] at concluded
    cases concluded
  · rw [run] at concluded
    cases concluded

/-- What has been reported since an expression began is an account of its
groups, in every state that the use of a matcher leads to, by calls, refused
ones among them, by typed expressions, finished or dropped, and by moves of
the stream, with operands that do anything:

* the log leads from one level that skips nothing to the levels that the
  matcher has, so as many groups have been opened as were closed or are open;
* a call that is made reports the group that it opens or closes, with the
  depth that it leads to or comes from, or the result that it gives, and
  nothing else;
* the log is a prefix of one that is balanced;
* the depth with which a group is reported as opened is the number of groups
  that are open then, this one included;
* a group that is reported as closed counts for what its quantifier makes of
  its result, and is rewound if the result is false; the report of its
  beginning comes earlier, with the same depth, and in between the log is
  balanced, so no group of this depth is closed there;
* after the report of a group that is skipped, and up to where this group is
  closed, all groups that are opened are skipped, and all groups that are
  closed, this one included, have the result false;
* a call that is refused reports its misuse, with the text of the error, and
  nothing else;
* when the result is given, it is reported and nothing else is, and as many
  groups have been closed as were opened. -/
theorem faithful (h : Logged eval log m phase) :
    (Event.Steps [false] log m.skips ∧
      log.countP Event.isOpened = log.countP Event.isClosed + m.depth) ∧
    (∀ (t : Turn ο) call, t.ComesIn phase → t.call? = some call → call.refusal? m = none →
      call.Reports m (t.run eval m).matcher (t.run eval m).events) ∧
    (∃ later, Event.Balanced 0 (log ++ later)) ∧
    (∀ before d skipped later, log = before ++ .opened d skipped :: later →
      before.countP Event.isOpened + 1 = before.countP Event.isClosed + d) ∧
    (∀ before d q inner outcome rewound later,
      log = before ++ .closed d q inner outcome rewound :: later →
      outcome = q.outcome inner ∧ rewound = !inner ∧
      ∃ earlier skipped inside, before = earlier ++ .opened d skipped :: inside ∧
        Event.Balanced d inside ∧
        ∀ q inner outcome rewound, .closed d q inner outcome rewound ∉ inside) ∧
    (∀ before d inside e later, log = before ++ .opened d true :: (inside ++ e :: later) →
      (∀ q inner outcome rewound, .closed d q inner outcome rewound ∉ inside) →
      (∀ d' skipped, e = .opened d' skipped → skipped = true) ∧
      (∀ d' q inner outcome rewound, e = .closed d' q inner outcome rewound → inner = false)) ∧
    (∀ (t : Turn ο) misuse, t.ComesIn phase → (t.run eval m).reply = .refused misuse →
      (t.run eval m).events = [.refused misuse] ∧ (Event.refused misuse).severity = .debug ∧
      (Event.refused misuse).message = "matcher misuse" ∧
      (Event.refused misuse).error? = some misuse.message ∧
      misuse.Reads m.depth misuse.message) ∧
    (∀ (t : Turn ο) matched, t.ComesIn phase → (t.run eval m).reply = .concluded matched →
      (t.run eval m).events = [.concluded matched] ∧
      log.countP Event.isOpened = log.countP Event.isClosed) := by
  have steps := h.steps
  -- All but the part about what a turn reports follows from the account of the levels.
  have unclosed : Event.Unclosed log m.skips := Event.Unclosed.steps (.outermost .nil) steps
  refine ⟨⟨steps, h.count⟩, ?_, unclosed.exists_balanced, ?_, ?_, ?_, ?_, ?_⟩
  · intro t call comes amounts sensible
    exact h.reports comes amounts sensible
  · rintro before d skipped later rfl
    exact steps.depth_of_opened
  · rintro before d q inner outcome rewound later rfl
    obtain ⟨counts, rewinds, earlier, skipped, inside, rfl, within⟩ := steps.pair_of_closed
    exact ⟨counts, rewinds, earlier, skipped, inside, rfl, within,
      fun _ _ _ _ => within.closed_notMem (Nat.le_refl d)⟩
  · rintro before d inside e later rfl still
    exact steps.skips_until_closed still
  · intro t misuse comes refused
    obtain ⟨reported, reads⟩ := h.events_of_refused comes refused
    exact ⟨reported, rfl, rfl, rfl, reads⟩
  · intro t matched comes concluded
    exact h.events_of_concluded comes concluded

/-- A group is skipped with an optional group in it, a group is closed that
was never opened, and the result is true. -/
theorem faithful_skipped :
    ∃ (log : List Event) (m : Matcher (Tape #['a', 'b', 'c']) Nat),
      Logged (Tape.leap _) log m none ∧
      log = [.opened 1 true, .opened 2 true, .closed 2 .optional false true true,
        .closed 1 .required false false true, .refused .noOpenGroup] ∧
      Event.Steps [false] log [false] ∧
      Call.Reports m ((Turn.call .enterGroup).run (Tape.leap _) m).matcher
        (.enterGroup : Call (Bool × Nat)) [.opened 1 false] ∧
      (∃ later, Event.Balanced 0 (log ++ later)) ∧
      [Event.opened 1 true].countP Event.isOpened + 1 = 0 + 2 ∧
      (∃ earlier skipped inside, [.opened 1 true, .opened 2 true,
        .closed 2 .optional false true true] = earlier ++ .opened 1 skipped :: inside ∧
        Event.Balanced 1 inside) ∧
      ((Turn.call (.leaveGroup .required)).run (Tape.leap _) m).events
        = [.refused .noOpenGroup] ∧
      (Event.refused .noOpenGroup).error? = some "end without a matching begin" ∧
      ((Turn.call .result).run (Tape.leap _) m).events = [.concluded true] ∧
      log.countP Event.isOpened = log.countP Event.isClosed := by
  have start : Logged (Tape.leap #['a', 'b', 'c']) [] (.start (.clamped _ 0)) none := .new _
  have entered := (start.turn (.call (.attempt (true, 1))) trivial).turn
    (.call (.connectEnter .or)) trivial
  have inner := ((entered.turn (.call .enterGroup) trivial).turn
    (.call (.attempt (true, 2))) trivial).turn (.call (.leaveGroup .optional)) trivial
  have left := (inner.turn (.call (.leaveGroup .required)) trivial).turn
    (.call (.leaveGroup .required)) trivial
  have ⟨⟨steps, _⟩, reports, balanced, depth, pair, _, refused, concluded⟩ := left.faithful
  have ⟨_, _, earlier, skipped, inside, before, within, _⟩ :=
    pair [.opened 1 true, .opened 2 true, .closed 2 .optional false true true] 1 .required
      false false true [.refused .noOpenGroup] rfl
  have ⟨reported, _, _, error, _⟩ :=
    refused (.call (.leaveGroup .required)) .noOpenGroup trivial rfl
  have ⟨told, same⟩ := concluded (.call .result) true trivial rfl
  exact ⟨_, _, left, rfl, steps, reports (.call .enterGroup) .enterGroup trivial rfl rfl, balanced,
    depth [.opened 1 true] 2 true _ rfl, ⟨earlier, skipped, inside, before, within⟩, reported,
    error, told, same⟩

end Logged

end

end ScanExpr
