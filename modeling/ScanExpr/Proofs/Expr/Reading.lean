import ScanExpr.Matcher.Basic
import ScanExpr.Proofs.Expr.Level

/-!
# `ScanExpr.Proofs.Expr.Reading`: one level from its opening on

A level is handed connectives and operands, in any order and any number. An
operand of which the level knows that it cannot matter is not run. That is
decided early, when the connective before it is read, and kept in a flag that
later connectives overwrite and operands reset.

`Level.plain` is what the same steps come to if every operand is run. It has a
running result and a connective that waits, and no flags.

* `Level.Reading.Agrees`: what holds of a level and its record after any steps.
* `Level.Reading.Agrees.read`, `Level.agrees_readAll`: one step preserves it,
  and so it holds from the opening of a level on.
* `Level.readAll_runs_needed`: nothing is lost by skipping, and nothing is run
  that could have been skipped.
* `Matcher.attempt_eq`: a matcher reads its operands as its current level does.
-/

set_option autoImplicit false

namespace ScanExpr

namespace Level

variable {μ : Type}

/-! ### Steps -/

/-- Something that is read at a level. -/
inductive Step where
  /-- What joins the next operand to those before it, which may be nothing. -/
  | join (pending : Option Connective)
  /-- An operand, with the outcome that it has if it is run. -/
  | operand (outcome : Bool)

/-- What has come of the steps so far. -/
structure Reading (μ : Type) where
  level : Level μ
  /-- The outcomes of the operands that were run, in order. -/
  runs : List Bool

/-- An operand that puts its outcome on record when it is run. -/
def recorded (outcome : Bool) : StateM (List Bool) Bool := do
  modify (· ++ [outcome])
  return outcome

/-- Reads a step. -/
def Reading.read (r : Reading μ) : Step → Reading μ
  | .join pending => ⟨r.level.setPending pending, r.runs⟩
  | .operand outcome =>
    let (level, runs) := (r.level.attempt (recorded outcome)).run r.runs
    ⟨level, runs⟩

/-- Reads steps one after the other, nothing having been read before. -/
def readAll (l : Level μ) (steps : List Step) : Reading μ :=
  steps.foldl Reading.read ⟨l, []⟩

/-- An operand is on record if it was not to be skipped. -/
theorem Reading.read_operand (r : Reading μ) (outcome : Bool) :
    r.read (.operand outcome)
      = ⟨r.level.fold outcome, r.runs ++ if r.level.skipsNext then [] else [outcome]⟩ := by
  simp only [read, attempt]
  -- The record is kept by the state that the operand runs in, and a skipped operand does not run.
  cases next : r.level.skipsNext with
  | true =>
    rw [fold_of_skipsNext next outcome false]
    exact congrArg (Reading.mk _) (List.append_nil r.runs).symm
  | false => rfl

/-! ### Nothing skipped -/

/-- What is to be known of a level at which every operand is run. -/
structure Plain where
  running : Bool
  /-- What joins the next operand. -/
  pending : Option Connective

/-- Reads a step, an operand as its connective says. -/
def Plain.read (p : Plain) : Step → Plain
  | .join pending => ⟨p.running, pending⟩
  | .operand outcome => ⟨Connective.combine p.pending p.running outcome, none⟩

/-- The fold of the outcomes of all operands, each by the connective that
waits when it is read. -/
def plain (steps : List Step) : Plain :=
  steps.foldl Plain.read ⟨false, none⟩

/-- One more operand is combined with what the steps before it come to. -/
theorem running_plain_operand (steps : List Step) (outcome : Bool) :
    (plain (steps ++ [.operand outcome])).running
      = Connective.combine (plain steps).pending (plain steps).running outcome := by
  rw [plain, List.foldl_append]
  rfl

end Level

/-- The outcome of an operand matters unless the connective before it decides
without it. -/
theorem Connective.combine_ne_combine_not_iff {pending : Option Connective}
    {running outcome : Bool} :
    combine pending running outcome ≠ combine pending running (!outcome)
      ↔ decides pending running = false := by
  cases decided : decides pending running with
  | true =>
    rw [combine_of_decides decided, combine_of_decides decided]
    simp
  | false =>
    rw [combine_of_decides_eq_false decided, combine_of_decides_eq_false decided]
    simp

namespace Level

variable {μ : Type}

/-! ### What holds after any steps -/

/-- The reading of a level that was opened at `entry`, where operands may be
skipped, agrees with what the steps come to if every operand is run. -/
structure Reading.Agrees (r : Reading μ) (entry : μ) (skipped : Bool) (p : Plain) : Prop where
  coherent : r.level.Coherent
  entry_eq : r.level.entry = entry
  skipsAll_eq : r.level.skipsAll = skipped
  pending_eq : r.level.pending = p.pending
  result_eq : r.level.result = (!skipped && p.running)
  /-- The result is the outcome of the last operand that was run. -/
  last_eq : r.level.result = r.runs.getLastD false
  runs_eq_nil : skipped = true → r.runs = []

variable {entry : μ} {skipped : Bool} {p : Plain} {r : Reading μ}

/-- A connective changes nothing but what waits. -/
theorem Reading.Agrees.join (h : r.Agrees entry skipped p) (pending : Option Connective) :
    (r.read (.join pending)).Agrees entry skipped (p.read (.join pending)) where
  coherent := r.level.coherent_setPending pending
  entry_eq := h.entry_eq
  skipsAll_eq := h.skipsAll_eq
  pending_eq := rfl
  result_eq := h.result_eq
  last_eq := h.last_eq
  runs_eq_nil := h.runs_eq_nil

/-- Skipped or not, an outcome is folded in as if nothing were ever skipped,
unless everything is. -/
theorem Reading.Agrees.result_fold (h : r.Agrees entry skipped p) (outcome : Bool) :
    (r.level.fold outcome).result
      = (!skipped && Connective.combine p.pending p.running outcome) := by
  -- Where everything is skipped the result stays at the false that the level was opened with.
  cases skipped with
  | true =>
    have next := h.coherent.skipsNext_of_skipsAll h.skipsAll_eq
    exact (result_fold_of_skipsNext next outcome).trans h.result_eq
  | false =>
    have combined := h.coherent.result_fold_eq_combine h.skipsAll_eq outcome
    rw [h.pending_eq, h.result_eq] at combined
    exact combined

/-- An operand, whether it is run or skipped, keeps the level in agreement. -/
theorem Reading.Agrees.operand (h : r.Agrees entry skipped p) (outcome : Bool) :
    (r.read (.operand outcome)).Agrees entry skipped (p.read (.operand outcome)) := by
  rw [Reading.read_operand]
  refine
    { coherent := r.level.coherent_fold outcome
      entry_eq := h.entry_eq
      skipsAll_eq := h.skipsAll_eq
      pending_eq := rfl
      result_eq := h.result_fold outcome
      last_eq := ?_
      runs_eq_nil := ?_ }
  · show (r.level.fold outcome).result = _
    -- The last operand that was run is this one, or the same as before if this one is skipped.
    cases next : r.level.skipsNext with
    | true =>
      rw [result_fold_of_skipsNext next, h.last_eq]
      simp
    | false =>
      rw [h.coherent.result_fold next]
      simp
  -- A level that skips everything never has anything on record.
  · intro all
    have next := h.coherent.skipsNext_of_skipsAll (h.skipsAll_eq.trans all)
    simp [h.runs_eq_nil all, next]

/-- One step of any kind keeps the level in agreement. -/
theorem Reading.Agrees.read (h : r.Agrees entry skipped p) (step : Step) :
    (r.read step).Agrees entry skipped (p.read step) := by
  cases step with
  | join pending => exact h.join pending
  | operand outcome => exact h.operand outcome

/-- Any number of steps keep the level in agreement. -/
theorem Reading.Agrees.foldl (h : r.Agrees entry skipped p) (steps : List Step) :
    (steps.foldl Reading.read r).Agrees entry skipped (steps.foldl Plain.read p) := by
  induction steps generalizing p r with
  | nil => exact h
  | cons step steps ih => exact ih (h.read step)

/-- It holds from the opening of the level on, whatever the steps. -/
theorem agrees_readAll (entry : μ) (skipped : Bool) (steps : List Step) :
    ((opened entry skipped).readAll steps).Agrees entry skipped (plain steps) := by
  have opening : Reading.Agrees ⟨opened entry skipped, []⟩ entry skipped ⟨false, none⟩ :=
    { coherent := coherent_opened entry skipped
      entry_eq := rfl
      skipsAll_eq := rfl
      pending_eq := rfl
      result_eq := (Bool.and_false _).symm
      last_eq := rfl
      runs_eq_nil := fun _ => rfl }
  exact opening.foldl steps

/-- Where not all operands are skipped, one is if the connective decides. -/
theorem Reading.Agrees.skipsNext_eq (h : r.Agrees entry false p) :
    r.level.skipsNext = Connective.decides p.pending p.running := by
  rw [h.coherent, h.skipsAll_eq, h.pending_eq, h.result_eq]
  rfl

/-- A level skips what it can and nothing else. At an outermost level its
result is what the steps come to if every operand is run, and it is the
outcome of the last operand that was run, or false if there was none. The next
operand is run if and only if the opposite outcome would change what the steps
come to with it. A level that was opened where operands are skipped runs none
and stays false. Neither kind forgets where it was opened and whether it skips
all. -/
theorem readAll_runs_needed (entry : μ) (steps : List Step) :
    let r := (outermost entry).readAll steps
    let idle := (opened entry true).readAll steps
    r.level.result = (plain steps).running ∧
    r.level.result = r.runs.getLastD false ∧
    (∀ outcome, ((outermost entry).readAll (steps ++ [.operand outcome])).runs
      = r.runs ++
        if (plain (steps ++ [.operand outcome])).running
            ≠ (plain (steps ++ [.operand !outcome])).running
        then [outcome] else []) ∧
    idle.runs = [] ∧ idle.level.result = false ∧
    r.level.entry = entry ∧ r.level.skipsAll = false ∧
    idle.level.entry = entry ∧ idle.level.skipsAll = true := by
  intro r idle
  have agrees : r.Agrees entry false (plain steps) := agrees_readAll entry false steps
  have idle_agrees : idle.Agrees entry true (plain steps) := agrees_readAll entry true steps
  refine ⟨agrees.result_eq, agrees.last_eq, fun outcome => ?_, idle_agrees.runs_eq_nil rfl,
    idle_agrees.result_eq, agrees.entry_eq, agrees.skipsAll_eq, idle_agrees.entry_eq,
    idle_agrees.skipsAll_eq⟩
  -- To be needed is said of the steps alone, and the level has noted as much.
  have needed : (plain (steps ++ [.operand outcome])).running
        ≠ (plain (steps ++ [.operand !outcome])).running
      ↔ r.level.skipsNext = false := by
    rw [running_plain_operand, running_plain_operand, agrees.skipsNext_eq]
    exact Connective.combine_ne_combine_not_iff
  rw [readAll, List.foldl_append]
  show (r.read (.operand outcome)).runs = _
  rw [Reading.read_operand]
  simp only [needed]
  cases r.level.skipsNext with
  | true => rfl
  | false => rfl

/-- An `and` that comes right after an `or` takes its place, so the operand is
run although the `or` would have had it skipped. -/
example : ((outermost ()).readAll
    [.operand true, .join (some .or), .join (some .and), .operand false]).runs = [true, false] := rfl

end Level

/-- A matcher reads an operand as its current level does, and a run moves the
stream and leaves a report. -/
theorem Matcher.attempt_eq {σ μ ρ : Type} (m : Matcher σ μ) (operand : σ → Verdict σ ρ) :
    let run : StateM (σ × Option ρ) Bool := fun (s, _) =>
      let verdict := operand s
      (verdict.matched, verdict.stream, some verdict.report)
    let read := (m.current.attempt run).run (m.stream, none)
    m.attempt operand
      = ({ m with stream := read.2.1, current := read.1, attempted := true }, read.2.2) := by
  intro run read
  simp only [attempt, read, Level.attempt]
  cases m.current.skipsNext with
  | true => rfl
  | false => rfl

end ScanExpr
