import ScanExpr.Expr.Level

/-!
# `ScanExpr.Proofs.Expr.Level`: what a level knows about its next operand

Whether the next operand is skipped is decided when the connective before
it is read, and noted in the level. `Level.Coherent` says that the note is
right: the operand is skipped exactly if the whole level is, or if the
connective and the running result decide the outcome without it. Levels
are opened coherent and stay so.

An operand of a coherent level that is not skipped sets the running result
to its own outcome, whatever the connective before it
(`Level.Coherent.result_fold`). One that is skipped leaves it alone
(`Level.result_fold_of_skipsNext`).
-/

set_option autoImplicit false

namespace ScanExpr

/-- A connective that does not decide the result leaves it to the
operand. -/
theorem Connective.combine_of_decides_eq_false {pending : Option Connective} {running : Bool}
    (h : decides pending running = false) (outcome : Bool) :
    combine pending running outcome = outcome := by
  match pending, running with
  | none, _ => rfl
  | some .and, true => rfl
  | some .or, false => rfl

/-- A connective that decides the result keeps it, whatever the outcome of
the operand. -/
theorem Connective.combine_of_decides {pending : Option Connective} {running : Bool}
    (h : decides pending running = true) (outcome : Bool) :
    combine pending running outcome = running := by
  match pending, running with
  | some .and, false => rfl
  | some .or, true => rfl

/-- The result is decided by an `and` if it is false and by an `or` if it is
true. -/
theorem Connective.decides_eq_true_iff {pending : Option Connective} {running : Bool} :
    decides pending running = true
      ↔ pending = some .and ∧ running = false ∨ pending = some .or ∧ running = true := by
  match pending with
  | none => simp [decides]
  | some .and => simp [decides]
  | some .or => simp [decides]

namespace Level

variable {μ : Type}

/-- The level skips its next operand exactly if it skips all of them or if
the operand cannot change the result. -/
def Coherent (l : Level μ) : Prop :=
  l.skipsNext = (l.skipsAll || Connective.decides l.pending l.result)

/-- At its opening no connective waits, so a level skips its next operand only
if it skips all. -/
theorem coherent_opened (entry : μ) (skipped : Bool) : (opened entry skipped).Coherent :=
  (Bool.or_false skipped).symm

/-- When a connective is read, what it decides is noted with it. -/
theorem coherent_setPending (l : Level μ) (pending : Option Connective) :
    (l.setPending pending).Coherent := rfl

/-- After an operand no connective waits, and the note is taken back unless all
is skipped. -/
theorem coherent_fold (l : Level μ) (outcome : Bool) : (l.fold outcome).Coherent :=
  (Bool.or_false l.skipsAll).symm

/-- A skipped operand leaves the running result alone. -/
theorem result_fold_of_skipsNext {l : Level μ} (h : l.skipsNext = true) (outcome : Bool) :
    (l.fold outcome).result = l.result :=
  if_pos h

/-- Which outcome a skipped operand is said to have does not matter. -/
theorem fold_of_skipsNext {l : Level μ} (h : l.skipsNext = true) (x y : Bool) :
    l.fold x = l.fold y := by
  simp only [fold, h, if_true]

/-- The outcome of an operand that runs becomes the running result. -/
theorem Coherent.result_fold {l : Level μ} (coherent : l.Coherent) (h : l.skipsNext = false)
    (outcome : Bool) : (l.fold outcome).result = outcome := by
  -- The note says that nothing has been decided, so it is for the operand to decide.
  have undecided : Connective.decides l.pending l.result = false := by
    rw [Coherent, h] at coherent
    exact (Bool.or_eq_false_iff.1 coherent.symm).2
  show (if l.skipsNext then _ else Connective.combine l.pending l.result outcome) = outcome
  rw [h, Connective.combine_of_decides_eq_false undecided]
  rfl

/-- A coherent level that does not skip everything folds in any outcome as
its connective says, skipped or not. -/
theorem Coherent.result_fold_eq_combine {l : Level μ} (coherent : l.Coherent)
    (none_skipped : l.skipsAll = false) (outcome : Bool) :
    (l.fold outcome).result = Connective.combine l.pending l.result outcome := by
  -- A skipped operand is one whose outcome the connective would have passed over.
  cases next : l.skipsNext with
  | true =>
    have decided : Connective.decides l.pending l.result = true := by
      rw [Coherent, next, none_skipped, Bool.false_or] at coherent
      exact coherent.symm
    rw [result_fold_of_skipsNext next, Connective.combine_of_decides decided]
  | false => simp [fold, next]

/-- A coherent level that skips everything skips its next operand. -/
theorem Coherent.skipsNext_of_skipsAll {l : Level μ} (coherent : l.Coherent)
    (h : l.skipsAll = true) : l.skipsNext = true := by
  rw [coherent, h, Bool.true_or]

/-- In a coherent level a group is skipped exactly if an operand in its
place would be. -/
theorem Coherent.skipsChild_eq {l : Level μ} (coherent : l.Coherent) :
    l.skipsChild = l.skipsNext := by
  rw [skipsChild, coherent, ← Bool.or_assoc, Bool.or_self]

end Level

end ScanExpr
