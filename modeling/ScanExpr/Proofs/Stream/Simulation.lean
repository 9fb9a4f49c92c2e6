import Mathlib.Data.List.Forall2
import ScanExpr.Proofs.Stream.Primitive

/-!
# `ScanExpr.Proofs.Stream.Simulation`: streams that cannot be told apart

Two streams may tell their positions in different ways and still show the
same characters. `Simulation same sameMark` says that nothing that can be
done to a stream tells `same` streams apart: they show the same and are
still the same after it, and their marks are the same in the sense of
`sameMark`. Marks can be kept and compared, so equal marks have to be equal
on both sides.

`Simulation.apply` is the main result: a primitive gives the same verdict
on both streams, although it may end a run or return to a mark in between.
-/

set_option autoImplicit false

namespace ScanExpr

variable {σ τ μ ν : Type}

/-- Two computations that give the same value and the same stream. -/
def Agree {α : Type} (same : σ → τ → Prop) (x : α × σ) (y : α × τ) : Prop :=
  x.1 = y.1 ∧ same x.2 y.2

variable [CharStream σ μ] [CharStream τ ν]

/-- A relation between streams, and one between their marks, that lasts and
by which the streams show the same. -/
structure Simulation (same : σ → τ → Prop) (sameMark : μ → ν → Prop) : Prop where
  peek : ∀ {s : σ} {t : τ}, same s t → CharStream.peek s = CharStream.peek t
  step : ∀ {s : σ} {t : τ} {c : Char}, same s t → CharStream.peek s = some c →
    same (CharStream.step s c) (CharStream.step t c)
  atEnd : ∀ {s : σ} {t : τ}, same s t → CharStream.atEnd s = CharStream.atEnd t
  mark : ∀ {s : σ} {t : τ}, same s t → sameMark (mark s) (mark t)
  rewind : ∀ {s : σ} {t : τ} {m : μ} {n : ν}, same s t → sameMark m n →
    same (rewind s m) (rewind t n)
  /-- Marks are equal on one side if they are on the other. -/
  biUnique : Relator.BiUnique sameMark

namespace Simulation

variable {same : σ → τ → Prop} {sameMark : μ → ν → Prop} {s : σ} {t : τ}

/-- A single character is consumed on both streams or on neither. -/
theorem consumeOne (simulation : Simulation same sameMark) (accept : Char → Bool)
    (alike : same s t) :
    Agree same (ScanExpr.consumeOne accept s) (ScanExpr.consumeOne accept t) := by
  rw [ScanExpr.consumeOne, ScanExpr.consumeOne, ← simulation.peek alike]
  -- Both streams show the same character, so it is accepted on both or on neither.
  cases next : CharStream.peek s with
  | none => exact ⟨rfl, alike⟩
  | some c =>
    cases accepted : accept c with
    | true =>
      simp only [accepted, if_true]
      exact ⟨rfl, simulation.step alike next⟩
    | false =>
      simp only [accepted]
      exact ⟨rfl, alike⟩

/-- Runs on both streams stop at the same time. -/
theorem consumeRun (simulation : Simulation same sameMark) (accept : Char → Bool)
    (max count : Nat) (alike : same s t) :
    Agree same (ScanExpr.consumeRun accept max count s)
      (ScanExpr.consumeRun accept max count t) := by
  -- The induction follows the run on the first stream; the second stays beside it.
  fun_induction ScanExpr.consumeRun accept max count s generalizing t with
  | case1 count s room c next accepted ih =>
    rw [Reads.consumeRun_eq accept max count t, if_pos room, ← simulation.peek alike, next]
    simp only [accepted, if_true]
    exact ih (simulation.step alike next)
  | case2 count s room c next rejected =>
    rw [Reads.consumeRun_eq accept max count t, if_pos room, ← simulation.peek alike, next]
    simp only [rejected]
    exact ⟨rfl, alike⟩
  | case3 count s room next =>
    rw [Reads.consumeRun_eq accept max count t, if_pos room, ← simulation.peek alike, next]
    exact ⟨rfl, alike⟩
  | case4 count s full =>
    rw [Reads.consumeRun_eq accept max count t, if_neg full]
    exact ⟨rfl, alike⟩

/-- Bounded runs match on both streams or go back on both. -/
theorem consumeBetween (simulation : Simulation same sameMark) (accept : Char → Bool)
    (min max : Nat) (alike : same s t) :
    Agree same (ScanExpr.consumeBetween accept min max s)
      (ScanExpr.consumeBetween accept min max t) := by
  rw [ScanExpr.consumeBetween, ScanExpr.consumeBetween]
  by_cases crossed : max ≠ 0 ∧ max < min
  · rw [if_pos crossed, if_pos crossed]
    exact ⟨rfl, alike⟩
  · obtain ⟨count, ends⟩ := simulation.consumeRun accept max 0 alike
    rw [if_neg crossed, if_neg crossed]
    by_cases short : (ScanExpr.consumeRun accept max 0 s).1 < min
    · -- Both runs are too short, and both streams are taken back to where they stood.
      simp only [← count, short, if_true]
      exact ⟨rfl, simulation.rewind ends (simulation.mark alike)⟩
    · simp only [← count, short, if_false]
      exact ⟨rfl, ends⟩

/-- A primitive does the same to both streams. -/
theorem apply (simulation : Simulation same sameMark) (p : Primitive) (alike : same s t) :
    Agree same (p.apply s) (p.apply t) := by
  cases p with
  | atEnd => exact ⟨simulation.atEnd alike, alike⟩
  | consume accept shape =>
    cases shape with
    | one => exact simulation.consumeOne accept alike
    | zeroOrOne => exact ⟨rfl, (simulation.consumeOne accept alike).2⟩
    | zeroOrMore => exact ⟨rfl, (simulation.consumeRun accept 0 0 alike).2⟩
    | oneOrMore =>
      have ⟨count, ends⟩ := simulation.consumeRun accept 0 0 alike
      exact ⟨congrArg (fun n => decide (0 < n)) count, ends⟩
    | between min max => exact simulation.consumeBetween accept min max alike

end Simulation

end ScanExpr
