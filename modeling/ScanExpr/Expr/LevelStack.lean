import ScanExpr.Expr.Level

/-!
# `ScanExpr.Expr.LevelStack`: the levels around the current one

While a group is evaluated, the levels around it wait on a stack. The
innermost of them is on top and is the first to be resumed.
-/

set_option autoImplicit false

namespace ScanExpr

/-- The suspended levels around the current one, the innermost first. -/
structure LevelStack (μ : Type) where
  levels : List (Level μ)
deriving DecidableEq

namespace LevelStack

variable {μ : Type}

/-- No suspended level. -/
def empty : LevelStack μ := ⟨[]⟩

/-- Suspends a level. -/
def push (s : LevelStack μ) (l : Level μ) : LevelStack μ :=
  ⟨l :: s.levels⟩

/-- The level to resume and those that stay suspended. -/
def pop? (s : LevelStack μ) : Option (Level μ × LevelStack μ) :=
  match s.levels with
  | [] => none
  | l :: rest => some (l, ⟨rest⟩)

/-- The number of suspended levels. -/
def depth (s : LevelStack μ) : Nat :=
  s.levels.length

/-- Whether no level is suspended. -/
def isEmpty (s : LevelStack μ) : Bool :=
  s.levels.isEmpty

/-- On the empty stack no level waits. -/
@[simp]
theorem depth_empty : (empty : LevelStack μ).depth = 0 := rfl

/-- A level that is suspended is one more. -/
@[simp]
theorem depth_push (s : LevelStack μ) (l : Level μ) : (s.push l).depth = s.depth + 1 := rfl

/-- The level that was suspended last is resumed first. -/
@[simp]
theorem pop?_push (s : LevelStack μ) (l : Level μ) : (s.push l).pop? = some (l, s) := rfl

/-- The empty stack is the one of depth zero. -/
theorem isEmpty_iff_depth_eq_zero (s : LevelStack μ) : s.isEmpty = true ↔ s.depth = 0 := by
  rw [isEmpty, List.isEmpty_iff, depth, List.length_eq_zero_iff]

/-- Stacks of the same depth, of marks of any two types, are both empty or
neither is. -/
theorem isEmpty_eq_of_depth_eq {ν : Type} {s : LevelStack μ} {t : LevelStack ν}
    (h : s.depth = t.depth) : s.isEmpty = t.isEmpty := by
  rw [Bool.eq_iff_iff, isEmpty_iff_depth_eq_zero, isEmpty_iff_depth_eq_zero, h]

/-- A stack shows its levels from the outermost to the innermost. -/
instance [Dump μ] : Dump (LevelStack μ) where
  dump s := Text.record "GroupStack" [("groups", dump s.levels.reverse)]

end LevelStack

end ScanExpr
