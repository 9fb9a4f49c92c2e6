import ScanExpr.CharClass.Basic
import ScanExpr.Text.Dump

/-!
# `ScanExpr.CharClass.CharSet`: sets of arbitrary characters

A `CharSet` keeps its members in strictly ascending order, so that equal
sets are equal values and membership is found by binary search.

* `CharSet.ofList`: the set of the characters of a list, which is sorted and
  then freed of repetitions.
* `CharSet.find`: the binary search, between two indices of the members.
-/

set_option autoImplicit false

namespace ScanExpr

/-- A finite set of characters. -/
structure CharSet where
  /-- The members, each once, in ascending order. -/
  members : Array Char
  ascending : members.toList.Pairwise (· < ·)
deriving DecidableEq

namespace CharSet

/-! ### Sorting -/

/-- What has been kept so far stands before what will be kept. -/
theorem eraseReps_loop_eq_append (c : Char) (cs before : List Char) :
    List.eraseRepsBy.loop (· == ·) c cs before
      = before.reverse ++ List.eraseRepsBy.loop (· == ·) c cs [] := by
  induction cs generalizing c before with
  | nil => simp [List.eraseRepsBy.loop]
  | cons d cs ih =>
    rw [List.eraseRepsBy.loop, List.eraseRepsBy.loop]
    -- A repetition adds nothing to what is kept, and anything else is put in front of it.
    split
    · exact ih c before
    · rw [ih d (c :: before), ih d [c]]
      simp

/-- A character is left out if the one before it is the same. -/
theorem eraseReps_cons_cons (c d : Char) (cs : List Char) :
    (c :: d :: cs).eraseReps = if c = d then (c :: cs).eraseReps else c :: (d :: cs).eraseReps := by
  show List.eraseRepsBy.loop (· == ·) c (d :: cs) [] = _
  rw [List.eraseRepsBy.loop]
  by_cases same : c = d
  · rw [if_pos same, beq_iff_eq.2 same]
    rfl
  · rw [if_neg same, beq_false_of_ne same]
    exact eraseReps_loop_eq_append d cs [c]

/-- Leaving out repetitions leaves out no character. -/
theorem mem_eraseReps {x : Char} {cs : List Char} : x ∈ cs.eraseReps ↔ x ∈ cs := by
  cases cs with
  | nil => rfl
  | cons c cs =>
    induction cs generalizing c with
    | nil => rfl
    | cons d cs ih =>
      rw [eraseReps_cons_cons]
      split
      · rename_i same
        rw [ih c]
        simp [same]
      · simp only [List.mem_cons, ih d]

/-- In an ascending list equal characters stand side by side, so one of them
is left. -/
theorem pairwise_eraseReps {cs : List Char} (h : cs.Pairwise (· ≤ ·)) :
    cs.eraseReps.Pairwise (· < ·) := by
  cases cs with
  | nil => exact List.Pairwise.nil
  | cons c cs =>
    induction cs generalizing c with
    | nil => exact List.pairwise_singleton _ c
    | cons d cs ih =>
      obtain ⟨above, tail⟩ := List.pairwise_cons.1 h
      rw [eraseReps_cons_cons]
      split
      · exact ih c (h.sublist (List.Sublist.cons_cons c (List.sublist_cons_self d cs)))
      · rename_i ne
        have c_lt_d : c < d := Std.lt_of_le_of_ne (above d List.mem_cons_self) ne
        -- What comes after `d` is no smaller than `d`, so it lies above `c` too.
        refine List.pairwise_cons.2 ⟨fun x mem => ?_, ih d tail⟩
        rcases List.mem_cons.1 (mem_eraseReps.1 mem) with rfl | later
        · exact c_lt_d
        · exact Std.lt_of_lt_of_le c_lt_d ((List.pairwise_cons.1 tail).1 x later)

/-- The characters of a list in ascending order, each once: the list is
sorted, and then what repeats the character before it is left out. -/
def sorted (cs : List Char) : List Char :=
  (cs.mergeSort (· ≤ ·)).eraseReps

/-- The list keeps its characters when it is sorted. -/
theorem mem_sorted {x : Char} {cs : List Char} : x ∈ sorted cs ↔ x ∈ cs := by
  rw [sorted, mem_eraseReps, List.mem_mergeSort]

/-- The characters of the sorted list ascend, and none of them stands there
twice. -/
theorem pairwise_sorted (cs : List Char) : (sorted cs).Pairwise (· < ·) := by
  have ascending : (cs.mergeSort (· ≤ ·)).Pairwise fun c d => decide (c ≤ d) = true := by
    refine List.pairwise_mergeSort (fun a b c => ?_) (fun a b => ?_) cs
    · simpa using Char.le_trans
    · simpa using Char.le_total a b
  exact pairwise_eraseReps (ascending.imp of_decide_eq_true)

/-! ### Sets -/

/-- The set of the characters of a list. -/
def ofList (cs : List Char) : CharSet :=
  ⟨(sorted cs).toArray, pairwise_sorted cs⟩

/-- The number of members. -/
def size (s : CharSet) : Nat :=
  s.members.size

/-- Whether there is no member. -/
def isEmpty (s : CharSet) : Bool :=
  s.members.isEmpty

/-- Binary search for `c` among the members at the indices from `lo` up
to, but without, `hi`. -/
def find (members : Array Char) (c : Char) (lo hi : Nat) (h : hi ≤ members.size) : Bool :=
  if lt : lo < hi then
    let mid := (lo + hi) / 2
    let d := members[mid]
    if d = c then true
    else if d < c then find members c (mid + 1) hi h
    else find members c lo mid (by omega)
  else false
termination_by hi - lo

instance : CharClass CharSet where
  contains s c := find s.members c 0 s.members.size (Nat.le_refl _)

instance : Dump CharSet where
  dump s := Text.record "RuneSet" [("runes", dump s.members.toList)]

end CharSet

end ScanExpr
