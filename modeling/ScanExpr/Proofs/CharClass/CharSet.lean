import Mathlib.Data.Finset.Card
import Mathlib.Data.List.Sort
import ScanExpr.CharClass.CharSet

/-!
# `ScanExpr.Proofs.CharClass.CharSet`: a sorted array as a set of characters

A character set keeps its members in ascending order, without repetitions.
This makes the binary search right, and it leaves one way only to write down
a set.

* `CharSet.find_eq_true_iff`: what the search finds between two indices.
* `CharSet.ext_mem`: a character set has no more to it than its members.
* `CharSet.ofList_canonical`: all that can be seen of the set of a list is
  told by what occurs in the list, and equal sets are those of lists in which
  the same occurs.
-/

set_option autoImplicit false

namespace ScanExpr.CharSet

/-! ### The search -/

/-- The smaller of two members comes first. -/
theorem index_lt_of_lt {members : Array Char} (ascending : members.toList.Pairwise (· < ·))
    {i j : Nat} {c d : Char} (hi : members[i]? = some c) (hj : members[j]? = some d) (lt : c < d) :
    i < j := by
  obtain ⟨i_lt, rfl⟩ := Array.getElem?_eq_some_iff.1 hi
  obtain ⟨j_lt, rfl⟩ := Array.getElem?_eq_some_iff.1 hj
  -- Otherwise the larger one would come first or stand in the same place.
  by_contra not_lt
  rcases Nat.lt_or_eq_of_le (Nat.not_lt.1 not_lt) with j_lt_i | rfl
  · have gt := List.pairwise_iff_getElem.1 ascending j i (by simpa using j_lt) (by simpa using i_lt)
      j_lt_i
    exact Char.lt_asymm lt (by simpa using gt)
  · exact Char.lt_irrefl _ lt

/-- The search finds what is at one of the indices from `lo` up to, but
without, `hi`. -/
theorem find_eq_true_iff {members : Array Char} (ascending : members.toList.Pairwise (· < ·))
    {c : Char} {lo hi : Nat} {h : hi ≤ members.size} :
    find members c lo hi h = true ↔ ∃ i, lo ≤ i ∧ i < hi ∧ members[i]? = some c := by
  fun_induction find members c lo hi h with
  | case1 lo hi h lt mid d found =>
    have at_mid : members[mid]? = some c := found ▸ Array.getElem?_eq_getElem (by omega)
    exact iff_of_true rfl ⟨mid, by omega, by omega, at_mid⟩
  | case2 lo hi h lt mid d _ below ih =>
    -- The middle one is too small, so what is sought can only come after it.
    have at_mid : members[mid]? = some d := Array.getElem?_eq_getElem (by omega)
    rw [ih]
    constructor
    · rintro ⟨i, _, _, at_i⟩
      exact ⟨i, by omega, by omega, at_i⟩
    · rintro ⟨i, _, _, at_i⟩
      exact ⟨i, index_lt_of_lt ascending at_mid at_i below, by omega, at_i⟩
  | case3 lo hi h lt mid d ne not_below ih =>
    -- The middle one is too large, so what is sought can only come before it.
    have at_mid : members[mid]? = some d := Array.getElem?_eq_getElem (by omega)
    have above : c < d := Std.lt_of_le_of_ne (Char.not_lt.1 not_below) (Ne.symm ne)
    rw [ih]
    constructor
    · rintro ⟨i, _, _, at_i⟩
      exact ⟨i, by omega, by omega, at_i⟩
    · rintro ⟨i, _, _, at_i⟩
      exact ⟨i, by omega, index_lt_of_lt ascending at_i at_mid above, at_i⟩
  | case4 lo hi h empty =>
    -- Nothing is left to be searched, and no index lies between the two.
    refine iff_of_false (by simp) ?_
    rintro ⟨i, _, _, _⟩
    omega

/-- The search misses no member, at either end or in between, and finds
nothing else. -/
theorem contains_iff {s : CharSet} {c : Char} :
    CharClass.contains s c = true ↔ c ∈ s.members := by
  show find s.members c 0 s.members.size _ = true ↔ _
  rw [find_eq_true_iff s.ascending, Array.mem_iff_getElem?]
  constructor
  · rintro ⟨i, _, _, at_i⟩
    exact ⟨i, at_i⟩
  · rintro ⟨i, at_i⟩
    obtain ⟨inside, _⟩ := Array.getElem?_eq_some_iff.1 at_i
    exact ⟨i, i.zero_le, inside, at_i⟩

/-! ### Members -/

/-- Sets with the same members are equal. -/
theorem ext_mem {s t : CharSet} (same : ∀ c, c ∈ s.members ↔ c ∈ t.members) : s = t := by
  -- There is only one ascending list of the same characters.
  have lists : s.members.toList = t.members.toList :=
    s.ascending.eq_of_mem_iff t.ascending fun c => by simpa using same c
  cases s
  cases t
  cases Array.toList_inj.1 lists
  rfl

/-- The size is the number of members, none of which is counted twice. -/
theorem size_eq_card (s : CharSet) : s.size = s.members.toList.toFinset.card := by
  have once : s.members.toList.Nodup := s.ascending.imp Char.ne_of_lt
  rw [List.toFinset_card_of_nodup once, Array.length_toList, size]

/-- A set is empty if nothing is a member. -/
theorem isEmpty_iff {s : CharSet} : s.isEmpty = true ↔ ∀ c, c ∉ s.members := by
  rw [isEmpty, Array.isEmpty_iff, Array.eq_empty_iff_forall_not_mem]

/-- The members of the set of a list are the characters of the list. -/
theorem mem_members_ofList {cs : List Char} {c : Char} : c ∈ (ofList cs).members ↔ c ∈ cs := by
  rw [ofList, List.mem_toArray, mem_sorted]

/-! ### The set of a list -/

/-- The set of a list keeps the characters of the list in strictly ascending
order and answers every question by them: it contains what occurs in the list,
its size is the number of different characters, and it is empty if the list
is. Order and repetition in the list make no difference. Two lists have equal
sets if and only if the same characters occur in them. -/
theorem ofList_canonical (cs : List Char) :
    (ofList cs).members.toList.Pairwise (· < ·) ∧
    (∀ c, c ∈ (ofList cs).members ↔ c ∈ cs) ∧
    (∀ c, CharClass.contains (ofList cs) c = true ↔ c ∈ cs) ∧
    (ofList cs).size = cs.toFinset.card ∧
    ((ofList cs).isEmpty = true ↔ cs = []) ∧
    ∀ ds, ofList cs = ofList ds ↔ ∀ c, c ∈ cs ↔ c ∈ ds := by
  have mem (c : Char) : c ∈ (ofList cs).members ↔ c ∈ cs := mem_members_ofList
  have size : (ofList cs).size = cs.toFinset.card := by
    rw [size_eq_card]
    congr 1
    ext c
    simpa using mem c
  have empty : (ofList cs).isEmpty = true ↔ cs = [] := by
    rw [isEmpty_iff, List.eq_nil_iff_forall_not_mem]
    exact forall_congr' fun c => not_congr (mem c)
  refine ⟨(ofList cs).ascending, mem, fun c => contains_iff.trans (mem c), size, empty,
    fun ds => ?_⟩
  constructor
  · intro same c
    rw [← mem, same, mem_members_ofList]
  · intro same
    refine ext_mem fun c => ?_
    rw [mem, same, mem_members_ofList]

end ScanExpr.CharSet
