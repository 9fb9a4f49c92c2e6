import ScanExpr.CharClass.RangeNotation

/-!
# `ScanExpr.Proofs.CharClass.RangeNotation`: what a range notation denotes

A notation is cut into items from left to right: a range where a dash stands
between two characters, and else a single character. The items are a
property of the text alone. Which of them are valid and which bytes each of
them lists is said without regard to how a set is built.

* `ByteSet.insertNotation_eq`: building a set is to look for the first item at
  fault, and to insert what the items list if there is none.
* `ByteSet.ofNotation_eq_ok_iff`, `ByteSet.ofNotation_eq_error_iff`: the two outcomes.
* `ByteSet.ofNotation_denotes`: the whole meaning of a notation, with the
  case of dashes at the ends of the text only.
-/

set_option autoImplicit false

namespace ScanExpr

/-! ### The members of a set that is being built -/

namespace ByteSet

/-- A range of bytes lists those between its two ends, both included. -/
theorem mem_byteRange {lo hi b : UInt8} : b ∈ byteRange lo hi ↔ lo ≤ b ∧ b ≤ hi := by
  rw [UInt8.le_iff_toNat_le, UInt8.le_iff_toNat_le]
  constructor
  · intro mem
    obtain ⟨n, between, rfl⟩ := List.mem_map.1 mem
    have bounds := List.mem_range'_1.1 between
    -- The number comes from a range that ends with a byte, so it is a byte too.
    have small : n < 2 ^ 8 := by
      have := hi.toNat_lt
      omega
    rw [UInt8.toNat_ofNat_of_lt' small]
    omega
  · intro ⟨above, below⟩
    refine List.mem_map.2 ⟨b.toNat, List.mem_range'_1.2 ?_, UInt8.ofNat_toNat⟩
    omega

/-- Bytes that are inserted one after the other join the members that were
there. -/
theorem containsByte_foldl_insert (s : ByteSet) (bytes : List UInt8) (b : UInt8) :
    (bytes.foldl insert s).containsByte b = true ↔ s.containsByte b = true ∨ b ∈ bytes := by
  induction bytes generalizing s with
  | nil => simp
  | cons a bytes ih =>
    rw [List.foldl_cons, ih, containsByte_insert, Bool.or_eq_true, beq_iff_eq, List.mem_cons,
      or_assoc]

end ByteSet

/-! ### Items -/

/-- A piece of a range notation. -/
inductive RangeItem where
  | single (c : Char)
  /-- The characters from `start` to `stop`. -/
  | range (start stop : Char)
deriving DecidableEq

namespace RangeItem

/-- The items of a text. If a dash comes after the first character and
something after the dash, these three are a range; otherwise the first
character is an item by itself. -/
def cut : List Char → List RangeItem
  | start :: '-' :: stop :: rest => .range start stop :: cut rest
  | c :: rest => .single c :: cut rest
  | [] => []

/-- Every character is a byte, and a range does not run backwards. -/
def Valid : RangeItem → Prop
  | .single c => c.toNat < 256
  | .range start stop => start.toNat < 256 ∧ stop.toNat < 256 ∧ start.toNat ≤ stop.toNat

instance (item : RangeItem) : Decidable item.Valid :=
  match item with
  | .single c => inferInstanceAs (Decidable (c.toNat < 256))
  | .range start stop =>
    inferInstanceAs
      (Decidable (start.toNat < 256 ∧ stop.toNat < 256 ∧ start.toNat ≤ stop.toNat))

/-- The byte is the single character, or lies in the range. -/
def Lists (b : UInt8) : RangeItem → Prop
  | .single c => b.toNat = c.toNat
  | .range start stop => start.toNat ≤ b.toNat ∧ b.toNat ≤ stop.toNat

/-- What is reported of an item that is not valid. -/
def fault? : RangeItem → Option RangeError
  | .single c => if 256 ≤ c.toNat then some (.notAByte c) else none
  | .range start stop =>
    if 256 ≤ start.toNat then some (.notAByte start)
    else if 256 ≤ stop.toNat then some (.notAByte stop)
    else if stop.toNat < start.toNat then some (.reversed start stop)
    else none

/-- There is something to report of an item exactly if it is not valid. -/
theorem fault?_eq_none_iff {item : RangeItem} : item.fault? = none ↔ item.Valid := by
  cases item with
  | single c =>
    rw [fault?, Valid, ite_eq_right_iff, ← Nat.not_le]
    exact forall_congr' fun _ => iff_of_false nofun id
  | range start stop =>
    -- The ends are looked at before their order.
    rw [fault?, Valid]
    split
    · exact iff_of_false nofun (by omega)
    · split
      · exact iff_of_false nofun (by omega)
      · split
        · exact iff_of_false nofun (by omega)
        · exact iff_of_true rfl (by omega)

/-- The bytes that a valid item lists. -/
def bytes : RangeItem → List UInt8
  | .single c => [c.toUInt8]
  | .range start stop => ByteSet.byteRange start.toUInt8 stop.toUInt8

/-- A character below U+0100 is the byte with the same number. -/
theorem toNat_toUInt8 {c : Char} (small : c.toNat < 256) : c.toUInt8.toNat = c.toNat := by
  show c.val.toUInt8.toNat = c.val.toNat
  rw [UInt32.toNat_toUInt8]
  exact Nat.mod_eq_of_lt small

/-- The bytes that are inserted for a valid item are those that it lists. -/
theorem mem_bytes_iff {item : RangeItem} (valid : item.Valid) {b : UInt8} :
    b ∈ item.bytes ↔ item.Lists b := by
  cases item with
  | single c => rw [bytes, List.mem_singleton, Lists, ← UInt8.toNat_inj, toNat_toUInt8 valid]
  | range start stop =>
    obtain ⟨first, last, _⟩ := valid
    rw [bytes, ByteSet.mem_byteRange, UInt8.le_iff_toNat_le, UInt8.le_iff_toNat_le,
      toNat_toUInt8 first, toNat_toUInt8 last, Lists]

/-- If there are no dashes but at the ends, every character stands for
itself. -/
theorem cut_eq_map_single {cs : List Char} (ends : '-' ∉ cs.tail.dropLast) :
    cut cs = cs.map single := by
  fun_induction cut cs with
  | case1 start stop rest =>
    -- The dash of a range has a character on each side.
    simp at ends
  | case2 c rest alone ih =>
    rw [List.map_cons, ih]
    -- A dash inside of what is left would be inside of the whole.
    rw [← List.tail_dropLast]
    exact fun mem => ends (List.mem_of_mem_tail mem)
  | case3 => rfl

end RangeItem

/-! ### Building the set -/

namespace ByteSet

open RangeItem

/-- A character below U+0100 is taken for a byte. -/
theorem byteOfChar_of_lt {c : Char} (small : c.toNat < 256) : byteOfChar c = .ok c.toUInt8 :=
  if_pos small

/-- Any other character is reported. -/
theorem byteOfChar_of_le {c : Char} (large : 256 ≤ c.toNat) :
    byteOfChar c = .error (.notAByte c) :=
  if_neg (Nat.not_lt.2 large)

/-- A single character is inserted, unless it is at fault. -/
theorem insertNotation_single (s : ByteSet) (c : Char) (rest : List Char)
    (alone : ∀ stop after, rest = '-' :: stop :: after → False) :
    s.insertNotation (c :: rest) = match (RangeItem.single c).fault? with
      | some e => .error e
      | none => ((RangeItem.single c).bytes.foldl insert s).insertNotation rest := by
  rw [insertNotation.eq_2 s c rest alone, fault?]
  by_cases small : c.toNat < 256
  · rw [byteOfChar_of_lt small, if_neg (Nat.not_le.2 small)]
    rfl
  · rw [byteOfChar_of_le (Nat.not_lt.1 small), if_pos (Nat.not_lt.1 small)]

/-- The bytes of a range are inserted, unless the range is at fault. -/
theorem insertNotation_range (s : ByteSet) (start stop : Char) (rest : List Char) :
    s.insertNotation (start :: '-' :: stop :: rest)
      = match (RangeItem.range start stop).fault? with
        | some e => .error e
        | none => ((RangeItem.range start stop).bytes.foldl insert s).insertNotation rest := by
  rw [insertNotation, fault?]
  -- In the order in which a range is checked: its start, its stop, and then which is larger.
  by_cases first : start.toNat < 256
  · rw [byteOfChar_of_lt first, if_neg (Nat.not_le.2 first)]
    by_cases last : stop.toNat < 256
    · rw [byteOfChar_of_lt last, if_neg (Nat.not_le.2 last)]
      have order : stop.toUInt8 < start.toUInt8 ↔ stop.toNat < start.toNat := by
        rw [UInt8.lt_iff_toNat_lt, toNat_toUInt8 first, toNat_toUInt8 last]
      simp only [order]
      by_cases backwards : stop.toNat < start.toNat
      · rw [if_pos backwards, if_pos backwards]
      · rw [if_neg backwards, if_neg backwards, insertRange_eq]
        rfl
    · rw [byteOfChar_of_le (Nat.not_lt.1 last), if_pos (Nat.not_lt.1 last)]
  · rw [byteOfChar_of_le (Nat.not_lt.1 first), if_pos (Nat.not_lt.1 first)]

/-- A set is built by inserting what the items list, unless one of them is
at fault: the first such one is reported. -/
theorem insertNotation_eq (s : ByteSet) (cs : List Char) :
    s.insertNotation cs = match (cut cs).findSome? fault? with
      | some e => .error e
      | none => .ok (((cut cs).flatMap bytes).foldl insert s) := by
  -- An item at fault ends both sides, and else both go on from the same larger set.
  fun_induction cut cs generalizing s with
  | case1 start stop rest ih =>
    rw [insertNotation_range, List.findSome?_cons, List.flatMap_cons, List.foldl_append]
    cases (RangeItem.range start stop).fault? with
    | some e => rfl
    | none => exact ih _
  | case2 c rest alone ih =>
    rw [insertNotation_single s c rest alone, List.findSome?_cons, List.flatMap_cons,
      List.foldl_append]
    cases (RangeItem.single c).fault? with
    | some e => rfl
    | none => exact ih _
  | case3 => rfl

/-- A notation denotes a set if and only if all its items are valid. -/
theorem ofNotation_eq_ok_iff {text : String} :
    (∃ s, ofNotation text = .ok s) ↔ ∀ item ∈ cut text.toList, item.Valid := by
  have valid : (cut text.toList).findSome? fault? = none ↔ ∀ item ∈ cut text.toList, item.Valid :=
    List.findSome?_eq_none_iff.trans (forall₂_congr fun _ _ => fault?_eq_none_iff)
  rw [ofNotation, insertNotation_eq, ← valid]
  cases (cut text.toList).findSome? fault? with
  | none => exact iff_of_true ⟨_, rfl⟩ rfl
  | some e => exact iff_of_false (fun ⟨_, same⟩ => nomatch same) (fun same => nomatch same)

/-- The error that is reported is that of the first item that is not
valid. -/
theorem ofNotation_eq_error_iff {text : String} {e : RangeError} :
    ofNotation text = .error e ↔ ∃ before item after,
      cut text.toList = before ++ item :: after ∧ (∀ earlier ∈ before, earlier.Valid) ∧
        item.fault? = some e := by
  have first : (cut text.toList).findSome? fault? = some e ↔ ∃ before item after,
      cut text.toList = before ++ item :: after ∧ (∀ earlier ∈ before, earlier.Valid) ∧
        item.fault? = some e := by
    simp only [List.findSome?_eq_some_iff, fault?_eq_none_iff, and_comm]
  rw [ofNotation, insertNotation_eq, ← first]
  cases (cut text.toList).findSome? fault? with
  | none => exact iff_of_false (fun same => nomatch same) (fun same => nomatch same)
  | some found => rw [Except.error.injEq, Option.some.injEq]

/-- The members of the set are the bytes that some item lists. -/
theorem containsByte_ofNotation {text : String} {s : ByteSet} (made : ofNotation text = .ok s)
    (b : UInt8) : s.containsByte b = true ↔ ∃ item ∈ cut text.toList, item.Lists b := by
  have valid := ofNotation_eq_ok_iff.1 ⟨s, made⟩
  rw [ofNotation, insertNotation_eq] at made
  split at made
  · cases made
  · obtain rfl := Except.ok.inj made
    rw [containsByte_foldl_insert, containsByte_empty, List.mem_flatMap]
    simp only [Bool.false_eq_true, false_or]
    exact exists_congr fun item =>
      and_congr_right fun mem => mem_bytes_iff (valid item mem)

/-- What a range notation means. It denotes a set if and only if all its
items are valid, and then the set of the bytes that the items list. If not,
the first item that is not valid is reported. A text of bytes with no dashes
but at its ends denotes the set of its characters. -/
theorem ofNotation_denotes (text : String) :
    let items := cut text.toList
    ((∃ s, ofNotation text = .ok s) ↔ ∀ item ∈ items, item.Valid) ∧
    (∀ s, ofNotation text = .ok s →
      ∀ b, s.containsByte b = true ↔ ∃ item ∈ items, item.Lists b) ∧
    (∀ e, ofNotation text = .error e ↔ ∃ before item after, items = before ++ item :: after ∧
      (∀ earlier ∈ before, earlier.Valid) ∧ item.fault? = some e) ∧
    ((∀ c ∈ text.toList, c.toNat < 256) → '-' ∉ text.toList.tail.dropLast →
      ∃ s, ofNotation text = .ok s ∧
        ∀ b, s.containsByte b = true ↔ ∃ c ∈ text.toList, b.toNat = c.toNat) := by
  intro items
  refine ⟨ofNotation_eq_ok_iff, fun s => containsByte_ofNotation,
    fun e => ofNotation_eq_error_iff, fun small ends => ?_⟩
  -- With no dash inside there are no ranges, so the last part is a case of the second.
  have singles : cut text.toList = text.toList.map single := cut_eq_map_single ends
  have valid : ∀ item ∈ cut text.toList, item.Valid := by
    rw [singles]
    exact List.forall_mem_map.2 small
  obtain ⟨s, made⟩ := ofNotation_eq_ok_iff.2 valid
  refine ⟨s, made, fun b => ?_⟩
  rw [containsByte_ofNotation made, singles]
  constructor
  · rintro ⟨item, mem, lists⟩
    obtain ⟨c, here, rfl⟩ := List.mem_map.1 mem
    exact ⟨c, here, lists⟩
  · rintro ⟨c, here, same⟩
    exact ⟨.single c, List.mem_map_of_mem here, same⟩

/-- The text `-aÿ-` denotes its three characters. In `+--z-a-ā` the first
dash makes a range that the second ends, and the range from `z` to `a` is
reported although something that is no byte comes later. -/
theorem ofNotation_denotes_dashes :
    (∃ s, ofNotation "-aÿ-" = .ok s ∧
      ∀ b, s.containsByte b = true ↔ ∃ c ∈ "-aÿ-".toList, b.toNat = c.toNat) ∧
    cut "+--z-a-ā".toList = [.range '+' '-', .range 'z' 'a', .single '-', .single 'ā'] ∧
    ofNotation "+--z-a-ā" = .error (.reversed 'z' 'a') := by
  obtain ⟨_, _, _, literal⟩ := ofNotation_denotes "-aÿ-"
  obtain ⟨_, _, error, _⟩ := ofNotation_denotes "+--z-a-ā"
  have items : cut "+--z-a-ā".toList
      = [.range '+' '-', .range 'z' 'a', .single '-', .single 'ā'] := by decide +kernel
  have chars : "-aÿ-".toList = ['-', 'a', 'ÿ', '-'] := by decide +kernel
  have small : ∀ c ∈ "-aÿ-".toList, c.toNat < 256 := by simp [chars]
  have ends : '-' ∉ "-aÿ-".toList.tail.dropLast := by simp [chars]
  refine ⟨literal small ends, items, (error _).2 ?_⟩
  exact ⟨[.range '+' '-'], .range 'z' 'a', [.single '-', .single 'ā'], items,
    List.forall_mem_singleton.2 (by decide), rfl⟩

end ByteSet

end ScanExpr
