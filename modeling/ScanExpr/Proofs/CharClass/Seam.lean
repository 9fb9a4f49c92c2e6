import ScanExpr.Proofs.CharClass.ByteSet

/-!
# `ScanExpr.Proofs.CharClass.Seam`: one range notation after another

The reader of a range notation looks two characters ahead, so text that is
appended may change how the text before it is read: `a-` lists two
characters, and `a-c` lists three. Only a dash can do this. If the first of
two texts does not end with one and the second does not begin with one, their
items stay as they are, and what the whole lists is the union of what the
parts list. A dash that is put at either end stands for itself.

* `RangeItem.cut_append`: no item lies across the seam of two texts.
* `ByteSet.ofItems_append`: items one after the other, and the first fault
  among them.
* `ByteSet.ofNotation_append`: the law for notations.
-/

set_option autoImplicit false

namespace ScanExpr

namespace RangeItem

/-- No item lies across the seam of two texts if the first does not end with a
dash, and the second does not begin with one or is nothing but a dash. -/
theorem cut_append {cs ds : List Char} (ends : ¬['-'] <:+ cs)
    (begins : ∀ stop rest, ds ≠ '-' :: stop :: rest) : cut (cs ++ ds) = cut cs ++ cut ds := by
  fun_induction cut cs with
  | case1 start stop rest ih =>
    have tail_ends : ¬['-'] <:+ rest := fun suffix =>
      ends (suffix.trans ⟨[start, '-', stop], rfl⟩)
    show cut (start :: '-' :: stop :: (rest ++ ds)) = _
    rw [cut, ih tail_ends, List.cons_append]
  | case2 c rest alone ih =>
    have tail_ends : ¬['-'] <:+ rest := fun suffix =>
      ends (suffix.trans (List.suffix_cons c rest))
    -- What comes after `c` begins no range, be it all of the first text or only its end.
    have still_alone : ∀ stop after, rest ++ ds = '-' :: stop :: after → False := by
      intro stop after joined
      match rest with
      | [] => exact begins stop after joined
      | [d] =>
        obtain rfl : d = '-' := (List.cons.inj joined).1
        exact tail_ends (List.suffix_refl _)
      | d :: e :: rest =>
        obtain rfl : d = '-' := (List.cons.inj joined).1
        exact alone e rest rfl
    show cut (c :: (rest ++ ds)) = _
    rw [cut.eq_2 c (rest ++ ds) still_alone, ih tail_ends, List.cons_append]
  | case3 => rfl

/-- A dash before a text that does not begin with one stands for itself. -/
theorem cut_dash_cons {cs : List Char} (begins : ¬['-'] <+: cs) :
    cut ('-' :: cs) = .single '-' :: cut cs := by
  refine cut.eq_2 '-' cs fun stop rest dashed => begins ?_
  exact ⟨stop :: rest, dashed.symm⟩

end RangeItem

namespace ByteSet

open RangeItem

/-! ### Items one after the other -/

/-- The set that items list, or the fault of the first one that is not
valid. -/
def ofItems (items : List RangeItem) : Except RangeError ByteSet :=
  match items.findSome? fault? with
  | some e => .error e
  | none => .ok ((items.flatMap bytes).foldl insert empty)

/-- A notation denotes what its items list. -/
theorem ofNotation_eq_ofItems (text : String) : ofNotation text = ofItems (cut text.toList) :=
  insertNotation_eq empty text.toList

/-- Bytes are inserted into a set, or into nothing and then united with it. -/
theorem foldl_insert_eq_union (s : ByteSet) (bytes : List UInt8) :
    bytes.foldl insert s = s.union (bytes.foldl insert empty) := by
  refine ext_containsByte fun b => ?_
  rw [Bool.eq_iff_iff, containsByte_union, Bool.or_eq_true, containsByte_foldl_insert,
    containsByte_foldl_insert, containsByte_empty]
  simp

/-- The items of two lists list the union, and a fault in the first list comes
before one in the second. -/
theorem ofItems_append (items more : List RangeItem) : ofItems (items ++ more) = do
    let s ← ofItems items
    let t ← ofItems more
    return s.union t := by
  rw [ofItems, List.findSome?_append, List.flatMap_append, List.foldl_append,
    foldl_insert_eq_union, ofItems, ofItems]
  -- A fault in the first list hides whatever there is in the second.
  cases items.findSome? fault? with
  | some e => rfl
  | none =>
    cases more.findSome? fault? with
    | some e => rfl
    | none => rfl

/-- The order in which two sets are united makes no difference. -/
theorem union_comm (s t : ByteSet) : s.union t = t.union s := by
  refine ext_containsByte fun b => ?_
  rw [containsByte_union, containsByte_union, Bool.or_comm]

/-- To unite a set with a single byte is to insert the byte. -/
theorem union_insert_empty (s : ByteSet) (b : UInt8) : s.union (empty.insert b) = s.insert b :=
  (s.foldl_insert_eq_union [b]).symm

/-- A dash by itself lists the dash. -/
theorem ofItems_dash : ofItems [.single '-'] = .ok (empty.insert '-'.toUInt8) := rfl

/-- A dash is a byte, so it is no fault wherever it stands for itself. -/
theorem ofItems_append_dash (items : List RangeItem) :
    ofItems (items ++ [.single '-']) = (ofItems items).map (·.insert '-'.toUInt8) := by
  rw [ofItems_append, ofItems_dash]
  cases ofItems items with
  | error e => rfl
  | ok s => exact congrArg Except.ok (s.union_insert_empty '-'.toUInt8)

/-- A dash in front of items that stands for itself adds a dash to what they
list. -/
theorem ofItems_dash_cons (items : List RangeItem) :
    ofItems (.single '-' :: items) = (ofItems items).map (·.insert '-'.toUInt8) := by
  rw [← List.singleton_append, ofItems_append, ofItems_dash]
  cases ofItems items with
  | error e => rfl
  | ok s =>
    show Except.ok ((empty.insert '-'.toUInt8).union s) = .ok (s.insert '-'.toUInt8)
    rw [union_comm, union_insert_empty]

/-! ### Notations one after the other -/

/-- Range notations compose. Of a text that does not end with a dash and one
that does not begin with a dash, each is read in the other's company as it is
by itself: the first fault is that of the first text if it has one, and else
that of the second, and if there is none the members are those of both. A dash
after a text that does not end with one adds a dash to the set, and so does a
dash before a text that does not begin with one. -/
theorem ofNotation_append (first second : String) :
    (¬['-'] <:+ first.toList → ¬['-'] <+: second.toList →
      ofNotation (first ++ second) = do
        let s ← ofNotation first
        let t ← ofNotation second
        return s.union t) ∧
    (¬['-'] <:+ first.toList →
      ofNotation (first ++ "-") = (ofNotation first).map (·.insert '-'.toUInt8)) ∧
    (¬['-'] <+: second.toList →
      ofNotation ("-" ++ second) = (ofNotation second).map (·.insert '-'.toUInt8)) := by
  -- All three laws are laws of items.
  have dash : "-".toList = ['-'] := rfl
  simp only [ofNotation_eq_ofItems, String.toList_append, dash]
  refine ⟨fun ends begins => ?_, fun ends => ?_, fun begins => ?_⟩
  · have apart : ∀ stop rest, second.toList ≠ '-' :: stop :: rest := by
      intro stop rest dashed
      exact begins ⟨stop :: rest, dashed.symm⟩
    rw [cut_append ends apart, ofItems_append]
  · have apart : ∀ stop rest, ['-'] ≠ '-' :: stop :: rest := by simp
    rw [cut_append ends apart]
    exact ofItems_append_dash (cut first.toList)
  · show ofItems (cut ('-' :: second.toList)) = _
    rw [cut_dash_cons begins, ofItems_dash_cons]

/-- Texts full of dashes: `+--a` lists the bytes from `+` to `-` and an `a`,
and `b-d-` three letters and a dash. Put together they list all of these. In
`az-aā9-0` the first text is at fault, and so are both items of the second. -/
theorem ofNotation_append_crowded :
    ¬['-'] <:+ "+--a".toList ∧ ¬['-'] <+: "b-d-".toList ∧
    ¬['-'] <:+ "az-a".toList ∧ ¬['-'] <+: "ā9-0".toList ∧
    (∃ s t, ofNotation "+--a" = .ok s ∧ ofNotation "b-d-" = .ok t ∧
      ofNotation ("+--a" ++ "b-d-") = .ok (s.union t) ∧
      ofNotation ("+--a" ++ "-") = .ok (s.insert '-'.toUInt8) ∧
      ofNotation ("-" ++ "b-d-") = .ok (t.insert '-'.toUInt8)) ∧
    ofNotation ("az-a" ++ "ā9-0") = .error (.reversed 'z' 'a') := by
  have ends : ¬['-'] <:+ "+--a".toList := by decide +kernel
  have begins : ¬['-'] <+: "b-d-".toList := by decide +kernel
  have ends' : ¬['-'] <:+ "az-a".toList := by decide +kernel
  have begins' : ¬['-'] <+: "ā9-0".toList := by decide +kernel
  have valid : ∀ item ∈ cut "+--a".toList, item.Valid := by decide +kernel
  have valid' : ∀ item ∈ cut "b-d-".toList, item.Valid := by decide +kernel
  obtain ⟨s, made⟩ := ofNotation_eq_ok_iff.2 valid
  obtain ⟨t, made'⟩ := ofNotation_eq_ok_iff.2 valid'
  obtain ⟨joined, dash_after, dash_before⟩ := ofNotation_append "+--a" "b-d-"
  obtain ⟨faulty, _, _⟩ := ofNotation_append "az-a" "ā9-0"
  -- The first text alone decides what is reported of the two.
  have fault : ofNotation "az-a" = .error (.reversed 'z' 'a') := by
    rw [ofNotation_eq_ofItems]
    decide +kernel
  refine ⟨ends, begins, ends', begins', ⟨s, t, made, made', ?_, ?_, ?_⟩, ?_⟩
  · rw [joined ends begins, made, made']
    rfl
  · rw [dash_after ends, made]
    rfl
  · rw [dash_before begins, made']
    rfl
  · rw [faulty ends' begins', fault]
    rfl

end ByteSet

end ScanExpr
