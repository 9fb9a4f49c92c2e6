import Mathlib.Data.Set.Card
import ScanExpr.CharClass.ByteSetEdit
import ScanExpr.Proofs.CharClass.RangeNotation
import ScanExpr.Proofs.Text.Quoted

/-!
# `ScanExpr.Proofs.CharClass.ByteSet`: a bitmap as a set of bytes

A byte set is 256 bits in four words. `ByteSet.Denotes` says what it is to its
users, a set of bytes in the sense of mathematics. Every question that can be
asked of a byte set is answered as that set answers it.

A byte set is built by edits. `Edit.denote` reads an edit as a change of a
mathematical set and knows nothing of bits.

* `ByteSet.ext_containsByte`: a byte set has no more to it than its members.
* `ByteSet.denotes_iff`: to know the members is to know every answer.
* `ByteSet.Denotes.dump_eq`: the listing spells the members out, each of them
  as a quoted character (`Text.quotedByte`).
* `ByteSet.ofEdits_denotes`: what edits build denotes what they describe, and
  two byte sets are equal if and only if they were described as the same set.
-/

set_option autoImplicit false

namespace ScanExpr.ByteSet

/-! ### Bits and members -/

/-- Bit `n` of word `i` belongs to one of the 256 bytes. -/
theorem add_mem_range (i : Fin 4) {n : Nat} (small : n < 64) : 64 * i.val + n ∈ List.range 256 := by
  have := i.isLt
  exact List.mem_range.2 (by omega)

/-- The numbers below 256 are those of bytes. -/
theorem toNat_ofNat_of_mem_range {n : Nat} (here : n ∈ List.range 256) :
    (UInt8.ofNat n).toNat = n :=
  UInt8.toNat_ofNat_of_lt' (List.mem_range.1 here)

/-- Every bit of every word is asked for by some byte. -/
theorem containsByte_ofNat (s : ByteSet) (i : Fin 4) {n : Nat} (small : n < 64) :
    s.containsByte (.ofNat (64 * i.val + n)) = (s.words.get i).toBitVec.getLsbD n := by
  have value := toNat_ofNat_of_mem_range (add_mem_range i small)
  have word : wordOf (.ofNat (64 * i.val + n)) = i := by
    rw [Fin.ext_iff, val_wordOf, value]
    omega
  have place : (64 * i.val + n) % 64 = n := by omega
  rw [containsByte_eq_getLsbD, word, value, place]

/-- Byte sets with the same members are equal. -/
theorem ext_containsByte {s t : ByteSet} (same : ∀ b, s.containsByte b = t.containsByte b) :
    s = t := by
  -- Every bit is the membership of some byte, so no bit can differ.
  have words : s.words = t.words := by
    refine Vector.ext fun i inside => UInt64.toBitVec_inj.1 ?_
    refine BitVec.eq_of_getLsbD_eq fun n small => ?_
    have s_bit := s.containsByte_ofNat ⟨i, inside⟩ small
    have t_bit := t.containsByte_ofNat ⟨i, inside⟩ small
    exact s_bit.symm.trans ((same _).trans t_bit)
  cases s
  cases t
  cases words
  rfl

/-- A byte is listed if its bit is set. -/
theorem mem_members {s : ByteSet} {b : UInt8} : b ∈ s.members ↔ s.containsByte b = true := by
  have some_byte : b ∈ (List.range 256).map UInt8.ofNat :=
    List.mem_map.2 ⟨b.toNat, List.mem_range.2 b.toNat_lt, UInt8.ofNat_toNat⟩
  rw [members, List.mem_filter]
  exact and_iff_right some_byte

/-- The bytes are listed in ascending order. -/
theorem pairwise_members (s : ByteSet) : s.members.Pairwise (· < ·) := by
  refine List.Pairwise.filter _ (List.pairwise_map.2 ?_)
  -- Up to 255 the order of the numbers is that of the bytes.
  refine List.pairwise_lt_range.imp_of_mem fun first second lt => ?_
  rw [UInt8.lt_iff_toNat_lt, toNat_ofNat_of_mem_range first, toNat_ofNat_of_mem_range second]
  exact lt

/-- The bits are counted from the highest of the first `k` down, on top of
`count`. -/
theorem cpopNatRec_eq_add_countP {w : Nat} (x : BitVec w) (k count : Nat) :
    x.cpopNatRec k count = count + (List.range k).countP x.getLsbD := by
  -- The count goes down from bit `k`, and what was counted above it is carried along.
  induction k generalizing count with
  | zero => rfl
  | succ k ih =>
    have highest : [k].countP x.getLsbD = (x.getLsbD k).toNat := by
      cases bit : x.getLsbD k <;> simp [bit]
    rw [BitVec.cpopNatRec_succ, ih, List.range_succ, List.countP_append, highest]
    omega

/-- The bits of a word are as many as the bytes that they belong to. -/
theorem cpop_word_eq_countP (s : ByteSet) (i : Fin 4) :
    (s.words.get i).toBitVec.cpop.toNat
      = (List.range 64).countP fun n => s.containsByte (.ofNat (64 * i.val + n)) := by
  rw [BitVec.toNat_cpop, cpopNatRec_eq_add_countP, Nat.zero_add]
  refine List.countP_congr fun n here => ?_
  rw [s.containsByte_ofNat i (List.mem_range.1 here)]

/-- The size is the number of bits in the four words, one after the other. -/
theorem size_eq_sum (s : ByteSet) :
    s.size = ((List.finRange 4).map fun i => (s.words.get i).toBitVec.cpop.toNat).sum := by
  have words : s.words.toList = (List.finRange 4).map s.words.get := by
    refine List.ext_getElem (by simp) fun i _ _ => ?_
    rw [List.getElem_map, List.getElem_finRange, Vector.getElem_toList]
    rfl
  rw [size, ← Vector.foldl_toList, words, List.foldl_map, List.sum_eq_foldl, List.foldl_map]

/-- A byte set has as many members as it lists. -/
theorem size_eq_length_members (s : ByteSet) : s.size = s.members.length := by
  -- The bytes follow each other word by word.
  have bytes : List.range 256
      = (List.finRange 4).flatMap fun i => (List.range 64).map (64 * i.val + ·) := by
    decide +kernel
  rw [size_eq_sum, members, ← List.countP_eq_length_filter, List.countP_map, bytes,
    List.countP_flatMap]
  refine congrArg List.sum (List.map_congr_left fun i _ => ?_)
  rw [cpop_word_eq_countP, Function.comp_apply, List.countP_map]
  rfl

/-- No byte is listed twice, so there are as many as are counted. -/
theorem size_eq_ncard (s : ByteSet) : s.size = {b | s.containsByte b = true}.ncard := by
  have once : s.members.Nodup := s.pairwise_members.imp UInt8.ne_of_lt
  have listed : {b | s.containsByte b = true} = (s.members.toFinset : Set UInt8) := by
    ext b
    rw [Finset.mem_coe, List.mem_toFinset, mem_members]
    rfl
  rw [listed, Set.ncard_coe_finset, List.toFinset_card_of_nodup once, size_eq_length_members]

/-- A set is empty if no byte has its bit set. -/
theorem isEmpty_iff {s : ByteSet} : s.isEmpty = true ↔ ∀ b, s.containsByte b = false := by
  rw [isEmpty, beq_iff_eq]
  constructor
  · intro zero b
    have same : s = empty := congrArg mk zero
    rw [same]
    exact containsByte_empty b
  · intro none
    have same : s = empty := ext_containsByte fun b => (none b).trans (containsByte_empty b).symm
    exact congrArg words same

/-- The members are shown as characters between single quotes, in braces and
with a comma and a space between two of them. -/
theorem dump_eq (s : ByteSet) :
    dump s = "\x7b" ++ String.intercalate ", " (s.members.map Text.quotedByte) ++ "\x7d" := by
  have shown : (fun b => dump (Char.ofUInt8 b)) = Text.quotedByte := funext Text.quoted_ofUInt8
  show Text.braced (s.members.map fun b => dump (Char.ofUInt8 b)) = _
  rw [shown]
  rfl

/-- A character is looked up by its code point, which has to be a byte. -/
theorem contains_iff {s : ByteSet} {c : Char} : CharClass.contains s c = true
    ↔ c.toNat < 256 ∧ s.containsByte (.ofNat c.toNat) = true := by
  show (decide (c.toNat < 256) && s.containsByte c.toUInt8) = true ↔ _
  rw [Bool.and_eq_true, decide_eq_true_iff]
  refine and_congr_right fun small => ?_
  have same : c.toUInt8 = .ofNat c.toNat := by
    rw [← UInt8.toNat_inj, RangeItem.toNat_toUInt8 small, UInt8.toNat_ofNat_of_lt' small]
  rw [same]

/-! ### The set that is denoted -/

/-- The byte set answers every question as the set `bytes` would. -/
structure Denotes (s : ByteSet) (bytes : Set UInt8) : Prop where
  containsByte_iff : ∀ b, s.containsByte b = true ↔ b ∈ bytes
  /-- A character belongs to the set if its code point is a byte of it. -/
  contains_iff : ∀ c : Char,
    CharClass.contains s c = true ↔ c.toNat < 256 ∧ UInt8.ofNat c.toNat ∈ bytes
  size_eq : s.size = bytes.ncard
  isEmpty_iff : s.isEmpty = true ↔ bytes = ∅
  /-- The set is shown as its members in ascending order, each of them once:
  as characters between single quotes, in braces, and with a comma and a space
  between two of them. -/
  dump_eq : ∃ listed : List UInt8, listed.Pairwise (· < ·) ∧ (∀ b, b ∈ listed ↔ b ∈ bytes) ∧
    dump s = "\x7b" ++ String.intercalate ", " (listed.map Text.quotedByte) ++ "\x7d"

/-- Whoever knows the members knows every answer. -/
theorem denotes_iff {s : ByteSet} {bytes : Set UInt8} :
    s.Denotes bytes ↔ ∀ b, s.containsByte b = true ↔ b ∈ bytes := by
  refine ⟨Denotes.containsByte_iff, fun mem => ?_⟩
  obtain rfl : {b | s.containsByte b = true} = bytes := Set.ext mem
  have nothing : s.isEmpty = true ↔ {b | s.containsByte b = true} = ∅ := by
    simp only [isEmpty_iff, Set.eq_empty_iff_forall_notMem, Set.mem_ofPred_eq, Bool.not_eq_true]
  exact ⟨mem, fun _ => contains_iff, s.size_eq_ncard, nothing,
    s.members, s.pairwise_members, fun _ => mem_members, s.dump_eq⟩

/-- Byte sets are equal if and only if they denote the same set. -/
theorem Denotes.eq_iff {s t : ByteSet} {bytes others : Set UInt8} (hs : s.Denotes bytes)
    (ht : t.Denotes others) : s = t ↔ bytes = others := by
  constructor
  · rintro rfl
    ext b
    rw [← hs.containsByte_iff, ht.containsByte_iff]
  · rintro rfl
    refine ext_containsByte fun b => ?_
    rw [Bool.eq_iff_iff, hs.containsByte_iff, ht.containsByte_iff]

/-! ### What edits describe -/

mutual

/-- The set that an edit makes of another. -/
def Edit.denote (bytes : Set UInt8) : Edit → Set UInt8
  | .clear => ∅
  | .setBytes listed => {b | b ∈ listed}
  | .setRange lo hi => {b | lo ≤ b ∧ b ≤ hi}
  | .setNotation text => {b | ∃ item ∈ RangeItem.cut text.toList, item.Lists b}
  | .insert a => bytes ∪ {a}
  | .insertRange lo hi => bytes ∪ {b | lo ≤ b ∧ b ≤ hi}
  | .union edits => bytes ∪ denoteAll ∅ edits

/-- The set that edits make of another, one after the other. -/
def denoteAll (bytes : Set UInt8) : List Edit → Set UInt8
  | [] => bytes
  | edit :: rest => denoteAll (edit.denote bytes) rest

end

/-- The set that edits describe, which begin with nothing. -/
def denoted (edits : List Edit) : Set UInt8 :=
  denoteAll ∅ edits

mutual

/-- Nothing can be at fault in an edit but a range notation. -/
def Edit.Valid : Edit → Prop
  | .setNotation text => ∀ item ∈ RangeItem.cut text.toList, item.Valid
  | .union edits => AllValid edits
  | .clear | .setBytes _ | .setRange _ _ | .insert _ | .insertRange _ _ => True

/-- Every edit of a list is valid. -/
def AllValid : List Edit → Prop
  | [] => True
  | edit :: rest => edit.Valid ∧ AllValid rest

end

/-! ### What edits build -/

/-- The set with no bits denotes the empty set. -/
theorem denotes_empty : empty.Denotes ∅ :=
  denotes_iff.2 fun b => by simp [containsByte_empty]

/-- To insert bytes is to form a union. -/
theorem Denotes.foldl_insert {s : ByteSet} {bytes : Set UInt8} (h : s.Denotes bytes)
    (more : List UInt8) : (more.foldl insert s).Denotes (bytes ∪ {b | b ∈ more}) :=
  denotes_iff.2 fun b => by
    rw [containsByte_foldl_insert, h.containsByte_iff]
    rfl

/-- To insert a range is to form the union with what lies between its ends. -/
theorem Denotes.insertRange {s : ByteSet} {bytes : Set UInt8} (h : s.Denotes bytes)
    (lo hi : UInt8) : (s.insertRange lo hi).Denotes (bytes ∪ {b | lo ≤ b ∧ b ≤ hi}) := by
  have range : {b | b ∈ byteRange lo hi} = {b | lo ≤ b ∧ b ≤ hi} := by
    ext b
    exact mem_byteRange
  rw [← range, insertRange_eq]
  exact h.foldl_insert (byteRange lo hi)

/-- The members of a range of bytes, as characters. -/
theorem contains_ofRange_iff {lo hi : UInt8} {c : Char} :
    CharClass.contains (ofRange lo hi) c = true ↔ c ∈ (byteRange lo hi).map Char.ofUInt8 := by
  have denotes : (ofRange lo hi).Denotes (∅ ∪ {b | lo ≤ b ∧ b ≤ hi}) :=
    denotes_empty.insertRange lo hi
  rw [denotes.contains_iff, Set.empty_union, List.mem_map]
  -- A character of the range is told by its byte, and each byte of it by its character.
  constructor
  · rintro ⟨small, within⟩
    refine ⟨.ofNat c.toNat, mem_byteRange.2 within, ?_⟩
    rw [← Char.toNat_inj, Text.toNat_ofUInt8, UInt8.toNat_ofNat_of_lt' small]
  · rintro ⟨b, within, rfl⟩
    rw [Text.toNat_ofUInt8, UInt8.ofNat_toNat]
    exact ⟨b.toNat_lt, mem_byteRange.1 within⟩

/-- The union of byte sets denotes the union of what they denote. -/
theorem Denotes.union {s t : ByteSet} {bytes others : Set UInt8} (hs : s.Denotes bytes)
    (ht : t.Denotes others) : (s.union t).Denotes (bytes ∪ others) :=
  denotes_iff.2 fun b => by
    rw [containsByte_union, Bool.or_eq_true, hs.containsByte_iff, ht.containsByte_iff]
    rfl

mutual

/-- A valid edit makes of a byte set what it makes of the set that is
denoted. -/
theorem Denotes.apply {s : ByteSet} {bytes : Set UInt8} (h : s.Denotes bytes) :
    (edit : Edit) → edit.Valid → ∃ t, edit.apply s = .ok t ∧ t.Denotes (edit.denote bytes)
  | .clear, _ => ⟨_, rfl, denotes_empty⟩
  | .setBytes listed, _ => by
    refine ⟨_, rfl, ?_⟩
    rw [Edit.denote, ← Set.empty_union {b | b ∈ listed}]
    exact denotes_empty.foldl_insert listed
  | .setRange lo hi, _ => by
    refine ⟨_, rfl, ?_⟩
    rw [Edit.denote, ← Set.empty_union {b | lo ≤ b ∧ b ≤ hi}]
    exact denotes_empty.insertRange lo hi
  | .setNotation text, valid => by
    rw [Edit.Valid] at valid
    obtain ⟨t, made⟩ := ofNotation_eq_ok_iff.2 valid
    exact ⟨t, made, denotes_iff.2 (containsByte_ofNotation made)⟩
  | .insert a, _ => by
    refine ⟨_, rfl, ?_⟩
    have single : ({a} : Set UInt8) = {b | b ∈ [a]} := by
      ext b
      simp
    rw [Edit.denote, single]
    exact h.foldl_insert [a]
  | .insertRange lo hi, _ => ⟨_, rfl, h.insertRange lo hi⟩
  | .union edits, valid => by
    -- The other set is built from nothing, by edits that are part of this one.
    rw [Edit.Valid] at valid
    obtain ⟨t, made, denotes⟩ := denotes_empty.applyAll edits valid
    refine ⟨s.union t, ?_, h.union denotes⟩
    rw [Edit.apply, made]

/-- Valid edits, one after the other, make of a byte set what they make of the
set that is denoted. -/
theorem Denotes.applyAll {s : ByteSet} {bytes : Set UInt8} (h : s.Denotes bytes) :
    (edits : List Edit) → AllValid edits →
      ∃ t, ByteSet.applyAll s edits = .ok t ∧ t.Denotes (denoteAll bytes edits)
  | [], _ => ⟨s, rfl, h⟩
  | edit :: rest, valid => by
    rw [AllValid] at valid
    obtain ⟨first, made, denotes⟩ := h.apply edit valid.1
    obtain ⟨last, rest_made, rest_denotes⟩ := denotes.applyAll rest valid.2
    refine ⟨last, ?_, rest_denotes⟩
    rw [ByteSet.applyAll, made]
    exact rest_made

end

/-- Edits build a byte set that answers every question as the set would that
they describe, whatever they are and in whatever order, as long as their range
notations are valid. Other edits build an equal one if and only if they
describe the same set. -/
theorem ofEdits_denotes (edits : List Edit) (valid : AllValid edits) :
    ∃ s, ofEdits edits = .ok s ∧ s.Denotes (denoted edits) ∧
      ∀ others, AllValid others →
        ∃ t, ofEdits others = .ok t ∧ (s = t ↔ denoted edits = denoted others) := by
  obtain ⟨s, made, denotes⟩ := denotes_empty.applyAll edits valid
  refine ⟨s, made, denotes, fun others others_valid => ?_⟩
  obtain ⟨t, others_made, others_denote⟩ := denotes_empty.applyAll others others_valid
  exact ⟨t, others_made, denotes.eq_iff others_denote⟩

/-- Bytes on both sides of a multiple of 64, a range that ends with the last
byte, one that runs backwards, and a union. -/
def scattered : List Edit :=
  [.setBytes [64, 63, 64], .insertRange 254 255, .insertRange 9 3,
    .union [.insert 5, .clear, .setRange 127 128]]

/-- The same bytes in another order, some of them twice. -/
def reordered : List Edit :=
  [.insertRange 63 64, .insert 255, .union [.insertRange 254 255, .insert 127], .insert 128]

/-- The two lists of edits build the same byte set, which has six members and
not the byte that was cleared. Two of the members do not show by themselves
and are listed by their code points. -/
theorem ofEdits_denotes_scattered :
    ∃ s, AllValid scattered ∧ AllValid reordered ∧ ofEdits scattered = .ok s ∧
      ofEdits reordered = .ok s ∧ s.Denotes {63, 64, 127, 128, 254, 255} ∧
      dump s = "\x7b'?', '@', '\\u\x7b7f\x7d', '\\u\x7b80\x7d', 'þ', 'ÿ'\x7d" := by
  have valid : AllValid scattered := by simp [scattered, AllValid, Edit.Valid]
  have valid' : AllValid reordered := by simp [reordered, AllValid, Edit.Valid]
  -- What the edits describe is a matter of inequalities between bytes.
  have bytes : denoted scattered = {63, 64, 127, 128, 254, 255} := by
    ext b
    have := b.toNat_lt
    simp only [scattered, denoted, denoteAll, Edit.denote, Set.mem_union, Set.mem_ofPred_eq,
      Set.mem_insert_iff, Set.mem_singleton_iff, List.mem_cons, List.not_mem_nil, or_false,
      UInt8.le_iff_toNat_le, ← UInt8.toNat_inj, UInt8.reduceToNat]
    omega
  have bytes' : denoted reordered = {63, 64, 127, 128, 254, 255} := by
    ext b
    have := b.toNat_lt
    simp only [reordered, denoted, denoteAll, Edit.denote, Set.mem_union, Set.mem_ofPred_eq,
      Set.mem_insert_iff, Set.mem_singleton_iff, Set.mem_empty_iff_false, false_or,
      UInt8.le_iff_toNat_le, ← UInt8.toNat_inj, UInt8.reduceToNat]
    omega
  obtain ⟨s, made, denotes, others⟩ := ofEdits_denotes scattered valid
  obtain ⟨t, made', same⟩ := others reordered valid'
  obtain rfl := same.2 (bytes.trans bytes'.symm)
  rw [bytes] at denotes
  obtain ⟨listed, ascending, mem, shown⟩ := denotes.dump_eq
  -- An ascending list is told by its members.
  obtain rfl : listed = [63, 64, 127, 128, 254, 255] :=
    ascending.eq_of_mem_iff (by decide) fun b => by simp [mem]
  exact ⟨s, valid, valid', made, made', denotes, shown.trans (by decide +kernel)⟩

end ScanExpr.ByteSet
