import ScanExpr.Proofs.Matcher.Procedure
import ScanExpr.Proofs.Stream.Boundary
import ScanExpr.Proofs.Text.Source
import ScanExpr.Stream.Tape

/-!
# `ScanExpr.Proofs.Matcher.Independence`: bytes and characters

A cursor decodes the bytes of a text as it goes, and a tape indexes the
characters of the text. `Corresponds text bytes chars` says that the two
positions are the same place: `bytes` is the length in bytes of the first
`chars` characters.

* `Cursor.simulation`: cursors and tapes at the same place cannot be told
  apart.
* `Procedure.alike_run_tape`: whatever program uses a matcher, it sees the
  same over the source of a text as over the characters of the text, and
  its positions and the entries of its levels always correspond. The text
  has to fit into its source (`Procedure.alike_run_tape_overlong`).
-/

set_option autoImplicit false

namespace ScanExpr

/-! ### Places in a text -/

/-- The first `chars` characters of the text take `bytes` bytes. -/
def Corresponds (text : List Char) (bytes chars : Nat) : Prop :=
  chars ≤ text.length ∧ bytes = byteLength (text.take chars)

instance (text : List Char) (bytes chars : Nat) : Decidable (Corresponds text bytes chars) :=
  inferInstanceAs (Decidable (_ ∧ _))

/-- Every character takes a byte at least. -/
theorem length_le_byteLength (cs : List Char) : cs.length ≤ byteLength cs := by
  induction cs with
  | nil => exact Nat.zero_le _
  | cons c cs ih =>
    rw [byteLength_cons, List.length_cons, Nat.add_comm]
    exact Nat.add_le_add c.utf8Size_pos ih

/-- Further characters take further bytes. -/
theorem byteLength_take_lt {cs : List Char} {k n : Nat} (lt : k < n) (within : n ≤ cs.length) :
    byteLength (cs.take k) < byteLength (cs.take n) := by
  obtain ⟨more, rfl⟩ := Nat.exists_eq_add_of_lt lt
  have least := length_le_byteLength ((cs.drop k).take (more + 1))
  rw [List.length_take, List.length_drop] at least
  rw [Nat.add_assoc, List.take_add, byteLength_append]
  omega

/-- The first characters of a list take no more bytes than all of them. -/
theorem byteLength_take_le (cs : List Char) (k : Nat) :
    byteLength (cs.take k) ≤ byteLength cs := by
  have split := byteLength_take_add_drop cs k
  omega

/-- The same number of bytes is that of the same number of characters. -/
theorem Corresponds.chars_unique {text : List Char} {bytes k n : Nat}
    (first : Corresponds text bytes k) (second : Corresponds text bytes n) : k = n := by
  have bytes_eq : byteLength (text.take k) = byteLength (text.take n) :=
    first.2.symm.trans second.2
  -- More characters take more bytes, so neither number can be the smaller one.
  rcases Nat.lt_trichotomy k n with lt | eq | lt
  · have := byteLength_take_lt lt second.1
    omega
  · exact eq
  · have := byteLength_take_lt lt first.1
    omega

/-! ### Cursors and tapes -/

namespace Cursor

variable {src : Source} {c : Cursor src} {t : Tape src.text.toList.toArray}

/-- A cursor and a tape at the same place. -/
def CorrespondsTo (c : Cursor src) (t : Tape src.text.toList.toArray) : Prop :=
  Corresponds src.text.toList c.pos.toNat t.pos

/-- Marks of the same place in a source. -/
def Mark.CorrespondsTo (src : Source) (m : Mark) (n : Nat) : Prop :=
  Corresponds src.text.toList m.pos.toNat n

/-- What comes after the cursor is what comes after the tape. -/
theorem CorrespondsTo.precedes (here : c.CorrespondsTo t) :
    c.Precedes (src.text.toList.drop t.pos) :=
  ⟨src.text.toList.take t.pos, (List.take_append_drop ..).symm, here.2⟩

/-- A cursor in front of the characters behind the first `chars` has passed as
many bytes as these take. -/
theorem Precedes.corresponds {chars : Nat} (stands : c.Precedes (src.text.toList.drop chars))
    (within : chars ≤ src.text.toList.length) :
    Corresponds src.text.toList c.pos.toNat chars := by
  obtain ⟨before, text, pos⟩ := stands
  have before_eq : src.text.toList.take chars = before :=
    List.append_cancel_right ((List.take_append_drop ..).trans text)
  exact ⟨within, before_eq ▸ pos⟩

/-- The tape shows the first of the characters that the cursor has left. -/
theorem head?_drop_pos (t : Tape src.text.toList.toArray) :
    (src.text.toList.drop t.pos).head? = t.peek := by
  rw [List.head?_drop, Tape.peek, List.getElem?_toArray]

/-- Marks of the same place lead to the same place, wherever the cursor was. -/
theorem rewind_correspondsTo {m : Mark} {n : Nat} (place : m.CorrespondsTo src n) :
    (c.rewind m).CorrespondsTo (Tape.clamped _ n) := by
  -- A place in the text lies within both ends, so neither side is cut short.
  have stays : min n src.text.toList.toArray.size = n := Nat.min_eq_left place.1
  have within : m.pos ≤ src.length := by
    rw [UInt32.le_iff_toNat_le, place.2, Source.toNat_length, ← byteLength_toList]
    exact byteLength_take_le _ _
  show Corresponds _ (c.rewind m).pos.toNat (min n _)
  rw [stays, rewind, clamped_of_le within]
  exact place

/-- Both move over the character that the cursor shows. -/
theorem CorrespondsTo.step {x : Char} (here : c.CorrespondsTo t) (next : c.peek = some x) :
    (c.step x).CorrespondsTo t.step := by
  have shown : t.peek = some x :=
    ((reads_precedes.peek here.precedes).trans (head?_drop_pos t)).symm.trans next
  have within : t.pos < src.text.toList.length := Tape.pos_lt_of_peek shown
  have first : src.text.toList[t.pos] = x := by
    rw [← Option.some.injEq, ← List.getElem?_eq_getElem, ← List.getElem?_toArray]
    exact shown
  have stands := here.precedes
  rw [List.drop_eq_getElem_cons within, first] at stands
  show Corresponds _ (c.step x).pos.toNat t.step.pos
  rw [Tape.pos_step shown]
  exact stands.step.corresponds within

/-- The cursor knows its end by its position, and the tape by having nothing to
show. -/
theorem CorrespondsTo.atEnd_eq (here : c.CorrespondsTo t) : c.atEnd = t.peek.isNone := by
  rw [here.precedes.atEnd_eq, ← head?_drop_pos]
  cases src.text.toList.drop t.pos <;> rfl

/-- Nothing tells a cursor from a tape at the same place. -/
theorem simulation (src : Source) :
    Simulation (@CorrespondsTo src) (Mark.CorrespondsTo src) where
  peek here := (reads_precedes.peek here.precedes).trans (head?_drop_pos _)
  step := CorrespondsTo.step
  atEnd := CorrespondsTo.atEnd_eq
  mark here := here
  rewind _ place := rewind_correspondsTo place
  -- A number of characters and a number of bytes determine each other.
  biUnique := by
    constructor
    · intro m m' n place place'
      exact Mark.eq_of_toNat_pos (place.2.trans place'.2.symm)
    · intro m n n' place place'
      exact place.chars_unique place'

end Cursor

/-- Over the source of a text that is not too long for its offsets, whatever
program uses a matcher sees at every step what it sees over the list of the
characters of the text, wherever in the text it starts: the same answers and
refusals, depths, flags and events, and corresponding positions, marks and
entries of levels. -/
theorem Procedure.alike_run_tape {ρ : Type} {text : String}
    (fits : text.utf8ByteSize < UInt32.size) (p : Procedure ρ) (c : Cursor (.ofString text))
    (t : Tape text.toList.toArray) (here : Corresponds text.toList c.pos.toNat t.pos) :
    Ran.Alike (fun c t => Corresponds text.toList c.pos.toNat t.pos)
      (fun m n => Corresponds text.toList m.pos.toNat n)
      (p.run [] (.start c)) (p.run [] (.start t)) := by
  have held := Source.text_ofString fits
  -- Nothing else is used of the source than that it holds the text.
  generalize Source.ofString text = src at c held
  subst held
  have simulation := Cursor.simulation src
  exact Procedure.alike_run simulation (.start simulation here) .nil p

/-- The positions of cursors whose sights are those of tapes. -/
theorem Sight.positions_eq {ρ : Type} {src : Source} {text : String}
    {xs : List (Sight (Cursor src) Cursor.Mark ρ)}
    {ys : List (Sight (Tape text.toList.toArray) Nat ρ)} {sameMark : Cursor.Mark → Nat → Prop}
    (alike : List.Forall₂
      (Sight.Alike (fun c t => Corresponds text.toList c.pos.toNat t.pos) sameMark) xs ys) :
    xs.map (·.matcher.stream.pos.toNat)
      = ys.map fun y => byteLength (text.toList.take y.matcher.stream.pos) := by
  rw [← List.forall₂_eq_eq_eq, List.forall₂_map_left_iff, List.forall₂_map_right_iff]
  exact alike.imp fun x y here => here.matcher.stream.2

/-- Reads a character, then a group in vain, and then what the group had
read. The operand of the group runs an expression of its own, looks for
the end, and goes back to a mark that was taken before the group. -/
def Procedure.tour : Procedure Unit :=
  let any : Primitive := .consume (fun _ => true) .one
  let inner : Procedure Unit :=
    .attempt (.primitive any) fun _ => .act (.call (.connect .and)) fun _ =>
    .attempt (.primitive any) fun _ => .act (.call .result) fun _ => .finish true ()
  let operand : Procedure Unit :=
    .nest inner fun _ => .act (.primitive .atEnd) fun _ => .act (.rewind 0) fun _ =>
    .finish false ()
  .act .mark fun _ => .attempt (.primitive any) fun _ =>
  .act (.call (.connectEnter .and)) fun _ => .attempt operand fun _ =>
  .act (.call (.leaveGroup .optional)) fun _ => .act .advance fun _ => .act .advance fun _ =>
  .act (.call .result) fun _ => .finish true ()

/-- The tour of a text with a zero inside and a last character of four
bytes, from behind its first character. -/
theorem Procedure.alike_run_tape_tour :
    let text := String.ofList ['a', '\x00', '€', '𐍈']
    ∃ (c : Cursor (.ofString text)) (t : Tape text.toList.toArray),
      text.utf8ByteSize < UInt32.size ∧ Corresponds text.toList c.pos.toNat t.pos ∧
      (tour.run [] (.start t)).sights.map (·.matcher.stream.pos)
        = [1, 2, 2, 2, 3, 3, 3, 4, 4, 4, 4, 4, 1, 1, 2, 3, 4, 4] ∧
      (tour.run [] (.start c)).sights.map (·.matcher.stream.pos.toNat)
        = [1, 2, 2, 2, 5, 5, 5, 9, 9, 9, 9, 9, 1, 1, 2, 5, 9, 9] := by
  intro text
  let c : Cursor (.ofString text) := .clamped _ 1
  let t : Tape text.toList.toArray := .clamped _ 1
  have fits : text.utf8ByteSize < UInt32.size := by decide +kernel
  have here : Corresponds text.toList c.pos.toNat t.pos := by decide +kernel
  have run := alike_run_tape fits tour c t here
  refine ⟨c, t, fits, here, ?_, ?_⟩
  · decide +kernel
  · rw [Sight.positions_eq run.sights]
    decide +kernel

/-- Asks for the next character. -/
def Procedure.look : Procedure Unit :=
  .act .peek fun _ => .finish true ()

section

variable {σ τ μ ν : Type} [CharStream σ μ] [DecidableEq μ] [CharStream τ ν] [DecidableEq ν]

/-- What is seen is what there is to peek at. -/
theorem Procedure.responses_run_look (s : σ) :
    (look.run [] (.start s)).sights.map (·.response) = [.character (CharStream.peek s)] := rfl

/-- One look tells a stream that has ended from one that has not. -/
theorem Procedure.run_look_of_ended {same : σ → τ → Prop} {sameMark : μ → ν → Prop} {s : σ} {t : τ}
    {x : Char} (ended : CharStream.peek s = none) (next : CharStream.peek t = some x) :
    (look.run [] (.start s)).sights.map (·.response) = [.character none] ∧
      (look.run [] (.start t)).sights.map (·.response) = [.character (some x)] ∧
      ¬ Ran.Alike same sameMark (look.run [] (.start s)) (look.run [] (.start t)) := by
  refine ⟨?_, ?_, fun alike => ?_⟩
  · rw [responses_run_look, ended]
  · rw [responses_run_look, next]
  · cases alike.sights with
    | cons first _ =>
      have shown : CharStream.peek s = CharStream.peek t := Response.character.inj first.response
      rw [ended, next] at shown
      cases shown

end

/-- Behind a first part of a text that leaves no room for another byte the
cursor has come to its end, whatever the rest of the text is. -/
theorem Cursor.exists_ended {u : String} (full : u.utf8ByteSize = UInt32.size - 1) (v : String) :
    ∃ c : Cursor (.ofString (u ++ v)), c.pos.toNat = u.utf8ByteSize ∧ c.peek = none := by
  refine ⟨⟨_, UInt32.le_refl _⟩, ?_, peek_of_atEnd (atEnd_eq_true_iff.2 rfl)⟩
  show (Source.ofString (u ++ v)).length.toNat = u.utf8ByteSize
  rw [Source.toNat_length, Source.text_ofString_append full v]

/-- In front of the last character of a text that is one character too long
the cursor stands at its end and the tape does not. -/
theorem Procedure.alike_run_tape_overlong :
    ∃ (c : Cursor (.ofString (Source.fullText ++ "a")))
      (t : Tape (Source.fullText ++ "a").toList.toArray),
      Corresponds (Source.fullText ++ "a").toList c.pos.toNat t.pos ∧
      (look.run [] (.start c)).sights.map (·.response) = [.character none] ∧
      (look.run [] (.start t)).sights.map (·.response) = [.character (some 'a')] ∧
      ¬ Ran.Alike (fun c t => Corresponds (Source.fullText ++ "a").toList c.pos.toNat t.pos)
        (fun m n => Corresponds (Source.fullText ++ "a").toList m.pos.toNat n)
        (look.run [] (.start c)) (look.run [] (.start t)) := by
  have full := Source.utf8ByteSize_fullText
  -- Nothing else is used of the long text than its length.
  generalize Source.fullText = u at full ⊢
  obtain ⟨c, pos, ended⟩ := Cursor.exists_ended full "a"
  have chars : (u ++ "a").toList = u.toList ++ ['a'] := String.toList_append
  have within : u.toList.length ≤ (u ++ "a").toList.length := by
    rw [chars, List.length_append]
    exact Nat.le_add_right _ _
  -- The tape is put behind the long text, in front of the character that is one too many.
  have before : byteLength ((u ++ "a").toList.take u.toList.length) = u.utf8ByteSize := by
    rw [chars, List.take_left, byteLength_toList]
  have last : (u ++ "a").toList[u.toList.length]? = some 'a' := by
    rw [chars, List.getElem?_concat_length]
  let t : Tape (u ++ "a").toList.toArray := ⟨u.toList.length, within⟩
  have here : Corresponds (u ++ "a").toList c.pos.toNat t.pos := ⟨within, pos.trans before.symm⟩
  have next : t.peek = some 'a' := by
    rw [Tape.peek, List.getElem?_toArray]
    exact last
  exact ⟨c, t, here, run_look_of_ended ended next⟩

end ScanExpr
