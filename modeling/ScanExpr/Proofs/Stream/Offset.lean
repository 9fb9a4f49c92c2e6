import ScanExpr.Proofs.Stream.Interior
import ScanExpr.Proofs.Stream.Simulation
import ScanExpr.Proofs.Text.Source

/-!
# `ScanExpr.Proofs.Stream.Offset`: a cursor without its guards

A cursor holds its position within the text: a sum of a position and a
width is cut short at the end, and it is a sum of 32 bits. An `Offset` has
neither guard. It is any number, its sums are those of numbers, and whether
there is a byte to read is looked up.

* `Offset.Sound`: what reading at an offset relies on. The offset is within
  the text, there is a byte to read, a zero at the end, and the sums of the
  offset and a width stay within the text.
* `Trail`: a stream that keeps the places where it has been. A primitive
  runs on it as on any stream, so the places show where it looked.
* `Cursor.places_sound`: however a cursor is moved, the offset that is moved
  in the same way comes to sound places only and ends where the cursor
  does. So nothing that a guard could change ever happens.
-/

set_option autoImplicit false

namespace ScanExpr

/-! ### Streams that keep their places -/

/-- A stream, and the places where it was before, the last one first. -/
structure Trail (σ : Type) where
  here : σ
  past : List σ

namespace Trail

variable {σ μ : Type}

/-- A trail that begins at a place. -/
def begin (s : σ) : Trail σ := ⟨s, []⟩

/-- Goes on to another place. -/
def goTo (t : Trail σ) (s : σ) : Trail σ := ⟨s, t.here :: t.past⟩

/-- All the places of a trail, the last one first. -/
def places (t : Trail σ) : List σ := t.here :: t.past

instance [CharStream σ μ] : CharStream (Trail σ) μ where
  mark t := mark t.here
  rewind t m := t.goTo (rewind t.here m)
  peek t := CharStream.peek t.here
  step t c := t.goTo (CharStream.step t.here c)
  atEnd t := CharStream.atEnd t.here
  remaining t := CharStream.remaining t.here
  remaining_step next := CharStream.remaining_step next

/-- The stream `s` is the same as the place where the trail is, and all its
places satisfy `P`. -/
structure Follows {τ : Type} (same : τ → σ → Prop) (P : σ → Prop) (s : τ) (t : Trail σ) :
    Prop where
  here : same s t.here
  places : ∀ u ∈ t.places, P u

/-- A trail goes where the stream goes, if it may be there. -/
theorem Follows.goTo {τ : Type} {same : τ → σ → Prop} {P : σ → Prop} {s s' : τ} {t : Trail σ}
    {u : σ} (follows : Follows same P s t) (there : same s' u) (holds : P u) :
    Follows same P s' (t.goTo u) where
  here := there
  places := List.forall_mem_cons.2 ⟨holds, follows.places⟩

/-- If what holds of a stream depends on the stream that it is the same as,
then it holds of all places that a trail comes to. -/
theorem follows_simulation {τ ν : Type} [CharStream σ μ] [CharStream τ ν] {same : τ → σ → Prop}
    {sameMark : ν → μ → Prop} {P : σ → Prop} (simulation : Simulation same sameMark)
    (holds : ∀ {s : τ} {u : σ}, same s u → P u) :
    Simulation (Follows same P) sameMark where
  peek follows := simulation.peek follows.here
  -- The place that is new satisfies what a place does that is the same as one of the stream.
  step follows next :=
    have there := simulation.step follows.here next
    follows.goTo there (holds there)
  atEnd follows := simulation.atEnd follows.here
  mark follows := simulation.mark follows.here
  rewind follows marks :=
    have there := simulation.rewind follows.here marks
    follows.goTo there (holds there)
  biUnique := simulation.biUnique

end Trail

/-! ### Offsets -/

/-- An offset into the buffer of a source, with nothing to hold it within
the text. -/
structure Offset (src : Source) where
  pos : Nat

namespace Offset

variable {src : Source}

/-- The byte at the offset, if the buffer reaches that far. -/
def byte? (o : Offset src) : Option UInt8 :=
  src.bytes[o.pos]?

def atEnd (o : Offset src) : Bool :=
  src.length.toNat ≤ o.pos

/-- The offset `width` bytes on. -/
def add (o : Offset src) (width : Nat) : Offset src :=
  ⟨o.pos + width⟩

def stepByte (o : Offset src) : Offset src :=
  if o.atEnd then o else o.add 1

def advance (o : Offset src) : Offset src :=
  if o.atEnd then o
  else
    match o.byte? with
    | some lead => o.add (Cursor.leadWidth lead).toNat
    | none => o

def step (o : Offset src) (x : Char) : Offset src :=
  o.add x.utf8Size

/-- The character at the offset, read from as many bytes as the first one
announces. -/
def peek (o : Offset src) : Option Char :=
  if o.atEnd then none
  else
    match o.byte? with
    | some lead =>
      if lead < 0x80 then some (Char.ofUInt8 lead)
      else
        let stop := o.add (Cursor.leadWidth lead).toNat
        ((String.fromUTF8? (src.bytes.extract o.pos stop.pos)).getD "").toList.head?
    | none => none

instance : CharStream (Offset src) Nat where
  mark o := o.pos
  rewind _ p := ⟨p⟩
  peek := peek
  step := step
  atEnd := atEnd
  remaining o := src.length.toNat - o.pos
  remaining_step := by
    intro o x next
    -- A character is shown before the end only, and it takes at least a byte.
    have inText : ¬ src.length.toNat ≤ o.pos := by
      intro ended
      rw [peek, atEnd, decide_eq_true ended] at next
      cases next
    have := x.utf8Size_pos
    show src.length.toNat - (o.pos + x.utf8Size) < _
    omega

/-- What reading at an offset relies on. -/
structure Sound (o : Offset src) : Prop where
  within : o.pos ≤ src.length.toNat
  /-- There is a byte, which is zero at the end. Before the end, the text
  has as many bytes left as this one announces. -/
  byte : ∃ lead, o.byte? = some lead ∧ (o.atEnd = true → lead = 0) ∧
    (o.atEnd = false → o.pos + (Cursor.leadWidth lead).toNat ≤ src.length.toNat)
  /-- The text has as many bytes left as the character there takes. -/
  step : ∀ x, o.peek = some x → o.pos + x.utf8Size ≤ src.length.toNat

end Offset

namespace Cursor

variable {src : Source} {c : Cursor src}

/-! ### Where a cursor stands -/

/-- Where the cursor stands. -/
def offset (c : Cursor src) : Offset src :=
  ⟨c.pos.toNat⟩

/-- There is a byte under every cursor. -/
theorem byte?_offset (c : Cursor src) : c.offset.byte? = some c.byte :=
  getElem?_pos src.bytes c.pos.toNat c.pos_lt_size

/-- An offset has come to the end if the cursor has. -/
theorem atEnd_offset (c : Cursor src) : c.offset.atEnd = c.atEnd := by
  rw [Offset.atEnd, atEnd, decide_eq_decide]
  exact UInt32.le_iff_toNat_le.symm

/-- At the end of the text the cursor sees the first zero of the padding. -/
theorem byte_of_atEnd (ended : c.atEnd = true) : c.byte = 0 := by
  have pos : c.pos.toNat = src.length.toNat := atEnd_eq_true_iff.1 ended
  have within : src.length.toNat < src.bytes.size := src.length_lt_size
  calc
    c.byte = src.bytes[src.length.toNat] := by simp only [byte, pos]
    _ = 0 := src.getElem_bytes_length within

/-- The offset shows what the cursor shows. -/
theorem peek_offset (c : Cursor src) : c.offset.peek = c.peek := by
  rw [Offset.peek, peek, atEnd_offset, byte?_offset]
  cases inText : c.atEnd with
  | true => simp only [if_true]
  | false =>
    have within := pos_add_leadWidth_le inText
    have stop : (clamped src (c.pos + leadWidth c.byte)).pos.toNat
        = c.pos.toNat + (leadWidth c.byte).toNat := toNat_pos_clamped_add within
    -- The slice up to there is not refused, since it ends within the text.
    have inside : ¬ (src.length < (clamped src (c.pos + leadWidth c.byte)).pos ∨
        (clamped src (c.pos + leadWidth c.byte)).pos < c.pos) := by
      rw [UInt32.lt_iff_toNat_lt, UInt32.lt_iff_toNat_lt, stop]
      omega
    simp only [Source.slice, if_neg inside, stop, offset, Offset.add]

/-- Wherever a cursor may stand, the offset is sound. -/
theorem sound_offset (c : Cursor src) : c.offset.Sound where
  within := UInt32.le_iff_toNat_le.1 c.pos_le
  byte := by
    refine ⟨c.byte, byte?_offset c, ?_, ?_⟩
    · rw [atEnd_offset]
      exact byte_of_atEnd
    · rw [atEnd_offset]
      exact pos_add_leadWidth_le
  step x next := add_utf8Size_le ((peek_offset c).symm.trans next)

/-! ### Where a cursor moves -/

/-- An offset within the text is not cut short. -/
theorem offset_clamped {p : UInt32} (within : p ≤ src.length) :
    (clamped src p).offset = ⟨p.toNat⟩ := by
  rw [clamped_of_le within]
  rfl

/-- A step of one byte ends where the sum of numbers does. -/
theorem stepByte_offset (c : Cursor src) : c.offset.stepByte = c.stepByte.offset := by
  rw [Offset.stepByte, stepByte, atEnd_offset]
  cases inText : c.atEnd with
  | true => rfl
  | false =>
    have within : c.pos.toNat + (1 : UInt32).toNat ≤ src.length.toNat :=
      atEnd_eq_false_iff.1 inText
    exact congrArg Offset.mk (toNat_pos_clamped_add within).symm

/-- An advance ends where the sum of numbers does. -/
theorem advance_offset (c : Cursor src) : c.offset.advance = c.advance.offset := by
  rw [Offset.advance, atEnd_offset, byte?_offset]
  cases inText : c.atEnd with
  | true =>
    rw [advance, inText]
    rfl
  -- The byte announces no more than is left, so the sum is not cut short.
  | false => exact congrArg Offset.mk (toNat_pos_advance inText).symm

/-- A step over the character that is shown ends where the sum of numbers does. -/
theorem step_offset {x : Char} (next : c.peek = some x) :
    c.offset.step x = (c.step x).offset :=
  congrArg Offset.mk (toNat_pos_step next).symm

/-- The mark is of a place in the source, and the number tells which. -/
def Mark.IsAt (src : Source) (m : Mark) (p : Nat) : Prop :=
  m.pos ≤ src.length ∧ m.pos.toNat = p

/-- To go back to a mark of a place in the source is to go to its number. -/
theorem rewind_offset (c : Cursor src) {m : Mark} {p : Nat} (place : m.IsAt src p) :
    ⟨p⟩ = (c.rewind m).offset := by
  obtain ⟨within, rfl⟩ := place
  exact (offset_clamped within).symm

/-- Nothing tells a cursor from the offset where it stands. -/
theorem offset_simulation (src : Source) :
    Simulation (fun (c : Cursor src) o => o = c.offset) (Mark.IsAt src) where
  peek := by
    rintro c _ rfl
    exact (peek_offset c).symm
  step := by
    rintro c _ x rfl next
    exact step_offset next
  atEnd := by
    rintro c _ rfl
    exact (atEnd_offset c).symm
  mark := by
    rintro c _ rfl
    exact ⟨c.pos_le, rfl⟩
  rewind := by
    rintro c _ m p rfl place
    exact rewind_offset c place
  biUnique := by
    constructor
    · -- A number of 32 bits is told by its value.
      rintro m n p ⟨_, place⟩ ⟨_, place'⟩
      exact Mark.eq_of_toNat_pos (place.trans place'.symm)
    · rintro m p q ⟨_, rfl⟩ ⟨_, rfl⟩
      rfl

/-- A way to move a cursor. A mark may have been taken of another source, as
long as it does not lie past the end of this one. -/
inductive Motion (src : Source) where
  | stepByte
  | advance
  /-- Steps over the character under the cursor, if there is one. -/
  | step
  | rewind (m : Mark) (within : m.pos ≤ src.length)
  | primitive (p : Primitive)

/-- Moves the cursor. -/
def move (c : Cursor src) : Motion src → Cursor src
  | .stepByte => c.stepByte
  | .advance => c.advance
  | .step =>
    match c.peek with
    | some x => c.step x
    | none => c
  | .rewind m _ => c.rewind m
  | .primitive p => (p.apply c).2

end Cursor

/-- Moves an offset, and keeps the places that it comes to. -/
def Trail.move {src : Source} (t : Trail (Offset src)) :
    Cursor.Motion src → Trail (Offset src)
  | .stepByte => t.goTo t.here.stepByte
  | .advance => t.goTo t.here.advance
  | .step =>
    match t.here.peek with
    | some x => t.goTo (t.here.step x)
    | none => t
  | .rewind m _ => t.goTo ⟨m.pos.toNat⟩
  | .primitive p => (p.apply t).2

namespace Cursor

variable {src : Source} {c : Cursor src}

/-- The trail is where the cursor stands, and has only been to sound
places. -/
def Tracks (c : Cursor src) (t : Trail (Offset src)) : Prop :=
  Trail.Follows (fun (c : Cursor src) o => o = c.offset) Offset.Sound c t

/-- Wherever the cursor goes, the trail comes to a sound place. -/
theorem Tracks.goTo {d : Cursor src} {t : Trail (Offset src)} {o : Offset src}
    (tracks : c.Tracks t) (there : o = d.offset) : d.Tracks (t.goTo o) :=
  Trail.Follows.goTo tracks there (there ▸ d.sound_offset)

/-- No motion leads to a place that is not sound. -/
theorem Tracks.move {t : Trail (Offset src)} (tracks : c.Tracks t) (motion : Motion src) :
    (c.move motion).Tracks (t.move motion) := by
  have here : t.here = c.offset := tracks.here
  cases motion with
  | stepByte => exact tracks.goTo (here ▸ stepByte_offset c)
  | advance => exact tracks.goTo (here ▸ advance_offset c)
  | step =>
    rw [Cursor.move, Trail.move, here, peek_offset]
    cases next : c.peek with
    | none => exact tracks
    | some x => exact tracks.goTo (step_offset next)
  | rewind m within => exact tracks.goTo (rewind_offset c ⟨within, rfl⟩)
  | primitive p =>
    -- A primitive may look at many places, and the trail has followed it to all of them.
    have simulation := Trail.follows_simulation (P := Offset.Sound) (offset_simulation src)
      fun {d o} (there : o = d.offset) => there ▸ d.sound_offset
    exact (simulation.apply p tracks).2

/-- Any number of motions lead to sound places only. -/
theorem Tracks.foldl {t : Trail (Offset src)} (tracks : c.Tracks t) (motions : List (Motion src)) :
    (motions.foldl Cursor.move c).Tracks (motions.foldl Trail.move t) := by
  induction motions generalizing c t with
  | nil => exact tracks
  | cons motion motions ih => exact ih (tracks.move motion)

/-- However a cursor is moved over the source of a text, none of its guards
is ever needed. The buffer holds the bytes of the text and then zeros, up
to the least multiple of 64 that is greater than the length of the text. An
offset that is moved in the same way comes to sound places only, those that
primitives look at included. In the end it is where the cursor is, and
shows the same there. -/
theorem places_sound (text : String) (fits : text.utf8ByteSize < UInt32.size)
    (motions : List (Motion (.ofString text))) :
    let src := Source.ofString text
    let c := motions.foldl move (start src)
    let t := motions.foldl Trail.move (.begin ⟨0⟩)
    src.length.toNat = text.utf8ByteSize ∧
    src.bytes.data.toList = text.toUTF8.data.toList
      ++ List.replicate (src.bytes.size - text.utf8ByteSize) 0 ∧
    IsLeast {n | 64 ∣ n ∧ text.utf8ByteSize < n} src.bytes.size ∧
    (∀ o ∈ t.places, o.Sound) ∧
    t.here.pos = c.pos.toNat ∧ t.here.byte? = some c.byte ∧ t.here.peek = c.peek := by
  intro src c t
  have text_eq : src.text = text := Source.text_ofString fits
  have begins : (start src).Tracks (.begin ⟨0⟩) :=
    ⟨rfl, List.forall_mem_singleton.2 (start src).sound_offset⟩
  obtain ⟨here, sound⟩ : c.Tracks t := begins.foldl motions
  refine ⟨?_, ?_, ?_, sound, congrArg Offset.pos here, ?_, ?_⟩
  · rw [src.toNat_length, text_eq]
  · rw [src.toList_bytes, text_eq]
  · rw [src.size_bytes, text_eq]
    exact isLeast_paddedSize _
  · rw [here, byte?_offset]
  · rw [here, peek_offset]

/-- A text that fills a block, and so needs another one for the zero. The
cursor is put inside its last but one character, where there is nothing to
step over, leaves it byte by byte and consumes the last one. -/
theorem places_sound_full_block :
    let text := String.ofList (List.replicate 55 'x' ++ ['é', '€', '𐍈'])
    ∃ motions : List (Motion (.ofString text)),
      let c := motions.foldl move (start (.ofString text))
      let t := motions.foldl Trail.move (.begin ⟨0⟩)
      text.utf8ByteSize < UInt32.size ∧ text.utf8ByteSize = 64 ∧
      (Source.ofString text).bytes.size = 128 ∧
      t.places.map (·.pos) = [64, 64, 60, 59, 58, 0] ∧ (∀ o ∈ t.places, o.Sound) ∧
      c.pos = 64 ∧ c.byte = 0 := by
  intro text
  have fits : text.utf8ByteSize < UInt32.size := by decide +kernel
  let motions : List (Motion (.ofString text)) :=
    [.rewind ⟨58⟩ (by decide +kernel), .step, .advance, .stepByte,
      .primitive (.consume (fun _ => true) .zeroOrMore), .advance]
  obtain ⟨_, _, _, sound, _⟩ := places_sound text fits motions
  refine ⟨motions, fits, ?_, ?_, ?_, sound, ?_, ?_⟩ <;> decide +kernel

end Cursor

end ScanExpr
