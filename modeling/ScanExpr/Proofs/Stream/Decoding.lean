import ScanExpr.Proofs.Stream.Interior
import ScanExpr.Proofs.Text.Source

/-!
# `ScanExpr.Proofs.Stream.Decoding`: reading a text back from its bytes

A cursor that peeks and advances, again and again, decodes the buffer on
its way. What it peeks at is decoded from the bytes there, and how far it
advances is told by the first of them; `step` moves by the width of the
character itself.

* `Cursor.readAll`: the loop, with the places that it comes to.
* `Cursor.Precedes.readAll`: from a place between two characters the loop
  reads those that come after it.
* `Cursor.readAll_start`: from the start it gives back the text, and on its
  way to advance is to step. The text has to fit into its source; of a
  longer one (`Cursor.readAll_start_overlong`) it gives back what is held.
-/

set_option autoImplicit false

namespace ScanExpr.Cursor

variable {src : Source} {c : Cursor src} {x : Char} {rest : List Char}

/-- Where there is a character the cursor is not at the end. -/
theorem atEnd_eq_false_of_peek (next : c.peek = some x) : c.atEnd = false := by
  cases ended : c.atEnd with
  | false => rfl
  | true =>
    rw [peek, ended] at next
    cases next

/-- Where there is a character, the cursor can advance. -/
theorem pos_lt_pos_advance (next : c.peek = some x) :
    c.pos.toNat < src.length.toNat ∧ c.pos.toNat < c.advance.pos.toNat := by
  have inText := atEnd_eq_false_of_peek next
  have width := toNat_leadWidth_pos c.byte
  rw [toNat_pos_advance inText]
  exact ⟨atEnd_eq_false_iff.1 inText, Nat.lt_add_of_pos_right width⟩

/-- What a cursor has read on its way. -/
structure Reading (src : Source) where
  /-- The places where there was a character to peek at, each with the
  character, in the order in which the cursor came to them. -/
  visits : List (Cursor src × Char)
  /-- Where the cursor stopped. -/
  stop : Cursor src

/-- Peeks and advances until there is nothing to peek at. -/
def readAll (c : Cursor src) : Reading src :=
  match _next : c.peek with
  | some x =>
    let later := c.advance.readAll
    ⟨(c, x) :: later.visits, later.stop⟩
  | none => ⟨[], c⟩
termination_by src.length.toNat - c.pos.toNat
decreasing_by
  have := pos_lt_pos_advance _next
  omega

/-- With nothing to peek at the loop stops at once. -/
theorem readAll_of_peek_none (next : c.peek = none) : c.readAll = ⟨[], c⟩ := by
  rw [readAll]
  split
  · rename_i shown
    cases next.symm.trans shown
  · rfl

/-- Else it notes the place and goes on behind the character. -/
theorem readAll_of_peek_some (next : c.peek = some x) :
    c.readAll = ⟨(c, x) :: c.advance.readAll.visits, c.advance.readAll.stop⟩ := by
  rw [readAll]
  split
  · rename_i shown
    rw [Option.some.inj (next.symm.trans shown)]
  · rename_i shown
    cases next.symm.trans shown

/-- Between two characters, to advance is to step over the next one. -/
theorem Precedes.advance_eq_step (stands : c.Precedes (x :: rest)) : c.advance = c.step x := by
  have inText : c.atEnd = false := stands.atEnd_eq
  -- The first byte announces as many bytes as the character takes.
  apply eq_of_toNat_pos
  rw [toNat_pos_advance inText, stands.toNat_leadWidth_byte, toNat_pos_step stands.peek_cons]

/-- The cursor reads the characters that come after it, each at the place
where it and the others come after the cursor, and stops at the end. -/
theorem Precedes.readAll (stands : c.Precedes rest) :
    c.readAll.visits.map Prod.snd = rest ∧ c.readAll.stop.Precedes [] ∧
      ∀ (k : Nat) (d : Cursor src) (x : Char), c.readAll.visits[k]? = some (d, x) →
        ∃ after, rest.drop k = x :: after ∧ d.Precedes (x :: after) := by
  -- Along the characters left: after a round the cursor is between two of them again.
  induction rest generalizing c with
  | nil =>
    rw [readAll_of_peek_none stands.peek_nil]
    exact ⟨rfl, stands, fun k d x visited => nomatch visited⟩
  | cons y rest ih =>
    rw [readAll_of_peek_some stands.peek_cons, stands.advance_eq_step]
    obtain ⟨chars, stop, places⟩ := ih stands.step
    refine ⟨congrArg (y :: ·) chars, stop, fun k d x visited => ?_⟩
    cases k with
    | zero =>
      cases visited
      exact ⟨rest, rfl, stands⟩
    | succ k =>
      -- A later visit is one of the reading that begins behind the first character.
      exact places k d x visited

/-- From its start the cursor reads the text that a source holds, in as many
steps as there are characters, and stops at the end. The place of its step
`k` is behind the first `k` characters, and to advance from there is to step
over the character that is shown. -/
theorem readAll_held (src : Source) :
    (start src).readAll.visits.map Prod.snd = src.text.toList ∧
    (start src).readAll.visits.length = src.text.toList.length ∧
    (start src).readAll.stop.atEnd = true ∧ (start src).readAll.stop.peek = none ∧
    ∀ (k : Nat) (d : Cursor src) (x : Char), (start src).readAll.visits[k]? = some (d, x) →
      d.pos.toNat = byteLength (src.text.toList.take k) ∧ d.peek = some x ∧
        d.advance = d.step x := by
  have begins : (start src).Precedes src.text.toList := ⟨[], rfl, rfl⟩
  obtain ⟨chars, stop, places⟩ := begins.readAll
  refine ⟨chars, ?_, stop.atEnd_eq, stop.peek_nil, ?_⟩
  · rw [← chars, List.length_map]
  · intro k d x visited
    obtain ⟨after, left, stands⟩ := places k d x visited
    -- The reading began at offset zero, so the bytes passed are the position.
    have pos : d.pos.toNat = 0 + byteLength (src.text.toList.take k) :=
      begins.pos_of_drop (left ▸ stands)
    exact ⟨pos.trans (Nat.zero_add _), stands.peek_cons, stands.advance_eq_step⟩

/-- From the start of a text that is not too long for the offsets of its
source the cursor reads the whole of it, in as many steps as there are
characters, and stops at the end. The place of its step `k` is behind the
first `k` characters, and to advance from there is to step over the
character that is shown. -/
theorem readAll_start {text : String} (fits : text.utf8ByteSize < UInt32.size) :
    let reading := (start (.ofString text)).readAll
    reading.visits.map Prod.snd = text.toList ∧
    reading.visits.length = text.toList.length ∧
    reading.stop.atEnd = true ∧ reading.stop.peek = none ∧
    ∀ (k : Nat) (d : Cursor (.ofString text)) (x : Char), reading.visits[k]? = some (d, x) →
      d.pos.toNat = byteLength (text.toList.take k) ∧ d.peek = some x ∧
        d.advance = d.step x := by
  have held := readAll_held (.ofString text)
  rw [Source.text_ofString fits] at held
  exact held

/-- A text with a zero inside, and with characters of each width. -/
theorem readAll_start_mixed :
    let text := String.ofList ['a', '\x00', 'λ', '€', '𐍈', 'b']
    let reading := (start (.ofString text)).readAll
    text.utf8ByteSize < UInt32.size ∧
    reading.visits.map Prod.snd = ['a', '\x00', 'λ', '€', '𐍈', 'b'] ∧ reading.stop.pos = 12 ∧
    ∃ d, reading.visits[4]? = some (d, '𐍈') ∧ d.pos.toNat = 7 ∧ d.advance = d.step '𐍈' := by
  intro text reading
  have fits : text.utf8ByteSize < UInt32.size := by decide +kernel
  obtain ⟨chars, _, _, _, places⟩ := readAll_start fits
  have letters : text.toList = ['a', '\x00', 'λ', '€', '𐍈', 'b'] := String.toList_ofList
  have visited : reading.visits[4]? = some (⟨7, by decide +kernel⟩, '𐍈') := by decide +kernel
  obtain ⟨pos, _, advance⟩ := places 4 _ _ visited
  rw [letters] at pos
  exact ⟨fits, chars.trans letters, by decide +kernel, _, visited, pos, advance⟩

/-- A text with one character too many is not given back: its last
character is not held, so the cursor stops in front of it. -/
theorem readAll_start_overlong :
    (start (.ofString (Source.fullText ++ "a"))).readAll.visits.map Prod.snd
        = Source.fullText.toList ∧
      (start (.ofString (Source.fullText ++ "a"))).readAll.visits.map Prod.snd
        ≠ (Source.fullText ++ "a").toList := by
  have chars := (readAll_held (.ofString (Source.fullText ++ "a"))).1
  rw [Source.text_ofString_append Source.utf8ByteSize_fullText] at chars
  refine ⟨chars, fun whole => ?_⟩
  rw [chars, String.toList_append, List.self_eq_append_right] at whole
  cases whole

end ScanExpr.Cursor
