import ScanExpr.Proofs.Matcher.Independence

/-!
# `ScanExpr.Proofs.Matcher.Unread`: only what is left to read matters

Behind a cursor lies the text that has been read, and after the text the
padding of the buffer. Neither can be noticed. `c.Shifted n d` says that
the cursors `c` and `d`, of two sources, have the same characters left to
read, and that `c` has `n` more bytes behind it.

* `Cursor.shifted_simulation`: shifted cursors cannot be told apart, as
  long as positions are compared and not looked at.
* `Procedure.alike_run_unread`: whatever program uses a matcher behind the
  first part of a text, it sees what it sees over the rest of the text
  alone, with every position and every entry of a level shifted by the
  length of that part. The text has to fit into its source
  (`Procedure.alike_run_unread_overlong`).
-/

set_option autoImplicit false

namespace ScanExpr

/-! ### Shifted cursors -/

namespace Cursor

variable {src src' : Source} {n : Nat}

/-- The same is left to read after both cursors, and the first has `n` more
bytes behind it. -/
structure Shifted (n : Nat) (c : Cursor src) (d : Cursor src') : Prop where
  pos : c.pos.toNat = n + d.pos.toNat
  unread : ∃ rest, c.Precedes rest ∧ d.Precedes rest

/-- Marks of shifted cursors. -/
def Mark.Shifted (src src' : Source) (n : Nat) (m k : Mark) : Prop :=
  ∃ (c : Cursor src) (d : Cursor src'), c.Shifted n d ∧ c.mark = m ∧ d.mark = k

/-- Marks of shifted cursors are as far apart as the cursors. -/
theorem Mark.Shifted.pos {m k : Mark} (shifted : m.Shifted src src' n k) :
    m.pos.toNat = n + k.pos.toNat := by
  obtain ⟨c, d, shifted, rfl, rfl⟩ := shifted
  exact shifted.pos

namespace Shifted

variable {c : Cursor src} {d : Cursor src'}

/-- Shifted cursors show the same character. -/
theorem peek_eq (shifted : c.Shifted n d) : c.peek = d.peek := by
  obtain ⟨rest, hc, hd⟩ := shifted.unread
  exact (reads_precedes.peek hc).trans (reads_precedes.peek hd).symm

/-- Shifted cursors are both at the end or neither is. -/
theorem atEnd_eq (shifted : c.Shifted n d) : c.atEnd = d.atEnd := by
  obtain ⟨rest, hc, hd⟩ := shifted.unread
  rw [hc.atEnd_eq, hd.atEnd_eq]

/-- Both cursors step over the same character, by as many bytes. -/
theorem step {x : Char} (shifted : c.Shifted n d) (next : c.peek = some x) :
    (c.step x).Shifted n (d.step x) where
  pos := by
    have next' : d.peek = some x := shifted.peek_eq ▸ next
    have here := shifted.pos
    rw [toNat_pos_step next, toNat_pos_step next']
    omega
  unread := by
    obtain ⟨rest, hc, hd⟩ := shifted.unread
    cases rest with
    | nil => cases hc.peek_nil.symm.trans next
    | cons y rest =>
      obtain rfl : y = x := Option.some.inj (hc.peek_cons.symm.trans next)
      exact ⟨rest, hc.step, hd.step⟩

end Shifted

/-- Nothing tells shifted cursors apart. -/
theorem shifted_simulation (src src' : Source) (n : Nat) :
    Simulation (Shifted n : Cursor src → Cursor src' → Prop) (Mark.Shifted src src' n) where
  peek := Shifted.peek_eq
  step := Shifted.step
  atEnd := Shifted.atEnd_eq
  mark shifted := ⟨_, _, shifted, rfl, rfl⟩
  rewind := by
    -- A mark leads back to the cursor that it was taken of, wherever the cursor is now.
    rintro s t _ _ _ ⟨c, d, shifted, rfl, rfl⟩
    show Shifted n (ScanExpr.rewind s (ScanExpr.mark c)) (ScanExpr.rewind t (ScanExpr.mark d))
    rw [LawfulRewindable.rewind_mark, LawfulRewindable.rewind_mark]
    exact shifted
  biUnique := by
    constructor
    · intro m m' k place place'
      exact Mark.eq_of_toNat_pos (place.pos.trans place'.pos.symm)
    · intro m k k' place place'
      exact Mark.eq_of_toNat_pos (Nat.add_left_cancel (place.pos.symm.trans place'.pos))

/-- The place where the text of another source begins is where that source
begins. -/
theorem shifted_start {before : String} (text : src.text = before ++ src'.text) {c : Cursor src}
    (here : c.pos.toNat = before.utf8ByteSize) : c.Shifted before.utf8ByteSize (start src') where
  pos := here
  unread := by
    -- What is left after the first cursor is the whole of the other text.
    refine ⟨src'.text.toList, ⟨before.toList, ?_, ?_⟩, [], rfl, rfl⟩
    · rw [text, String.toList_append]
    · rw [here, byteLength_toList]

end Cursor

/-! ### A text and its last part -/

/-- Only the unread text matters. A program that uses a matcher behind the
first part `u` of a text sees at every step what it sees over the rest `v` of
the text alone: the same answers and refusals, depths, flags and events, and
the same left to read, with positions, marks and entries of levels that are
larger by the length of `u`. The two together are not too long for the
offsets of a source. -/
theorem Procedure.alike_run_unread {ρ : Type} {u v : String}
    (fits : (u ++ v).utf8ByteSize < UInt32.size) (p : Procedure ρ)
    (c : Cursor (.ofString (u ++ v))) (here : c.pos.toNat = u.utf8ByteSize) :
    Ran.Alike (Cursor.Shifted u.utf8ByteSize)
      (Cursor.Mark.Shifted (.ofString (u ++ v)) (.ofString v) u.utf8ByteSize)
      (p.run [] (.start c)) (p.run [] (.start (Cursor.start (.ofString v)))) := by
  -- What the whole fits into has room for a part of it.
  have rest_fits : v.utf8ByteSize < UInt32.size := by
    rw [String.utf8ByteSize_append] at fits
    omega
  have begins : c.Shifted u.utf8ByteSize (.start (.ofString v)) := by
    apply Cursor.shifted_start _ here
    rw [Source.text_ofString fits, Source.text_ofString rest_fits]
  have simulation := Cursor.shifted_simulation (.ofString (u ++ v)) (.ofString v) u.utf8ByteSize
  exact Procedure.alike_run simulation (.start simulation begins) .nil p

/-- The positions of cursors whose sights are those of shifted cursors. -/
theorem Sight.positions_eq_add {ρ : Type} {src src' : Source} {n : Nat}
    {xs : List (Sight (Cursor src) Cursor.Mark ρ)} {ys : List (Sight (Cursor src') Cursor.Mark ρ)}
    {sameMark : Cursor.Mark → Cursor.Mark → Prop}
    (alike : List.Forall₂ (Sight.Alike (Cursor.Shifted n) sameMark) xs ys) :
    xs.map (·.matcher.stream.pos.toNat) = ys.map fun y => n + y.matcher.stream.pos.toNat := by
  rw [← List.forall₂_eq_eq_eq, List.forall₂_map_left_iff, List.forall₂_map_right_iff]
  exact alike.imp fun x y here => here.matcher.stream.pos

/-- The tour of a text that begins with a zero, behind a text that fills
all but one byte of a block. The tour reads up to the end, and the buffer
of both texts is twice as long as that of the one that is read. -/
theorem Procedure.alike_run_unread_tour :
    let u := String.ofList ('é' :: List.replicate 61 'x')
    let v := String.ofList ['\x00', '€', '𐍈']
    ∃ c : Cursor (.ofString (u ++ v)), (u ++ v).utf8ByteSize < UInt32.size ∧
      c.pos.toNat = u.utf8ByteSize ∧ u.utf8ByteSize = 63 ∧
      (tour.run [] (.start c)).sights.map (·.matcher.stream.pos.toNat)
        = [0, 1, 1, 1, 4, 4, 4, 8, 8, 8, 8, 8, 0, 0, 1, 4, 8, 8].map (63 + ·) := by
  intro u v
  let c : Cursor (.ofString (u ++ v)) := .clamped _ 63
  have fits : (u ++ v).utf8ByteSize < UInt32.size := by decide +kernel
  have here : c.pos.toNat = u.utf8ByteSize := by decide +kernel
  have run := alike_run_unread fits tour c here
  refine ⟨c, fits, here, by decide +kernel, ?_⟩
  rw [Sight.positions_eq_add run.sights]
  decide +kernel

/-- Behind a first part that leaves no room for another byte the rest of a
text is not held, so there is nothing to read where the rest alone shows its
character. -/
theorem Procedure.alike_run_unread_overlong :
    ∃ c : Cursor (.ofString (Source.fullText ++ "a")),
      c.pos.toNat = Source.fullText.utf8ByteSize ∧
      (look.run [] (.start c)).sights.map (·.response) = [.character none] ∧
      (look.run [] (.start (Cursor.start (.ofString "a")))).sights.map (·.response)
        = [.character (some 'a')] ∧
      ¬ Ran.Alike (Cursor.Shifted Source.fullText.utf8ByteSize)
        (Cursor.Mark.Shifted (.ofString (Source.fullText ++ "a")) (.ofString "a")
          Source.fullText.utf8ByteSize)
        (look.run [] (.start c)) (look.run [] (.start (Cursor.start (.ofString "a")))) := by
  have full := Source.utf8ByteSize_fullText
  -- Nothing else is used of the long text than its length.
  generalize Source.fullText = u at full ⊢
  obtain ⟨c, here, ended⟩ := Cursor.exists_ended full "a"
  have next : CharStream.peek (Cursor.start (.ofString "a")) = some 'a' := by decide +kernel
  exact ⟨c, here, run_look_of_ended ended next⟩

end ScanExpr
