import ScanExpr.Proofs.Matcher.Session

/-!
# `ScanExpr.Proofs.Matcher.SessionText`: the text that a session reads

On a cursor whose operands only read on, what has been read since an
expression began is a piece of the text, and so the segments of a session
lay their pieces side by side.

* `Driven.expression_onward`: no segment ends before the place where it
  starts, and one with the result false ends there. The induction is on the
  steps of the segment, with the anchor of the journal at the place where
  the segment started.
* `Turn.segments_decompose`: the pieces are, one after another, the text
  between the first and the last position of the session, and each of them
  is what a new matcher would read.
-/

set_option autoImplicit false

namespace ScanExpr

variable {ρ ο : Type} {src : Source} {eval : ο → Cursor src → Verdict (Cursor src) ρ}
  {origin s c d e : Cursor src} {j : Journal (Cursor src)}
  {m : Matcher (Cursor src) Cursor.Mark} {phase : Option Phase} {rest : List Char}

namespace Turn

/-- The text that has been read since `s` when the steps are over. -/
def text (s : Cursor src) (steps : List (Taken ο (Cursor src) Cursor.Mark ρ)) : String :=
  (stop s steps).readSince s.mark

/-- The texts of segments, the first of which starts from `s`. -/
def texts (s : Cursor src) :
    List (List (Taken ο (Cursor src) Cursor.Mark ρ)) → List String
  | [] => []
  | segment :: later => text s segment :: texts (stop s segment) later

/-- A segment does not end before the place where it starts, and if it ends
with the result false, it ends there. -/
def LeadsOn (s : Cursor src) (steps : List (Taken ο (Cursor src) Cursor.Mark ρ)) : Prop :=
  s.Onward (stop s steps) ∧ (result? steps = some false → stop s steps = s)

/-- If no segment ends before the place where it starts, the texts of all of
them are the text from the first place to the last. -/
theorem join_texts {parts : List (List (Taken ο (Cursor src) Cursor.Mark ρ))}
    (along : Along LeadsOn s parts) (stands : s.Precedes rest) :
    s.Onward (stop s parts.flatten) ∧
      String.join (texts s parts) = src.slice s.pos (stop s parts.flatten).pos := by
  -- Segment by segment, each of which starts where the text in front of it ends.
  induction parts generalizing s rest with
  | nil => exact ⟨.refl stands, stands.slice_self.symm⟩
  | cons part later ih =>
    obtain ⟨⟨first, _⟩, along⟩ := along
    obtain ⟨_, _, _, there⟩ := first.self
    obtain ⟨second, joined⟩ := ih along there
    rw [List.flatten_cons, stop_append, texts, String.join_cons, joined]
    exact ⟨first.trans second, first.slice_append second⟩

end Turn

namespace Driven

variable {steps : List (Turn.Taken ο (Cursor src) Cursor.Mark ρ)} {later : List (Turn ο)}

/-- A result leaves the cursor at the anchor or behind it. -/
theorem onward_of_result (forward : Forward eval) (stands : origin.Precedes rest)
    (h : Driven eval origin m j phase) {t : Turn ο} (comes : t.ComesIn phase) {matched : Bool}
    (told : (t.run eval m).reply.result? = some matched) :
    j.anchor.Onward (t.run eval m).matcher.stream := by
  obtain ⟨_, ends⟩ := Turn.anchor_noted_of_result h.reached comes told
  have leads := h.leads stands forward
  rw [ends]
  cases matched with
  | true => exact leads.onward_anchor
  | false => exact (leads.onward_place j.anchor (by simp [Journal.places])).self

/-- The steps of an expression that was begun at `s` lead on from there.
If they end with a result, the next expression is anchored where they
leave off, and that is at `s` if the result is false. -/
theorem expression_onward (forward : Forward eval) (stands : origin.Precedes rest)
    (h : Driven eval origin m j phase) (recorded : Turn.Recorded eval m steps)
    (follow : Turn.Follow phase (steps.map Turn.Taken.turn ++ later))
    (chain : steps.IsChain fun step next => Turn.continues step next = true)
    (begun : ∀ first ∈ steps.head?, first.turn.begins = true → m.stream = s)
    (anchored : (∀ first ∈ steps.head?, first.turn.begins = false) → j.anchor = s) :
    ∃ j' phase', Driven eval origin (Turn.after m steps) j' phase' ∧ Turn.Follow phase' later ∧
      s.Onward (Turn.after m steps).stream ∧
      ∀ matched ∈ Turn.result? steps, j'.anchor = (Turn.after m steps).stream ∧
        (matched = false → (Turn.after m steps).stream = s) := by
  induction steps generalizing m j phase with
  -- Without a step, the cursor stands behind the anchor, which is where the expression began.
  | nil =>
    have here : j.anchor = s := anchored fun first h => nomatch h
    refine ⟨j, phase, h, follow, here ▸ (h.leads stands forward).onward_anchor, ?_⟩
    intro matched told
    cases told
  | cons step steps ih =>
    obtain ⟨t, outcome⟩ := step
    obtain ⟨comes, follow⟩ := follow
    obtain ⟨here, recorded⟩ := recorded
    obtain rfl : outcome = t.run eval m := here
    have next := Turn.driven h comes
    -- The expression was begun by this turn or by one before it.
    have anchor : (if t.begins then m.stream else j.anchor) = s := by
      by_cases begins : t.begins = true
      · rw [if_pos begins]
        exact begun _ rfl begins
      · rw [if_neg begins]
        exact anchored (by simpa using begins)
    cases told : (t.run eval m).reply.result? with
    | none =>
      have kept := (Turn.anchor_noted h.reached comes told).trans anchor
      have goes_on := Turn.begins_eq_false_of_chain chain
      have begun : ∀ first ∈ steps.head?, first.turn.begins = true →
          (t.run eval m).matcher.stream = s := by
        intro first starts begins
        cases begins.symm.trans (goes_on first starts)
      rw [Turn.result?_cons told]
      exact ih next recorded follow chain.tail begun fun _ => kept
    | some matched =>
      obtain rfl := Turn.eq_nil_of_result told chain
      rw [Turn.begins_eq_false_of_result told, if_neg Bool.false_ne_true] at anchor
      obtain ⟨anew, ends⟩ := Turn.anchor_noted_of_result h.reached comes told
      subst anchor
      refine ⟨_, _, next, follow, h.onward_of_result forward stands comes told, ?_⟩
      intro given same
      obtain rfl : matched = given := Option.some.inj (told.symm.trans same)
      refine ⟨anew, fun failed => ?_⟩
      rw [failed] at ends
      exact ends

/-- The segments of a session lead on, each from where the one before it
left off. -/
theorem along (forward : Forward eval) (stands : origin.Precedes rest)
    {parts : List (List (Turn.Taken ο (Cursor src) Cursor.Mark ρ))} (cut : Turn.Cut parts)
    (h : Driven eval origin m j phase) (recorded : Turn.Recorded eval m parts.flatten)
    (follow : Turn.Follow phase (parts.flatten.map Turn.Taken.turn))
    (fresh : ∀ first ∈ parts.flatten.head?, first.turn.begins = false → j.anchor = m.stream) :
    Turn.Along Turn.LeadsOn m.stream parts := by
  induction parts generalizing m j phase with
  | nil => trivial
  | cons part later ih =>
    obtain ⟨nonempty, chain, between, cut⟩ := cut
    rw [List.flatten_cons] at recorded follow fresh
    rw [List.map_append] at follow
    rw [List.head?_append_of_ne_nil _ nonempty] at fresh
    obtain ⟨here, others⟩ := recorded.append
    obtain ⟨first, starts⟩ : ∃ first, part.head? = some first :=
      ⟨_, List.head?_eq_some_head nonempty⟩
    -- An expression begins with the first step, or it has begun where this segment starts.
    have anchored : (∀ first ∈ part.head?, first.turn.begins = false) → j.anchor = m.stream :=
      fun goes_on => fresh first starts (goes_on first starts)
    obtain ⟨j', phase', next, follow, onward, last⟩ :=
      h.expression_onward forward stands here follow chain (fun _ _ _ => rfl) anchored
    rw [Turn.stream_after] at onward
    refine ⟨⟨onward, fun failed => ?_⟩, ?_⟩
    · rw [← Turn.stream_after]
      exact (last false failed).2 rfl
    · rw [← Turn.stream_after]
      apply ih cut next others follow
      -- Unless it begins an expression itself, the next segment comes after a result.
      intro following starts goes_on
      obtain ⟨matched, told⟩ := Option.isSome_iff_exists.1 (between following starts goes_on)
      exact (last matched told).1

end Driven

namespace Turn

/-- A session that starts on a cursor between two characters, whose operands
only read on from character to character, falls into its expressions
without a rest. Calls in it may be refused, groups may be left open and
typed expressions dropped:

* every segment goes step by step, with the same answers, events and
  states, as on a new matcher at the place where the segment before it
  left off;
* a segment that ends with the result false has read no text;
* the texts that the segments have read, one after another, are the text
  between the first position of the session and the last, even where an
  expression was abandoned. -/
theorem segments_decompose (forward : Forward eval) (stands : c.Precedes rest)
    (turns : List (Turn ο)) (follow : Follow none turns) :
    let steps := transcript eval (.start c) turns
    (segments steps).flatten = steps ∧
    (∀ earlier segment later, segments steps = earlier ++ segment :: later →
      let start := stop c earlier.flatten
      segment = transcript eval (.start start) (segment.map Taken.turn) ∧
      (result? segment = some false → text start segment = "")) ∧
    String.join (texts c (segments steps)) = src.slice c.pos (stop c steps).pos := by
  intro steps
  have whole : (segments steps).flatten = steps := List.flatten_splitBy continues steps
  have cut := cut_segments steps
  have recorded : Recorded eval (.start c) (segments steps).flatten := by
    rw [whole]
    exact recorded_transcript (.start c) turns
  have follow : Follow none ((segments steps).flatten.map Taken.turn) := by
    rw [whole, map_turn_transcript]
    exact follow
  have renewed : Along (fun s part => Recorded eval (.start s) part) c (segments steps) :=
    Recorded.along cut recorded fun _ _ _ => rfl
  have leads : Along LeadsOn c (segments steps) :=
    Driven.along forward stands cut .new recorded follow fun _ _ _ => rfl
  obtain ⟨_, joined⟩ := join_texts leads stands
  rw [whole] at joined
  refine ⟨whole, ?_, joined⟩
  intro earlier segment later split start
  obtain ⟨onward, back⟩ := leads.of_eq split
  refine ⟨(renewed.of_eq split).eq_transcript, fun failed => ?_⟩
  have stays : stop start segment = start := back failed
  obtain ⟨_, _, _, ends⟩ := onward
  rw [text, stays]
  exact (stays ▸ ends).slice_self

/-- A session of four expressions. The first is abandoned with a group left
open, after two calls that were refused. The second does not match. The
third is dropped inside a group, and the fourth matches. -/
def restless : List (Turn Bool) :=
  [.call .result, .call (.attempt true), .call .enterGroup, .call (.attempt false), .call .result,
    .call .restart, .call (.attempt true), .call (.connect .and), .call (.attempt false),
    .call .result,
    .expression, .link (.enterGroup : Link Bool (.operand 0 true) (.operand 1 true)),
    .link (.attempt true : Link Bool (.operand 1 true) (.operator 1)),
    .expression, .link (.attempt false : Link Bool (.operand 0 true) (.operator 0)),
    .link (.connect .or : Link Bool (.operator 0) (.operand 0 false)),
    .link (.attempt true : Link Bool (.operand 0 false) (.operator 0)),
    .link (.result : Link Bool (.operator 0) .concluded)]

/-- The second expression reads the `b` and the `c` and gives them back,
and the other three read all that there is behind the `x`. -/
theorem segments_decompose_restless :
    ∃ (src : Source) (c : Cursor src), src.text = String.ofList ['x', 'a', 'é', 'b', 'c', 'd'] ∧
      Forward (Cursor.stepOver : Bool → Cursor src → Verdict (Cursor src) Unit) ∧
      c.Precedes ['a', 'é', 'b', 'c', 'd'] ∧ Follow none restless ∧
      texts c (segments (transcript Cursor.stepOver (.start c) restless)) = ["aé", "", "b", "cd"] ∧
      (segments (transcript Cursor.stepOver (.start c) restless)).map result?
        = [none, some false, none, some true] ∧
      (segments (transcript Cursor.stepOver (.start c) restless)).flatten
        = transcript Cursor.stepOver (.start c) restless ∧
      String.join ["aé", "", "b", "cd"]
        = src.slice c.pos (stop c (transcript Cursor.stepOver (.start c) restless)).pos := by
  let src : Source := { text := String.ofList ['x', 'a', 'é', 'b', 'c', 'd'], fits := by decide }
  let c : Cursor src := ⟨1, by decide⟩
  have stands : c.Precedes ['a', 'é', 'b', 'c', 'd'] := ⟨['x'], String.toList_ofList, rfl⟩
  have follow : Follow none restless := by simp [restless, Follow, ComesIn, phaseAfter]
  -- The texts are computed, and the theorem says that they are all of the text.
  have read : texts c (segments (transcript Cursor.stepOver (.start c) restless))
      = ["aé", "", "b", "cd"] := by decide +kernel
  obtain ⟨whole, _, joined⟩ := segments_decompose Cursor.forward_stepOver stands restless follow
  rw [read] at joined
  refine ⟨src, c, rfl, Cursor.forward_stepOver, stands, follow, read, ?_, whole, joined⟩
  decide +kernel

end Turn

end ScanExpr
