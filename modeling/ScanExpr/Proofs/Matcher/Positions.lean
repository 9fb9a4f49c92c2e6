import ScanExpr.Proofs.Matcher.Levels
import ScanExpr.Proofs.Phrase.Kept

/-!
# `ScanExpr.Proofs.Matcher.Positions`: where the levels began

Each level of a matcher keeps the position at which it was opened, to go
back there if it fails. The levels around it were opened earlier. Earlier
does not mean further to the front: an operand may go anywhere in the
stream, and so may whoever owns it. But if the operands only read on and
nobody else moves the cursor, the positions are in order, and going back
from a level never leads behind the level around it.

`Driven` leaves moves from outside out of `Reached`. What follows from that
for all streams is `Driven.idles`: a level in which everything is skipped
was opened where the stream still is. On a cursor, `Cursor.Onward` says
that one place comes after another in the text, both between characters,
and `Journal.Leads` that the places at which the levels began do, from the
origin inwards up to the cursor. Their step lemmas are
`Matcher.Idles.perform` and `Journal.Leads.perform`.

`Driven.entries_ordered` is the main result. It rests on the levels being
consistent (`Reached.consistent`), since only then nothing moves while a
level is skipped.
-/

set_option autoImplicit false

namespace ScanExpr

/-! ### Operands that move forward -/

variable {σ μ ρ ο : Type}

/-- An operand that only reads on leads on from a place that was reached by
reading on. -/
theorem Forward.onward {src : Source} {eval : ο → Cursor src → Verdict (Cursor src) ρ}
    (forward : Forward eval) (op : ο) {c d : Cursor src} (h : c.Onward d) :
    d.Onward (eval op d).stream := by
  obtain ⟨_, rest, _, stands⟩ := h
  obtain ⟨passed, left, rfl, ends⟩ := forward op d rest stands
  exact ⟨passed, left, stands, ends⟩

/-! ### States without moves from outside -/

section

variable [Rewindable σ μ]

/-- The states that a matcher on the stream `origin` gets into by calls and
typed expressions, when nobody but the operands moves its stream. -/
inductive Driven (eval : ο → σ → Verdict σ ρ) (origin : σ) :
    Matcher σ μ → Journal σ → Option Phase → Prop where
  | new : Driven eval origin (.start origin) ⟨origin, []⟩ none
  /-- A call, accepted or refused. -/
  | call {m : Matcher σ μ} {j : Journal σ} {phase : Option Phase} (call : Call ο) :
    Driven eval origin m j phase →
    Driven eval origin (call.run eval m).matcher (j.noteCall m call (call.run eval m)) none
  /-- The start of a typed expression. -/
  | expression {m : Matcher σ μ} {j : Journal σ} {phase : Option Phase} :
    Driven eval origin m j phase →
    Driven eval origin m.restart ⟨m.stream, []⟩ (some (.operand 0 true))
  | link {m : Matcher σ μ} {j : Journal σ} {p q : Phase} (l : Link ο p q) :
    Driven eval origin m j (some p) →
    Driven eval origin (l.perform eval m).matcher (j.noteLink m l (l.perform eval m)) (some q)

variable {eval : ο → σ → Verdict σ ρ} {origin : σ} {m : Matcher σ μ} {j : Journal σ}
  {phase : Option Phase}

/-- Without moves from outside, too, a state is one that the use of a matcher
leads to. -/
theorem Driven.reached (h : Driven eval origin m j phase) : Reached eval m j phase := by
  induction h with
  | new => exact .new origin
  | call call _ ih => exact ih.call call
  | expression _ ih => exact ih.expression
  | link l _ ih => exact ih.link l

/-- What is true at the origin and stays true when a call is made that makes
sense, is true in every state. -/
theorem Driven.invariant {P : Matcher σ μ → Journal σ → Prop}
    (start : P (.start origin) ⟨origin, []⟩)
    (made : ∀ (m : Matcher σ μ) (j : Journal σ) (call : Call ο), m.Consistent → j.Tells m →
      P m j → call.refusal? m = none →
      P (call.perform eval m).matcher (j.note m.stream (call.perform eval m).matcher.stream call))
    (h : Driven eval origin m j phase) : P m j := by
  have stepped : ∀ {m m' : Matcher σ μ} {j j' : Journal σ} {phase : Option Phase},
      Driven eval origin m j phase → P m j → Journal.Step eval m j m' j' → P m' j' := by
    intro m m' j j' phase before holds step
    cases step with
    | idle => exact holds
    | made call sensible =>
      exact made m j call before.reached.consistent before.reached.tells holds sensible
  induction h with
  | new => exact start
  | call call before ih => exact stepped before ih (.run call)
  | expression before ih => exact stepped before ih .expression
  | link l before ih => exact stepped before ih (.link (before.reached.fits _ rfl) l)

/-! ### Levels that are skipped -/

namespace Matcher

/-- Every level that skips all of its operands was opened where the stream
stands now. -/
def Idles (m : Matcher σ μ) : Prop :=
  ∀ l ∈ m.levels, l.skipsAll = true → l.entry = mark m.stream

/-- A group is left where the stream stands, or where the group began. -/
theorem stream_leaveGroup (m : Matcher σ μ) (q : Quantifier) :
    (m.leaveGroup q).stream
      = if m.current.result then m.stream else rewind m.stream m.current.entry := by
  obtain ⟨stream, ⟨levels⟩, current, attempted⟩ := m
  cases levels <;> rfl

namespace Idles

/-- Where operands are run, no level skips everything. -/
theorem of_runs (nest : Level.Nest m.levels) (runs : m.current.skipsAll = false) : m.Idles := by
  intro l level all
  cases all.symm.trans (nest.skipsAll_eq_false runs l level)

/-- Folding in an outcome moves neither the stream nor the entry of a level. -/
theorem fold (idles : m.Idles) (outcome : Bool) : (m.fold outcome).Idles := by
  have ⟨current, others⟩ := List.forall_mem_cons.1 idles
  exact List.forall_mem_cons.2 ⟨current, others⟩

/-- An operand is not run in a level that skips everything, and so it cannot
move the stream there. -/
theorem attempt (idles : m.Idles) (consistent : m.Consistent) (operand : σ → Verdict σ ρ) :
    (m.attempt operand).1.Idles := by
  cases all : m.current.skipsAll with
  | true =>
    have next := consistent.nest.head.coherent.skipsNext_of_skipsAll all
    rw [Matcher.attempt, if_pos next]
    exact idles.fold false
  | false =>
    have runs : (m.attempt operand).1.current.skipsAll = false := by
      rw [Matcher.attempt]
      split <;> exact all
    -- A level in which operands are run has no level around it that skips everything.
    exact of_runs (consistent.attempt operand).nest runs

/-- A connective moves nothing, so the levels that are skipped stay where they
are. -/
theorem connect (idles : m.Idles) (c : Connective) : (m.connect c).Idles := by
  have ⟨current, others⟩ := List.forall_mem_cons.1 idles
  exact List.forall_mem_cons.2 ⟨current, others⟩

/-- A group is opened where the stream stands, which is right if it is skipped. -/
theorem enterGroup (idles : m.Idles) : m.enterGroup.Idles :=
  List.forall_mem_cons.2 ⟨fun _ => rfl, idles⟩

/-- A group that is skipped is closed where it was opened, and going back
there leads nowhere else. -/
theorem leaveGroup [LawfulRewindable σ] (idles : m.Idles) (consistent : m.Consistent)
    (some_open : 0 < m.depth) (q : Quantifier) : (m.leaveGroup q).Idles := by
  have closed := (consistent.leaveGroup some_open q).nest
  obtain ⟨stream, ⟨levels⟩, current, attempted⟩ := m
  cases levels with
  | nil => cases some_open
  | cons parent rest =>
    cases all : current.skipsAll with
    | true =>
      have failed : current.result = false := consistent.nest.head.failed all
      have entry : current.entry = mark stream := idles current List.mem_cons_self all
      -- The result is false, so the stream goes back to the entry, where it stands.
      have stays : (if current.result then stream else rewind stream current.entry) = stream := by
        rw [failed, entry]
        exact LawfulRewindable.rewind_mark stream stream
      have resumed : Idles ⟨stream, ⟨rest⟩, parent, attempted⟩ := (List.forall_mem_cons.1 idles).2
      rw [← stays] at resumed
      exact resumed.fold (q.outcome current.result)
    | false =>
      have runs : parent.skipsAll = false :=
        consistent.nest.skipsAll_eq_false all parent (List.mem_cons_of_mem _ List.mem_cons_self)
      exact of_runs closed runs

/-- The step lemma: a call that makes sense moves the stream only if no level
is skipped. -/
theorem perform [LawfulRewindable σ] (idles : m.Idles) (consistent : m.Consistent)
    (eval : ο → σ → Verdict σ ρ) {call : Call ο} (sensible : call.refusal? m = none) :
    (call.perform eval m).matcher.Idles := by
  cases call with
  | attempt op => exact idles.attempt consistent (eval op)
  | connect c => exact idles.connect c
  | enterGroup => exact idles.enterGroup
  | connectEnter c => exact (idles.connect c).enterGroup
  | leaveGroup q =>
    exact idles.leaveGroup consistent (Call.refusal?_leaveGroup_eq_none_iff.1 sensible) q
  | result | restart => exact of_runs (Consistent.start _).nest rfl

end Idles

end Matcher

/-- As long as nobody moves the stream from outside, all levels that are
skipped were opened where it stands. -/
theorem Driven.idles [LawfulRewindable σ] (h : Driven eval origin m j phase) : m.Idles :=
  h.invariant (P := fun m _ => m.Idles) (.of_runs (Matcher.Consistent.start origin).nest rfl)
    (fun _ _ _ consistent _ idles sensible => idles.perform consistent eval sensible)

end

/-! ### Levels and places -/

section

variable {src : Source} {eval : ο → Cursor src → Verdict (Cursor src) ρ} {origin c d : Cursor src}
  {j : Journal (Cursor src)} {m : Matcher (Cursor src) Cursor.Mark} {phase : Option Phase}

/-- Reading on from the origin one gets to the places in the journal, from
the anchor inwards, and then to the cursor. -/
def Journal.Leads (origin : Cursor src) (j : Journal (Cursor src)) (c : Cursor src) : Prop :=
  (c :: (j.places ++ [origin])).Pairwise fun later earlier => earlier.Onward later

namespace Journal.Leads

/-- Reading on from the origin one gets to the cursor. -/
theorem onward (leads : j.Leads origin c) : origin.Onward c :=
  (List.pairwise_cons.1 leads).1 origin (List.mem_append_right _ (List.mem_singleton_self _))

/-- Reading on from the origin one gets to every place in the journal. -/
theorem onward_place (leads : j.Leads origin c) : ∀ place ∈ j.places, origin.Onward place := by
  have ⟨_, _, across⟩ := List.pairwise_append.1 (List.pairwise_cons.1 leads).2
  exact fun place h => across place h origin (List.mem_singleton_self _)

/-- Reading on from the anchor one gets to the cursor. -/
theorem onward_anchor (leads : j.Leads origin c) : j.anchor.Onward c := by
  have listed : j.anchor ∈ j.places ++ [origin] := by simp [places]
  exact (List.pairwise_cons.1 leads).1 j.anchor listed

/-- The places in the journal lead to any place that the cursor reads on to. -/
theorem move (leads : j.Leads origin c) (h : c.Onward d) : j.Leads origin d := by
  have ⟨before, others⟩ := List.pairwise_cons.1 leads
  exact List.pairwise_cons.2 ⟨fun place earlier => (before place earlier).trans h, others⟩

/-- Where an expression begins, it leads to itself. -/
theorem anchored (h : origin.Onward c) : Leads origin ⟨c, []⟩ c := by
  have start : [c, origin].Pairwise fun later earlier => earlier.Onward later :=
    List.pairwise_pair.2 h
  refine List.pairwise_cons.2 ⟨List.forall_mem_cons.2 ⟨h.self, ?_⟩, start⟩
  exact List.forall_mem_singleton.2 h

/-- The place where the cursor stands may be added as the place of a new group. -/
theorem enter (leads : j.Leads origin c) : Leads origin ⟨j.anchor, c :: j.begun⟩ c := by
  have ⟨before, _⟩ := List.pairwise_cons.1 leads
  exact List.pairwise_cons.2 ⟨List.forall_mem_cons.2 ⟨leads.onward.self, before⟩, leads⟩

/-- What is left when a group is closed leads to the cursor and to the place
where the group began. -/
theorem leave {place : Cursor src} {others : List (Cursor src)} (leads : j.Leads origin c)
    (begun : j.begun = place :: others) :
    Leads origin ⟨j.anchor, others⟩ c ∧ Leads origin ⟨j.anchor, others⟩ place := by
  rw [Leads, places, begun] at leads
  obtain ⟨before, rest⟩ := List.pairwise_cons.1 leads
  obtain ⟨_, others⟩ := List.pairwise_cons.1 rest
  exact ⟨List.pairwise_cons.2 ⟨(List.forall_mem_cons.1 before).2, others⟩, rest⟩

/-- What is read on leads on from the places in the journal, and what goes
back goes back to one of them. -/
theorem perform (leads : j.Leads origin m.stream) (forward : Forward eval) (tells : j.Tells m)
    {call : Call ο} (sensible : call.refusal? m = none) :
    (j.note m.stream (call.perform eval m).matcher.stream call).Leads origin
      (call.perform eval m).matcher.stream := by
  cases call with
  | attempt op =>
    show j.Leads origin (m.attempt (eval op)).1.stream
    rw [Matcher.attempt]
    split
    · exact leads
    · exact leads.move (forward.onward op leads.onward)
  | connect c => exact leads
  | enterGroup | connectEnter c => exact leads.enter
  | leaveGroup q =>
    have some_open := Call.refusal?_leaveGroup_eq_none_iff.1 sensible
    obtain ⟨place, others, begun⟩ := List.exists_cons_of_ne_nil (tells.begun_ne_nil some_open)
    have places : j.places = place :: (others ++ [j.anchor]) := by
      rw [Journal.places, begun, List.cons_append]
    -- The cursor stays or goes back to the start of the group; both are behind the other places.
    obtain ⟨goes_on, goes_back⟩ := leads.leave begun
    show Leads origin ⟨j.anchor, j.begun.tail⟩ (m.leaveGroup q).stream
    rw [begun, List.tail_cons, Matcher.stream_leaveGroup, tells.rewind_entry places]
    split
    · exact goes_on
    · exact goes_back
  | result =>
    -- With no group open, the expression goes back to its anchor.
    obtain ⟨_, closed⟩ := Call.refusal?_result_eq_none_iff.1 sensible
    have places := tells.places_of_closed closed
    have back : rewind m.stream m.current.entry = j.anchor := tells.rewind_entry places
    show Leads origin ⟨if m.current.result then m.stream else rewind m.stream m.current.entry, []⟩
      (if m.current.result then m.stream else rewind m.stream m.current.entry)
    rw [back]
    split
    · exact anchored leads.onward
    · exact anchored (leads.onward_place j.anchor (places ▸ List.mem_singleton_self _))
  | restart => exact anchored leads.onward

end Journal.Leads

/-- Whatever is asked of a matcher, its stream never gets to a place before
the origin or inside a character, and neither do its levels. -/
theorem Driven.leads {rest : List Char} (stands : origin.Precedes rest) (forward : Forward eval)
    (h : Driven eval origin m j phase) : j.Leads origin m.stream :=
  h.invariant (P := fun m j => j.Leads origin m.stream) (.anchored (.refl stands))
    (fun _ _ _ _ tells leads sensible => leads.perform forward tells sensible)

/-- The levels began at the places in the journal. -/
theorem Journal.Tells.map_entry (tells : j.Tells m) :
    m.levels.map (·.entry.pos) = j.places.map (·.pos) := by
  have entries : m.levels.map Level.entry = j.places.map Cursor.mark := tells
  have positions := congrArg (List.map Cursor.Mark.pos) entries
  rw [List.map_map, List.map_map] at positions
  exact positions

/-- Every level began at one of the places in the journal. -/
theorem Journal.Tells.exists_place (tells : j.Tells m) :
    ∀ l ∈ m.levels, ∃ place ∈ j.places, place.pos = l.entry.pos := by
  intro l level
  have listed : l.entry.pos ∈ m.levels.map (·.entry.pos) := List.mem_map_of_mem level
  rw [tells.map_entry] at listed
  exact List.mem_map.1 listed

/-- The outermost level began at the anchor. -/
theorem Journal.Tells.entry_getLast (tells : j.Tells m) :
    (m.levels.getLast m.levels_ne_nil).entry.pos = j.anchor.pos := by
  have last := congrArg List.getLast? tells.map_entry
  rw [List.getLast?_map, List.getLast?_map, places, List.getLast?_concat,
    List.getLast?_eq_some_getLast m.levels_ne_nil] at last
  exact Option.some.inj last

/-! ### Operands that only read on -/

/-- A primitive stays where it is or consumes what it accepts. -/
theorem Primitive.forward_verdict (src : Source) :
    Forward (Primitive.verdict : Primitive → Cursor src → Verdict (Cursor src) Unit) := by
  intro p c rest stands
  rcases Cursor.reads_precedes.apply p stands with ⟨left, d, told, read, ends⟩ | ⟨_, stays⟩
  · obtain ⟨count, rfl⟩ := exists_drop_of_remainder? told
    refine ⟨rest.take count, rest.drop count, (List.take_append_drop count rest).symm, ?_⟩
    rw [verdict, read]
    exact ends
  · refine ⟨[], rest, rfl, ?_⟩
    rw [verdict, stays]
    exact stands

/-- An operand that leaves the cursor where a matcher of its own leaves it
only reads on if the operands of that matcher do. -/
theorem Driven.forward {ο' ρ' : Type} {eval' : ο' → Cursor src → Verdict (Cursor src) ρ'}
    (forward : Forward eval)
    (nested : ∀ op c, ∃ m j phase, Driven eval c m j phase ∧ (eval' op c).stream = m.stream) :
    Forward eval' := by
  intro op c rest stands
  obtain ⟨m, j, phase, driven, ends⟩ := nested op c
  obtain ⟨passed, left, begins, there⟩ := (driven.leads stands forward).onward
  exact ⟨passed, left, stands.rest_unique begins, ends ▸ there⟩

/-! ### The order of the levels -/

/-- On a cursor whose operands only read on from character to character.
Primitives are such operands, and so are those that use a matcher of their
own with such operands. In every state that calls and typed expressions
lead to from a cursor between two characters:

* the positions at which the levels were opened do not decrease from the
  outermost level inwards, none of them lies behind the cursor, and the
  cursor lies within the text;
* all of them are between two characters, and so is the cursor;
* the outermost level was opened at the last anchor;
* the current level and all levels around it, as far as they skip all of
  their operands, were opened where the cursor is. -/
theorem Driven.entries_ordered (forward : Forward eval) :
    Forward (Primitive.verdict : Primitive → Cursor src → Verdict (Cursor src) Unit) ∧
    (∀ {ο' ρ' : Type} {eval' : ο' → Cursor src → Verdict (Cursor src) ρ'},
      (∀ op c, ∃ m j phase, Driven eval c m j phase ∧ (eval' op c).stream = m.stream) →
      Forward eval') ∧
    ∀ {origin : Cursor src} {rest : List Char} {m : Matcher (Cursor src) Cursor.Mark}
      {j : Journal (Cursor src)} {phase : Option Phase},
      origin.Precedes rest → Driven eval origin m j phase →
      (m.levels.reverse.map (·.entry.pos)).Pairwise (· ≤ ·) ∧
      m.current.entry.pos ≤ m.stream.pos ∧ m.stream.pos ≤ src.length ∧
      (∀ l ∈ m.levels, src.IsBoundary l.entry.pos) ∧ src.IsBoundary m.stream.pos ∧
      (m.levels.getLast m.levels_ne_nil).entry.pos = j.anchor.pos ∧
      (m.current.skipsAll = true →
        ∀ l ∈ m.levels, l.skipsAll = true → l.entry.pos = m.stream.pos) := by
  refine ⟨Primitive.forward_verdict src, Driven.forward forward, ?_⟩
  intro origin rest m j phase stands h
  have leads := h.leads stands forward
  have tells := h.reached.tells
  have ⟨before, ordered⟩ := List.pairwise_cons.1 leads
  refine ⟨?_, ?_, m.stream.pos_le, ?_, leads.onward.isBoundary, tells.entry_getLast, ?_⟩
  · rw [List.map_reverse, List.pairwise_reverse, tells.map_entry, List.pairwise_map]
    exact (List.pairwise_append.1 ordered).1.imp Cursor.Onward.pos_le
  · obtain ⟨place, listed, pos⟩ := tells.exists_place m.current List.mem_cons_self
    rw [← pos]
    exact (before place (List.mem_append_left _ listed)).pos_le
  · intro l level
    obtain ⟨place, listed, pos⟩ := tells.exists_place l level
    rw [← pos]
    exact (leads.onward_place place listed).isBoundary
  · intro _ l level all
    -- Where a level is skipped the stream has not moved since it was opened.
    rw [h.idles l level all]
    rfl

/-- From behind the `x`, with a group that begins at the `é` and another
after it that is skipped, and in which the result is asked for in vain. -/
theorem Driven.entries_ordered_skipping :
    ∃ (src : Source) (origin : Cursor src) (m : Matcher (Cursor src) Cursor.Mark)
      (j : Journal (Cursor src)), src.text = String.ofList ['x', 'a', 'é', 'b'] ∧
      Forward (Cursor.stepOver : Bool → Cursor src → Verdict (Cursor src) Unit) ∧
      origin.Precedes ['a', 'é', 'b'] ∧ Driven Cursor.stepOver origin m j none ∧
      m.levels.reverse.map (·.entry.pos) = [1, 2, 4] ∧ m.stream.pos = 4 ∧
      m.current.skipsAll = true ∧
      (m.levels.reverse.map (·.entry.pos)).Pairwise (· ≤ ·) ∧
      (∀ l ∈ m.levels, src.IsBoundary l.entry.pos) ∧ src.IsBoundary m.stream.pos ∧
      (m.levels.getLast m.levels_ne_nil).entry.pos = j.anchor.pos ∧
      ∀ l ∈ m.levels, l.skipsAll = true → l.entry.pos = m.stream.pos := by
  let src : Source := { text := String.ofList ['x', 'a', 'é', 'b'], fits := by decide }
  let origin : Cursor src := ⟨1, by decide⟩
  have stands : origin.Precedes ['a', 'é', 'b'] := ⟨['x'], String.toList_ofList, rfl⟩
  have start : Driven (Cursor.stepOver : Bool → Cursor src → _) origin _ _ none := .new
  have grouped := ((start.call (.attempt true)).call (.connectEnter .and)).call (.attempt true)
  have driven := ((grouped.call (.connectEnter .or)).call (.attempt false)).call .result
  have ⟨ordered, _, _, boundaries, boundary, anchored, idle⟩ :=
    (entries_ordered Cursor.forward_stepOver).2.2 stands driven
  refine ⟨src, origin, _, _, rfl, Cursor.forward_stepOver, stands, driven, ?_, ?_, ?_, ordered,
    boundaries, boundary, anchored, idle ?_⟩
  all_goals decide +kernel

end

end ScanExpr
