import Mathlib.Data.List.SplitBy
import ScanExpr.Proofs.Matcher.Positions

/-!
# `ScanExpr.Proofs.Matcher.Session`: one expression leaves nothing behind

A session is all that is done with one matcher: calls, accepted or
refused, and typed expressions, which may be dropped. `Turn.segments` cuts
it into expressions. A segment ends where a result is given, and also
where the matcher is told to begin anew, whatever has been left open by
then.

`Turn.Recorded.along` is the main result: every segment goes step by step
as it would on a new matcher at the place where the segment before it left
off. A segment is entered either with a matcher that is as good as new
(`Turn.matcher_run_of_result`) or with a turn that makes it so
(`Turn.run_of_begins`), so it cannot tell what came before it. This holds of
all streams and operands.

The last section says where the expression began that a turn belongs to:
at the anchor that the journal keeps (`Turn.anchor_noted`), to which a false
result goes back (`Turn.anchor_noted_of_result`).
-/

set_option autoImplicit false

namespace ScanExpr

variable {σ μ ρ ο : Type}

/-- The result of an expression, if the reply is one. -/
def Reply.result? : Reply ρ → Option Bool
  | .concluded matched => some matched
  | _ => none

/-- One step of a session. -/
inductive Turn (ο : Type) where
  | call (c : Call ο)
  /-- The start of a typed expression. -/
  | expression
  /-- A step of the typed expression that was started last. -/
  | link {p q : Phase} (l : Link ο p q)

namespace Turn

/-- The call that a turn amounts to, if it amounts to one. -/
def call? : Turn ο → Option (Call ο)
  | .call c => some c
  | .expression => some .restart
  | .link l => l.call?

/-- Whether an expression begins with the turn, whatever was left open. -/
def begins (t : Turn ο) : Bool :=
  match t.call? with
  | some .restart => true
  | _ => false

/-- Typed steps have to start from the phase that was reached; everything
else can be done at any time. -/
def ComesIn (phase : Option Phase) : Turn ο → Prop
  | .call _ | .expression => True
  | @link _ p _ _ => phase = some p

/-- The phase of the typed expression after a turn. A call drops it. -/
def phaseAfter : Turn ο → Option Phase
  | .call _ => none
  | .expression => some (.operand 0 true)
  | @link _ _ q _ => some q

/-- The turns can be taken one after another. -/
def Follow (phase : Option Phase) : List (Turn ο) → Prop
  | [] => True
  | t :: rest => t.ComesIn phase ∧ Follow t.phaseAfter rest

/-! ### Sessions and their segments -/

/-- What a turn leads to. -/
def run [Rewindable σ μ] (eval : ο → σ → Verdict σ ρ) (m : Matcher σ μ) : Turn ο → Outcome σ μ ρ
  | .call c => c.run eval m
  | .expression => ⟨.done, m.restart, []⟩
  | .link l => l.perform eval m

/-- A turn that was taken, and what it led to. -/
structure Taken (ο σ μ ρ : Type) where
  turn : Turn ο
  outcome : Outcome σ μ ρ

/-- Takes turns one after another and writes down what each led to. -/
def transcript [Rewindable σ μ] (eval : ο → σ → Verdict σ ρ) (m : Matcher σ μ) :
    List (Turn ο) → List (Taken ο σ μ ρ)
  | [] => []
  | t :: rest =>
    let outcome := t.run eval m
    ⟨t, outcome⟩ :: transcript eval outcome.matcher rest

/-- Whether a step belongs to the same expression as the one before it:
that one was not the result, and no expression begins with this one. -/
def continues (step next : Taken ο σ μ ρ) : Bool :=
  step.outcome.reply.result?.isNone && !next.turn.begins

/-- A session, cut into its expressions. -/
def segments (steps : List (Taken ο σ μ ρ)) : List (List (Taken ο σ μ ρ)) :=
  steps.splitBy continues

/-- The result with which a segment ends, if it ends with one. -/
def result? (steps : List (Taken ο σ μ ρ)) : Option Bool :=
  steps.getLast?.bind fun step => step.outcome.reply.result?

/-- The matcher after steps that were taken on `m`. -/
def after (m : Matcher σ μ) (steps : List (Taken ο σ μ ρ)) : Matcher σ μ :=
  Outcome.finalMatcher m (steps.map Taken.outcome)

/-- Where steps leave off that start from `s`. -/
def stop (s : σ) : List (Taken ο σ μ ρ) → σ
  | [] => s
  | step :: rest => stop step.outcome.matcher.stream rest

/-- Something is true of every segment and the place where the one before
it left off. -/
def Along (P : σ → List (Taken ο σ μ ρ) → Prop) (s : σ) :
    List (List (Taken ο σ μ ρ)) → Prop
  | [] => True
  | segment :: later => P s segment ∧ Along P (stop s segment) later

section

variable {steps : List (Taken ο σ μ ρ)} {parts : List (List (Taken ο σ μ ρ))}

/-- Nothing continues a segment after its result. -/
theorem eq_nil_of_result {step : Taken ο σ μ ρ} {matched : Bool}
    (told : step.outcome.reply.result? = some matched)
    (chain : (step :: steps).IsChain fun step next => continues step next = true) :
    steps = [] := by
  cases steps with
  | nil => rfl
  | cons next steps => simp [continues, told] at chain

/-- No expression begins with a step that continues the one before it. -/
theorem begins_eq_false_of_chain {step : Taken ο σ μ ρ}
    (chain : (step :: steps).IsChain fun step next => continues step next = true) :
    ∀ next ∈ steps.head?, next.turn.begins = false := by
  intro next first
  have joined := (List.isChain_cons.1 chain).1 next first
  rw [continues, Bool.and_eq_true_iff] at joined
  simpa using joined.2

/-- The result of a segment is that of its last step. -/
theorem result?_cons {step : Taken ο σ μ ρ} (untold : step.outcome.reply.result? = none) :
    result? (step :: steps) = result? steps := by
  cases steps with
  | nil => exact untold
  | cons next steps => rw [result?, List.getLast?_cons_cons, result?]

/-- Steps that follow others leave off where they do when they start where the
others leave off. -/
theorem stop_append (s : σ) (steps others : List (Taken ο σ μ ρ)) :
    stop s (steps ++ others) = stop (stop s steps) others := by
  induction steps generalizing s with
  | nil => rfl
  | cons step steps ih => exact ih _

/-- Steps leave off where the matcher after them has its stream. -/
theorem stream_after (m : Matcher σ μ) (steps : List (Taken ο σ μ ρ)) :
    (after m steps).stream = stop m.stream steps := by
  induction steps generalizing m with
  | nil => rfl
  | cons step steps ih => exact ih _

/-- What is true along the parts is true of each part and the place where those
before it leave off. -/
theorem Along.of_eq {P : σ → List (Taken ο σ μ ρ) → Prop} {s : σ}
    (along : Along P s parts) {earlier later : List (List (Taken ο σ μ ρ))}
    (split : parts = earlier ++ steps :: later) : P (stop s earlier.flatten) steps := by
  subst split
  -- Along the parts that come before it, each of which moves the start.
  induction earlier generalizing s with
  | nil => exact along.1
  | cons first earlier ih =>
    rw [List.flatten_cons, stop_append]
    exact ih along.2

/-- The parts of a session are cut where `continues` says: inside a part
every step continues the one before it, and the next part begins with a
step that does not. -/
def Cut : List (List (Taken ο σ μ ρ)) → Prop
  | [] => True
  | part :: later =>
    part ≠ [] ∧ part.IsChain (fun step next => continues step next = true) ∧
    (∀ next ∈ later.flatten.head?, next.turn.begins = false → (result? part).isSome = true) ∧
    Cut later

/-- The segments are cut where `continues` says. -/
theorem cut_segments (steps : List (Taken ο σ μ ρ)) : Cut (segments steps) := by
  have ends := List.isChain_getLast_head_splitBy continues steps
  have inside : ∀ part ∈ segments steps, part ≠ [] ∧
      part.IsChain (fun step next => continues step next = true) := fun part h =>
    ⟨List.ne_nil_of_mem_splitBy h, List.isChain_of_mem_splitBy h⟩
  -- Nothing else is used of the parts than that `splitBy` has made them.
  rw [segments] at inside ⊢
  generalize steps.splitBy continues = parts at inside ends
  induction parts with
  | nil => trivial
  | cons part later ih =>
    obtain ⟨⟨nonempty, chain⟩, others⟩ := List.forall_mem_cons.1 inside
    refine ⟨nonempty, chain, ?_, ih others ends.tail⟩
    intro next first goes_on
    cases later with
    | nil => cases first
    | cons following later =>
      -- Of the steps at which two parts meet, the second does not continue the first.
      obtain ⟨_, some_next, apart⟩ := ends.rel
      have head : following.head some_next = next := by
        rw [List.flatten_cons, List.head?_append_of_ne_nil _ some_next] at first
        exact Option.some.inj ((List.head?_eq_some_head some_next).symm.trans first)
      rw [continues, head, goes_on] at apart
      simpa [result?, List.getLast?_eq_some_getLast nonempty] using apart

end

/-! ### Every segment starts anew -/

variable [Rewindable σ μ] {eval : ο → σ → Verdict σ ρ} {m : Matcher σ μ}

/-- A turn with which an expression begins forgets all but the stream. -/
theorem run_of_begins {t : Turn ο} (h : t.begins = true) (m : Matcher σ μ) :
    t.run eval m = ⟨.done, .start m.stream, []⟩ := by
  cases t with
  | call c =>
    cases c with
    | restart => rfl
    | attempt _ | connect _ | enterGroup | connectEnter _ | leaveGroup _ | result => cases h
  | expression => rfl
  | link l =>
    cases l with
    | restart => rfl
    | attempt _ | enterGroup | leaveEmpty | leave | quantify _ | leaveWith _ | connect _
    | connectEnter _ | result => cases h

/-- After a result the matcher is as good as new. -/
theorem matcher_run_of_result {t : Turn ο} {matched : Bool}
    (told : (t.run eval m).reply.result? = some matched) :
    (t.run eval m).matcher = .start (t.run eval m).matcher.stream := by
  -- Only one call has a result for its reply, and it begins a new expression.
  cases t with
  | call c =>
    rw [run, Call.run] at told ⊢
    cases sensible : c.refusal? m with
    | some misuse =>
      rw [sensible] at told
      cases told
    | none =>
      cases c with
      | result => rfl
      | attempt _ | connect _ | enterGroup | connectEnter _ | leaveGroup _ | restart =>
        rw [sensible] at told
        cases told
  | expression => cases told
  | link l =>
    cases l with
    | result => rfl
    | attempt _ | enterGroup | leaveEmpty | leave | quantify _ | leaveWith _ | connect _
    | connectEnter _ | restart => cases told

/-- With a turn that gives a result no expression begins. -/
theorem begins_eq_false_of_result {t : Turn ο} {matched : Bool}
    (told : (t.run eval m).reply.result? = some matched) : t.begins = false := by
  by_contra begins
  rw [Bool.not_eq_false] at begins
  rw [run_of_begins begins] at told
  cases told

/-- The turns are written down as they were taken. -/
theorem map_turn_transcript (m : Matcher σ μ) (turns : List (Turn ο)) :
    (transcript eval m turns).map Taken.turn = turns := by
  induction turns generalizing m with
  | nil => rfl
  | cons t rest ih => exact congrArg (t :: ·) (ih _)

/-- Each outcome is that of its turn after the turns before it. -/
def Recorded (eval : ο → σ → Verdict σ ρ) (m : Matcher σ μ) :
    List (Taken ο σ μ ρ) → Prop
  | [] => True
  | step :: rest => step.outcome = step.turn.run eval m ∧ Recorded eval step.outcome.matcher rest

/-- What is written down is what the turns lead to. -/
theorem recorded_transcript (m : Matcher σ μ) (turns : List (Turn ο)) :
    Recorded eval m (transcript eval m turns) := by
  induction turns generalizing m with
  | nil => trivial
  | cons t rest ih => exact ⟨rfl, ih _⟩

namespace Recorded

variable {steps others : List (Taken ο σ μ ρ)}

/-- Outcomes that are those of their turns are a transcript of these. -/
theorem eq_transcript (recorded : Recorded eval m steps) :
    steps = transcript eval m (steps.map Taken.turn) := by
  induction steps generalizing m with
  | nil => rfl
  | cons step rest ih =>
    obtain ⟨t, outcome⟩ := step
    obtain ⟨here, later⟩ := recorded
    obtain rfl : outcome = t.run eval m := here
    exact congrArg (_ :: ·) (ih later)

/-- A record of two parts is a record of each, the second one from the matcher
after the first. -/
theorem append (recorded : Recorded eval m (steps ++ others)) :
    Recorded eval m steps ∧ Recorded eval (after m steps) others := by
  induction steps generalizing m with
  | nil => exact ⟨trivial, recorded⟩
  | cons step rest ih =>
    obtain ⟨here, later⟩ := recorded
    obtain ⟨first, second⟩ := ih later
    exact ⟨⟨here, first⟩, second⟩

/-- Steps on a matcher that is as good as new, or that begin an expression,
are steps on a new matcher. -/
theorem renewed (recorded : Recorded eval m steps)
    (fresh : ∀ first ∈ steps.head?, first.turn.begins = false → m = .start m.stream) :
    Recorded eval (.start m.stream) steps := by
  cases steps with
  | nil => trivial
  | cons step rest =>
    obtain ⟨here, later⟩ := recorded
    by_cases begins : step.turn.begins = true
    · -- The first turn leaves nothing of either matcher but the stream.
      rw [run_of_begins begins] at here
      refine ⟨?_, later⟩
      rw [run_of_begins begins, here]
      rfl
    · rw [Bool.not_eq_true] at begins
      rw [← fresh step rfl begins]
      exact ⟨here, later⟩

/-- Steps that end with a result leave the matcher as good as new. -/
theorem after_eq_start (recorded : Recorded eval m steps) {matched : Bool}
    (told : result? steps = some matched) : after m steps = .start (after m steps).stream := by
  induction steps generalizing m with
  | nil => cases told
  | cons step rest ih =>
    obtain ⟨here, later⟩ := recorded
    cases rest with
    | nil =>
      have told : step.outcome.reply.result? = some matched := told
      show step.outcome.matcher = .start step.outcome.matcher.stream
      rw [here] at told ⊢
      exact matcher_run_of_result told
    | cons next rest =>
      rw [result?, List.getLast?_cons_cons] at told
      exact ih later told

/-- Every segment goes step by step as it would on a new matcher at the
place where the segment before it left off. -/
theorem along {parts : List (List (Taken ο σ μ ρ))} (cut : Cut parts)
    (recorded : Recorded eval m parts.flatten)
    (fresh : ∀ first ∈ parts.flatten.head?, first.turn.begins = false → m = .start m.stream) :
    Along (fun s part => Recorded eval (.start s) part) m.stream parts := by
  -- Segment by segment; the invariant is that the next one is entered as a new matcher would be.
  induction parts generalizing m with
  | nil => trivial
  | cons part later ih =>
    obtain ⟨nonempty, _, between, cut⟩ := cut
    rw [List.flatten_cons] at recorded fresh
    rw [List.head?_append_of_ne_nil _ nonempty] at fresh
    obtain ⟨here, others⟩ := recorded.append
    refine ⟨here.renewed fresh, ?_⟩
    rw [← stream_after]
    apply ih cut others
    -- If the next segment does not begin an expression itself, this one has ended with a result.
    intro next first goes_on
    obtain ⟨matched, told⟩ := Option.isSome_iff_exists.1 (between next first goes_on)
    exact here.after_eq_start told

end Recorded

/-! ### Where an expression began -/

/-- The journal after a turn. -/
def noted (j : Journal σ) (m : Matcher σ μ) (t : Turn ο) (outcome : Outcome σ μ ρ) : Journal σ :=
  match t with
  | .call c => j.noteCall m c outcome
  | .expression => ⟨m.stream, []⟩
  | .link l => j.noteLink m l outcome

variable {origin : σ} {j : Journal σ} {phase : Option Phase} {t : Turn ο}

/-- A turn is a step of the use of a matcher. -/
theorem driven (h : Driven eval origin m j phase) (comes : t.ComesIn phase) :
    Driven eval origin (t.run eval m).matcher (t.noted j m (t.run eval m)) t.phaseAfter := by
  cases t with
  | call c => exact h.call c
  | expression => exact h.expression
  | link l =>
    obtain rfl : phase = _ := comes
    exact h.link l

/-- A turn makes the call that it amounts to, or it does nothing. -/
theorem made_or_idle (h : Reached eval m j phase) (comes : t.ComesIn phase) :
    (∃ call : Call ο, t.call? = some call ∧ call.refusal? m = none ∧
      t.run eval m = call.perform eval m ∧
      t.noted j m (t.run eval m) = j.note m.stream (call.perform eval m).matcher.stream call) ∨
    ((t.run eval m).reply.result? = none ∧ t.noted j m (t.run eval m) = j ∧
      t.begins = false) := by
  cases t with
  | call c =>
    show (∃ call : Call ο, some c = some call ∧ _ ∧ c.run eval m = _ ∧
      j.noteCall m c (c.run eval m) = _) ∨ (c.run eval m).reply.result? = none ∧
      j.noteCall m c (c.run eval m) = j ∧ _
    rw [Journal.noteCall, Call.run]
    cases sensible : c.refusal? m with
    | some misuse =>
      -- A call that begins an expression is never refused.
      right
      refine ⟨rfl, rfl, ?_⟩
      cases c with
      | restart => cases sensible
      | attempt _ | connect _ | enterGroup | connectEnter _ | leaveGroup _ | result => rfl
    | none =>
      left
      refine ⟨c, rfl, sensible, rfl, ?_⟩
      simp only [Call.isRefused_perform]
      rfl
  | expression => exact .inl ⟨.restart, rfl, rfl, rfl, rfl⟩
  | link l =>
    obtain rfl : phase = _ := comes
    show (∃ call : Call ο, l.call? = some call ∧ _ ∧ l.perform eval m = _ ∧
      j.noteLink m l (l.perform eval m) = _) ∨ (l.perform eval m).reply.result? = none ∧
      j.noteLink m l (l.perform eval m) = j ∧ _
    rw [Journal.noteLink]
    cases amounts : l.call? with
    | none =>
      right
      rw [l.perform_of_call?_eq_none amounts]
      refine ⟨rfl, rfl, ?_⟩
      simp [begins, call?, amounts]
    | some call =>
      left
      rw [l.perform_of_call? amounts]
      exact ⟨call, rfl, (h.fits _ rfl).refusal?_eq_none amounts, rfl, rfl⟩

/-- As long as no result is given, the anchor is where the last turn was
taken with which an expression begins. -/
theorem anchor_noted (h : Reached eval m j phase) (comes : t.ComesIn phase)
    (untold : (t.run eval m).reply.result? = none) :
    (t.noted j m (t.run eval m)).anchor = if t.begins then m.stream else j.anchor := by
  rcases made_or_idle h comes with ⟨call, amounts, _, made, noted⟩ | ⟨_, noted, goes_on⟩
  · rw [noted, begins, amounts]
    cases call with
    | result =>
      rw [made] at untold
      cases untold
    | attempt _ | connect _ | enterGroup | connectEnter _ | leaveGroup _ | restart => rfl
  · rw [noted, goes_on]
    rfl

/-- A result takes the stream back to the anchor if it is false, and the
next expression is anchored where the stream is then. -/
theorem anchor_noted_of_result [LawfulRewindable σ] (h : Reached eval m j phase)
    (comes : t.ComesIn phase) {matched : Bool}
    (told : (t.run eval m).reply.result? = some matched) :
    (t.noted j m (t.run eval m)).anchor = (t.run eval m).matcher.stream ∧
    (t.run eval m).matcher.stream = if matched then m.stream else j.anchor := by
  rcases made_or_idle h comes with ⟨call, _, sensible, made, noted⟩ | ⟨untold, _⟩
  · rw [noted]
    rw [made] at told ⊢
    cases call with
    | result =>
      refine ⟨rfl, ?_⟩
      obtain rfl : m.current.result = matched := Option.some.inj told
      -- With no group open, the mark of the level is that of the anchor.
      obtain ⟨_, closed⟩ := Call.refusal?_result_eq_none_iff.1 sensible
      show (if m.current.result then m.stream else rewind m.stream m.current.entry) = _
      rw [h.tells.rewind_entry (h.tells.places_of_closed closed)]
    | attempt _ | connect _ | enterGroup | connectEnter _ | leaveGroup _ | restart => cases told
  · cases untold.symm.trans told

end Turn

end ScanExpr
