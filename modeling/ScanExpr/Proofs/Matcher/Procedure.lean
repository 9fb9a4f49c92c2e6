import ScanExpr.Proofs.Matcher.Alike

/-!
# `ScanExpr.Proofs.Matcher.Procedure`: programs that use a matcher

A `Procedure` is a program that uses a matcher and its stream and decides
what to do next by what it is answered. Its operands are procedures too,
each with a matcher of its own over the stream that it is handed, and so
are the procedures that it nests. All of them share the marks that have
been taken, so an operand can go back to a place that was marked outside.
Being a program and not a function on one type of stream, a procedure can
be run on any. It has no loops: one that goes round a number of times on
some text is written out that often.

* `Action.perform`: takes one action on a matcher.
* `Procedure.run`: runs a procedure and returns what it saw on the way,
  inside its operands as well.
* `Procedure.alike_run`: streams that a `Simulation` cannot tell apart
  cannot be told apart by any procedure. The step lemma is
  `Action.alike_perform`.
-/

set_option autoImplicit false

namespace ScanExpr

variable {σ τ μ ν ρ : Type}

/-- What a procedure does in one step without an operand. Marks are told by
an index, and the one taken last has the index zero. -/
inductive Action where
  | peek
  /-- Steps over the next character, if there is one. -/
  | advance
  | primitive (p : Primitive)
  | mark
  /-- Takes the mark of the place where the current level was opened. -/
  | markEntry
  | rewind (index : Nat)
  /-- Asks whether two marks are equal. -/
  | compare (index other : Nat)
  /-- Asks for the depth, for what the current level knows, and whether
  there has been an operand. -/
  | inspect
  | call (c : Call Empty)

/-- What a procedure is answered. -/
inductive Response (ρ : Type) where
  | nothing
  | character (c : Option Char)
  | flag (value : Bool)
  | state (depth : Nat) (level : Level Unit) (attempted : Bool)
  | reply (r : Reply Empty)
  /-- The verdict and the report of an operand or of a nested procedure;
  none if the operand was skipped. -/
  | verdict (v : Option (Bool × ρ))

/-- A program that uses a matcher and ends in a verdict and a report of type
`ρ`. -/
inductive Procedure (ρ : Type) where
  | finish (matched : Bool) (report : ρ)
  | act (action : Action) (next : Response ρ → Procedure ρ)
  /-- Has the matcher read an operand. -/
  | attempt (operand : Procedure ρ) (next : Response ρ → Procedure ρ)
  /-- Runs a procedure on a new matcher over the matcher's stream. -/
  | nest (body : Procedure ρ) (next : Response ρ → Procedure ρ)

/-- What there is to see after a step: the response, the matcher that was
used and the events. -/
structure Sight (σ μ ρ : Type) where
  response : Response ρ
  matcher : Matcher σ μ
  events : List Event

/-- What a procedure comes to. -/
structure Ran (σ μ ρ : Type) where
  matched : Bool
  report : ρ
  matcher : Matcher σ μ
  /-- All marks that have been taken, the last one first. -/
  marks : List μ
  /-- What there was to see after each step, in operands and nested
  procedures too. -/
  sights : List (Sight σ μ ρ)

namespace Ran

/-- The procedure as an operand, which reports all that it came to. -/
def verdict (r : Ran σ μ ρ) : Verdict σ (Ran σ μ ρ) :=
  ⟨r.matched, r.matcher.stream, r⟩

/-- The response to whoever ran the procedure, if it was run. -/
def response (ran? : Option (Ran σ μ ρ)) : Response ρ :=
  .verdict (ran?.map fun r => (r.matched, r.report))

/-- The marks after a procedure that may have been run. -/
def marksAfter (marks : List μ) (ran? : Option (Ran σ μ ρ)) : List μ :=
  (ran?.map (·.marks)).getD marks

/-- What was seen inside a procedure that may have been run, and after it,
when the matcher is `after`. -/
def sightsUpTo (after : Matcher σ μ) (ran? : Option (Ran σ μ ρ)) : List (Sight σ μ ρ) :=
  (ran?.map (·.sights)).getD [] ++ [⟨response ran?, after, []⟩]

/-- A run that began with other steps. -/
def prepend (sights : List (Sight σ μ ρ)) (r : Ran σ μ ρ) : Ran σ μ ρ :=
  { r with sights := sights ++ r.sights }

end Ran

section

variable [CharStream σ μ] [DecidableEq μ]

/-- Takes an action and returns what there is to see and the marks. A mark
that was not taken is passed over. -/
def Action.perform (marks : List μ) (m : Matcher σ μ) : Action → Sight σ μ ρ × List μ
  | .peek => (⟨.character (CharStream.peek m.stream), m, []⟩, marks)
  | .advance =>
    match CharStream.peek m.stream with
    | some c => (⟨.nothing, { m with stream := CharStream.step m.stream c }, []⟩, marks)
    | none => (⟨.nothing, m, []⟩, marks)
  | .primitive p =>
    let (matched, stream) := p.apply m.stream
    (⟨.flag matched, { m with stream }, []⟩, marks)
  | .mark => (⟨.nothing, m, []⟩, Rewindable.mark m.stream :: marks)
  | .markEntry => (⟨.nothing, m, []⟩, m.current.entry :: marks)
  | .rewind index =>
    match marks[index]? with
    | some place => (⟨.nothing, { m with stream := Rewindable.rewind m.stream place }, []⟩, marks)
    | none => (⟨.nothing, m, []⟩, marks)
  | .compare index other => (⟨.flag (marks[index]? = marks[other]?), m, []⟩, marks)
  | .inspect => (⟨.state m.depth m.current.flags m.attempted, m, []⟩, marks)
  | .call c =>
    let outcome := c.run (fun operand _ => nomatch operand) m
    (⟨.reply outcome.reply, outcome.matcher, outcome.events⟩, marks)

namespace Procedure

/-- Runs a procedure on a matcher, after the given marks have been taken. -/
def run (marks : List μ) (m : Matcher σ μ) : Procedure ρ → Ran σ μ ρ
  | .finish matched report => ⟨matched, report, m, marks, []⟩
  | .act action next =>
    let taken := action.perform marks m
    ((next taken.1.response).run taken.2 taken.1.matcher).prepend [taken.1]
  | .attempt operand next =>
    let tried := m.attempt fun s => (operand.run marks (.start s)).verdict
    ((next (Ran.response tried.2)).run (Ran.marksAfter marks tried.2) tried.1).prepend
      (Ran.sightsUpTo tried.1 tried.2)
  | .nest body next =>
    let ran := body.run marks (.start m.stream)
    let after := { m with stream := ran.matcher.stream }
    ((next (Ran.response (some ran))).run ran.marks after).prepend
      (Ran.sightsUpTo after (some ran))

/-- Applies a primitive, as an operand. -/
def primitive (p : Primitive) : Procedure Unit :=
  .act (.primitive p) fun
    | .flag matched => .finish matched ()
    | _ => .finish false ()

end Procedure

end

/-! ### Runs on two streams -/

/-- Sights that show the same of matchers that are alike. -/
structure Sight.Alike (same : σ → τ → Prop) (sameMark : μ → ν → Prop) (x : Sight σ μ ρ)
    (y : Sight τ ν ρ) : Prop where
  response : x.response = y.response
  matcher : x.matcher.Alike same sameMark y.matcher
  events : x.events = y.events

/-- Runs that come to the same and showed the same after each step. -/
structure Ran.Alike (same : σ → τ → Prop) (sameMark : μ → ν → Prop) (x : Ran σ μ ρ)
    (y : Ran τ ν ρ) : Prop where
  matched : x.matched = y.matched
  report : x.report = y.report
  matcher : x.matcher.Alike same sameMark y.matcher
  marks : List.Forall₂ sameMark x.marks y.marks
  sights : List.Forall₂ (Sight.Alike same sameMark) x.sights y.sights

/-- The elements at one index of two lists that are related element by
element. -/
theorem rel_getElem? {α β : Type} {R : α → β → Prop} {xs : List α} {ys : List β}
    (related : List.Forall₂ R xs ys) (index : Nat) : Option.Rel R xs[index]? ys[index]? := by
  induction related generalizing index with
  | nil => exact .none
  | cons first _ ih =>
    cases index with
    | zero => exact .some first
    | succ index => exact ih index

/-- Equality of things that may be missing, on either side of a relation by
which equality is kept. -/
theorem eq_iff_of_rel {α β : Type} {R : α → β → Prop} (biUnique : Relator.BiUnique R)
    {x x' : Option α} {y y' : Option β} (first : Option.Rel R x y) (second : Option.Rel R x' y') :
    x = x' ↔ y = y' := by
  -- A mark that is missing on one side is missing on the other.
  cases first with
  | none => cases second <;> simp
  | some first =>
    cases second with
    | none => simp
    | some second =>
      rw [Option.some.injEq, Option.some.injEq]
      exact Relator.rel_eq biUnique first second

namespace Ran.Alike

variable {same : σ → τ → Prop} {sameMark : μ → ν → Prop} {ran? : Option (Ran σ μ ρ)}
  {ran?' : Option (Ran τ ν ρ)}

/-- Two runs that are alike give the same response. -/
theorem response (alike : Option.Rel (Ran.Alike same sameMark) ran? ran?') :
    Ran.response ran? = Ran.response ran?' := by
  cases alike with
  | none => rfl
  | some alike =>
    rw [Ran.response, Ran.response, Option.map_some, Option.map_some, alike.matched, alike.report]

/-- Two runs that are alike leave marks of the same places. -/
theorem marksAfter {marks : List μ} {marks' : List ν}
    (alike : Option.Rel (Ran.Alike same sameMark) ran? ran?')
    (taken : List.Forall₂ sameMark marks marks') :
    List.Forall₂ sameMark (Ran.marksAfter marks ran?) (Ran.marksAfter marks' ran?') := by
  cases alike with
  | none => exact taken
  | some alike => exact alike.marks

/-- What is seen up to the end of two runs that are alike is the same. -/
theorem sightsUpTo {m : Matcher σ μ} {n : Matcher τ ν}
    (alike : Option.Rel (Ran.Alike same sameMark) ran? ran?')
    (after : m.Alike same sameMark n) :
    List.Forall₂ (Sight.Alike same sameMark) (Ran.sightsUpTo m ran?) (Ran.sightsUpTo n ran?') := by
  have last : List.Forall₂ (Sight.Alike same sameMark) [⟨Ran.response ran?, m, []⟩]
      [⟨Ran.response ran?', n, []⟩] := .cons ⟨response alike, after, rfl⟩ .nil
  cases alike with
  | none => exact last
  | some alike => exact List.rel_append alike.sights last

/-- Runs stay alike when sights that are alike are put in front of theirs. -/
theorem prepend {xs : List (Sight σ μ ρ)} {ys : List (Sight τ ν ρ)} {x : Ran σ μ ρ}
    {y : Ran τ ν ρ} (sights : List.Forall₂ (Sight.Alike same sameMark) xs ys)
    (alike : x.Alike same sameMark y) :
    (x.prepend xs).Alike same sameMark (y.prepend ys) :=
  { alike with sights := List.rel_append sights alike.sights }

end Ran.Alike

variable [CharStream σ μ] [DecidableEq μ] [CharStream τ ν] [DecidableEq ν]
  {same : σ → τ → Prop} {sameMark : μ → ν → Prop} {m : Matcher σ μ} {n : Matcher τ ν}
  {marks : List μ} {marks' : List ν}

/-- An action shows the same of matchers that are alike, and leaves them
alike. -/
theorem Action.alike_perform (simulation : Simulation same sameMark)
    (alike : m.Alike same sameMark n) (taken : List.Forall₂ sameMark marks marks')
    (action : Action) :
    Sight.Alike same sameMark (action.perform marks m : Sight σ μ ρ × List μ).1
        (action.perform marks' n).1 ∧
      List.Forall₂ sameMark (action.perform marks m : Sight σ μ ρ × List μ).2
        (action.perform marks' n : Sight τ ν ρ × List ν).2 := by
  -- Only the actions that move the stream or use a mark have something to show.
  cases action with
  | peek => exact ⟨⟨congrArg Response.character (simulation.peek alike.stream), alike, rfl⟩, taken⟩
  | advance =>
    rw [perform, perform, ← simulation.peek alike.stream]
    cases next : CharStream.peek m.stream with
    | none => exact ⟨⟨rfl, alike, rfl⟩, taken⟩
    | some c =>
      have stepped := simulation.step alike.stream next
      exact ⟨⟨rfl, alike.withStream stepped, rfl⟩, taken⟩
  | primitive p =>
    have ⟨matched, stream⟩ := simulation.apply p alike.stream
    exact ⟨⟨congrArg Response.flag matched, alike.withStream stream, rfl⟩, taken⟩
  | mark => exact ⟨⟨rfl, alike, rfl⟩, .cons (simulation.mark alike.stream) taken⟩
  | markEntry => exact ⟨⟨rfl, alike, rfl⟩, .cons alike.current.entry taken⟩
  | rewind index =>
    have found := rel_getElem? taken index
    rw [perform, perform]
    generalize marks[index]? = place?, marks'[index]? = place?' at found
    cases found with
    | none => exact ⟨⟨rfl, alike, rfl⟩, taken⟩
    | some place =>
      have rewound := simulation.rewind alike.stream place
      exact ⟨⟨rfl, alike.withStream rewound, rfl⟩, taken⟩
  | compare index other =>
    have equal := eq_iff_of_rel simulation.biUnique (rel_getElem? taken index)
      (rel_getElem? taken other)
    exact ⟨⟨congrArg Response.flag (decide_eq_decide.2 equal), alike, rfl⟩, taken⟩
  | inspect =>
    refine ⟨⟨?_, alike, rfl⟩, taken⟩
    show Response.state _ _ _ = Response.state _ _ _
    rw [alike.depth, alike.current.flags, alike.attempted]
  | call c =>
    have outcome := Call.alike_run (ρ := Empty) simulation alike
      (fun operand _ => nomatch operand) (fun operand _ => nomatch operand) c
    exact ⟨⟨congrArg Response.reply outcome.reply, outcome.matcher, outcome.events⟩, taken⟩

/-- No procedure tells streams apart that are the same by a simulation: it
comes to the same on both, and sees the same after each step. -/
theorem Procedure.alike_run (simulation : Simulation same sameMark)
    (alike : m.Alike same sameMark n) (taken : List.Forall₂ sameMark marks marks')
    (p : Procedure ρ) : (p.run marks m).Alike same sameMark (p.run marks' n) := by
  -- Over the tree. Matchers and marks differ from branch to branch, so they have to be any.
  induction p generalizing m n marks marks' with
  | finish matched report => exact ⟨rfl, rfl, alike, taken, .nil⟩
  | act action next ih =>
    have ⟨sight, taken⟩ := action.alike_perform (ρ := ρ) simulation alike taken
    rw [run, run]
    exact Ran.Alike.prepend (.cons sight .nil) (sight.response ▸ ih _ sight.matcher taken)
  | attempt operand next ihOperand ihNext =>
    -- If the operand is run at all, it is run on both streams.
    have ran := ihOperand (.start simulation alike.stream) taken
    have ⟨after, ran?⟩ := alike.attempt (f := fun s => (operand.run marks (.start s)).verdict)
      (g := fun t => (operand.run marks' (.start t)).verdict)
      ⟨ran.matched, ran.matcher.stream, ran⟩
    have taken := Ran.Alike.marksAfter ran? taken
    rw [run, run]
    exact Ran.Alike.prepend (Ran.Alike.sightsUpTo ran? after)
      (Ran.Alike.response ran? ▸ ihNext _ after taken)
  | nest body next ihBody ihNext =>
    have ran := ihBody (.start simulation alike.stream) taken
    have after := alike.withStream ran.matcher.stream
    have ran? : Option.Rel (Ran.Alike same sameMark) _ _ := .some ran
    rw [run, run]
    exact Ran.Alike.prepend (Ran.Alike.sightsUpTo ran? after)
      (Ran.Alike.response ran? ▸ ihNext _ after ran.marks)

end ScanExpr
