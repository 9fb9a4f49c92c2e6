import Mathlib.Data.List.Pairwise
import ScanExpr.Proofs.Phrase.Evaluate
import ScanExpr.Proofs.Stream.Boundary

/-!
# `ScanExpr.Proofs.Phrase.Row`: rows of operands, with and without groups

Operands that are joined without groups read from left to right: each
connective looks at the result of everything before it. One would expect
nothing to change if everything before a connective is put in a group. But
a group that fails takes the stream back to where the row began, while
without groups this happens only at the end. In `a and b or c`, where `a`
matches and `b` does not, `c` is tried after `a`, and in `(a and b) or c`
where `a` was tried.

What a row comes to, its result and its place in the stream, is a fold over
its operands either way: over `Row.join` without groups, and over
`Row.joinBack` with groups. The theorems:

* `Row.ends_verdict_flat` / `Row.ends_verdict_grouped`: the two rows, as
  phrases, come to these folds.
* `Row.foldl_back_of_ordered`: the folds agree if no `or` comes after an
  `and`. Up to the first `and` a failure has consumed nothing, and from
  there on a failure is final.
* `Row.Telling.exists_of_not_ordered`: they can be told apart if there is an
  `or` after an `and`, whatever other connectives there are.
* `Row.concludes_alike_iff`: the two together, for a matcher that is handed
  the row as calls.
-/

set_option autoImplicit false

namespace ScanExpr

variable {σ μ ρ ο : Type}

/-- Operands next to each other, with a connective before each but the
first. -/
structure Row (ο : Type) where
  first : ο
  joined : List (Connective × ο)

namespace Row

/-- The connectives, in order. -/
def connectives (row : Row ο) : List Connective :=
  row.joined.map (·.1)

/-- The operands, in order. -/
def operands (row : Row ο) : List ο :=
  row.first :: row.joined.map (·.2)

/-- The calls that hand the row to a matcher as it is. -/
def flatCalls (row : Row ο) : List (Call ο) :=
  .attempt row.first :: row.joined.flatMap fun next => [.connect next.1, .attempt next.2]

/-- The calls that hand the row to a matcher with each part of it that stands
before a connective in a group of its own. -/
def groupedCalls (row : Row ο) : List (Call ο) :=
  List.replicate row.joined.length .enterGroup ++ .attempt row.first ::
    row.joined.flatMap fun next => [.leaveGroup .required, .connect next.1, .attempt next.2]

/-! ### As phrases -/

/-- What comes after the first operand, as a phrase. -/
def tail : List (Connective × ο) → Phrase ο
  | [] => .done
  | next :: rest => .connective next.1 (.operand next.2 (tail rest))

/-- A phrase and what is joined to it, with everything before a connective in
a group. -/
def around (p : Phrase ο) : List (Connective × ο) → Phrase ο
  | [] => p
  | next :: rest => around (.group p .required (tail [next])) rest

/-- The row as a phrase without groups. -/
def flat (row : Row ο) : Phrase ο :=
  .operand row.first (tail row.joined)

/-- The row as a phrase of nested groups. -/
def grouped (row : Row ο) : Phrase ο :=
  around (.operand row.first .done) row.joined

/-- The calls of what comes after the first operand. -/
theorem calls_tail (joined : List (Connective × ο)) :
    (tail joined).calls = joined.flatMap fun next => [.connect next.1, .attempt next.2] := by
  induction joined with
  | nil => rfl
  | cons next rest ih => simp [tail, Phrase.calls, ih]

/-- All groups are opened before the first operand. -/
theorem calls_around (p : Phrase ο) (joined : List (Connective × ο)) :
    (around p joined).calls
      = List.replicate joined.length .enterGroup ++ (p.calls ++
          joined.flatMap fun next => [.leaveGroup .required, .connect next.1, .attempt next.2]) := by
  induction joined generalizing p with
  | nil => simp [around]
  -- The group that is put around last is opened first.
  | cons next rest ih => simp [around, ih, tail, Phrase.calls, List.replicate_succ']

/-- The phrase without groups spells the row as it is. -/
theorem calls_flat (row : Row ο) : row.flat.calls = row.flatCalls := by
  rw [flat, Phrase.calls, calls_tail, flatCalls]

/-- The phrase of nested groups spells the row with its groups. -/
theorem calls_grouped (row : Row ο) : row.grouped.calls = row.groupedCalls := by
  rw [grouped, calls_around, groupedCalls]
  rfl

/-- What comes after the first operand makes sense in a level that has had one. -/
theorem legal_tail (joined : List (Connective × ο)) : (tail joined).legal true = true := by
  induction joined with
  | nil => rfl
  | cons next rest ih => simp [tail, Phrase.legal, ih]

/-- The row as it is makes sense. -/
theorem legal_flat (row : Row ο) : row.flat.legal false = true :=
  legal_tail row.joined

/-- A phrase that makes sense still does when groups are put around it. -/
theorem legal_around {p : Phrase ο} (legal : p.legal false = true)
    (joined : List (Connective × ο)) : (around p joined).legal false = true := by
  induction joined generalizing p with
  | nil => exact legal
  | cons next rest ih => exact ih (by simp [Phrase.legal, legal, legal_tail])

/-- The row with its groups makes sense. -/
theorem legal_grouped (row : Row ο) : row.grouped.legal false = true :=
  legal_around rfl row.joined

/-- A phrase that has an operand still does when groups are put around it. -/
theorem hasOperand_around {p : Phrase ο} (hasOperand : p.hasOperand = true)
    (joined : List (Connective × ο)) : (around p joined).hasOperand = true := by
  induction joined generalizing p with
  | nil => exact hasOperand
  | cons next rest ih => exact ih rfl

/-- The row with its groups has an operand. -/
theorem hasOperand_grouped (row : Row ο) : row.grouped.hasOperand = true :=
  hasOperand_around rfl row.joined

/-! ### What a row comes to -/

section

variable (eval : ο → σ → Verdict σ ρ)

/-- The result and the stream that an evaluation comes to. -/
def ends (v : Valuation ο σ) : Bool × σ :=
  (v.matched, v.stream)

/-- The result and the stream after an operand on its own. -/
def outcome (op : ο) (s : σ) : Bool × σ :=
  ((eval op s).matched, (eval op s).stream)

/-- The result and the stream after an operand that is joined to those
before it. -/
def join (here : Bool × σ) (next : Connective × ο) : Bool × σ :=
  if Phrase.skips (some next.1) here.1 then here else outcome eval next.2 here.2

/-- After a failure the stream is taken back to `s`. -/
def back (s : σ) (here : Bool × σ) : Bool × σ :=
  (here.1, if here.1 then here.2 else s)

/-- The same where all of it is a group that began at `s`. -/
def joinBack (s : σ) (here : Bool × σ) (next : Connective × ο) : Bool × σ :=
  back s (join eval here next)

/-- What comes after the first operand is a fold over the operands. -/
theorem ends_evaluate_tail (joined : List (Connective × ο)) (here : Bool × σ) :
    ends ((tail joined).evaluate eval none here.1 here.2) = joined.foldl (join eval) here := by
  induction joined generalizing here with
  | nil => rfl
  | cons next rest ih =>
    rw [tail, Phrase.evaluate, Phrase.evaluate, List.foldl_cons, ← ih, join]
    split <;> rfl

/-- Without groups the stream is taken back only at the end. -/
theorem ends_verdict_flat (row : Row ο) (s : σ) :
    ends (row.flat.verdict eval s)
      = back s (row.joined.foldl (join eval) (outcome eval row.first s)) := by
  rw [← ends_evaluate_tail]
  rfl

/-- A phrase in a group that an operand is joined to is evaluated, taken
back, and joined. -/
theorem ends_verdict_group (p : Phrase ο) (next : Connective × ο) (s : σ) :
    ends ((Phrase.group p .required (tail [next])).verdict eval s)
      = joinBack eval s (ends (p.verdict eval s)) next := by
  have required : ((p.verdict eval s).matched || Quantifier.required == .optional)
      = (p.verdict eval s).matched := Bool.or_false _
  calc
    _ = back s (ends ((tail [next]).evaluate eval none
          ((p.verdict eval s).matched || Quantifier.required == .optional)
          (p.verdict eval s).stream)) := rfl
    _ = back s (ends ((tail [next]).evaluate eval none (p.verdict eval s).matched
          (p.verdict eval s).stream)) := by rw [required]
    _ = joinBack eval s (ends (p.verdict eval s)) next :=
      congrArg (back s) (ends_evaluate_tail eval [next] (ends (p.verdict eval s)))

/-- Each group that is put around is one more step of the fold. -/
theorem ends_verdict_around (p : Phrase ο) (joined : List (Connective × ο)) (s : σ) :
    ends ((around p joined).verdict eval s)
      = joined.foldl (joinBack eval s) (ends (p.verdict eval s)) := by
  induction joined generalizing p with
  | nil => rfl
  | cons next rest ih => rw [around, ih, ends_verdict_group, List.foldl_cons]

/-- With groups the stream is taken back before every connective. -/
theorem ends_verdict_grouped (row : Row ο) (s : σ) :
    ends (row.grouped.verdict eval s)
      = row.joined.foldl (joinBack eval s) (back s (outcome eval row.first s)) :=
  ends_verdict_around eval (.operand row.first .done) row.joined s

end

/-! ### Rows that come to the same -/

/-- The operand leaves the stream where it is if it does not match. -/
def KeepsPlace (eval : ο → σ → Verdict σ ρ) (op : ο) : Prop :=
  ∀ s, (eval op s).matched = false → (eval op s).stream = s

/-- No `or` comes after an `and`. -/
def Ordered (connectives : List Connective) : Prop :=
  connectives.Pairwise fun earlier later => ¬ (earlier = .and ∧ later = .or)

instance (connectives : List Connective) : Decidable (Ordered connectives) :=
  inferInstanceAs (Decidable (connectives.Pairwise _))

/-- Without an `or` no `or` comes after an `and`. -/
theorem ordered_of_not_mem {connectives : List Connective} (none : .or ∉ connectives) :
    Ordered connectives := by
  apply List.pairwise_of_forall_mem_list
  rintro earlier _ later listed ⟨_, rfl⟩
  exact none listed

section

variable {eval : ο → σ → Verdict σ ρ} {s : σ} {joined : List (Connective × ο)}

/-- With nothing but `and` to come, a failure is final, and it does not
matter when the stream is taken back. -/
theorem foldl_back_of_and (all : ∀ next ∈ joined, next.1 = .and) (here : Bool × σ) :
    joined.foldl (joinBack eval s) (back s here)
      = back s (joined.foldl (join eval) here) := by
  induction joined generalizing here with
  | nil => rfl
  | cons next rest ih =>
    have ⟨isAnd, others⟩ := List.forall_mem_cons.1 all
    obtain ⟨c, op⟩ := next
    obtain rfl : c = .and := isAnd
    obtain ⟨matched, t⟩ := here
    cases matched with
    | true => exact ih others (outcome eval op t)
    | false => exact ih others (false, t)

/-- As long as there was no `and`, a failure has consumed nothing, and there
is nothing to take back. -/
theorem foldl_back_of_ordered (ordered : Ordered (joined.map (·.1)))
    (keeps : ∀ next ∈ joined, KeepsPlace eval next.2) {here : Bool × σ}
    (stays : here.1 = false → here.2 = s) :
    joined.foldl (joinBack eval s) (back s here)
      = back s (joined.foldl (join eval) here) := by
  -- Along the row. The invariant is that a failure has left the stream at `s`.
  induction joined generalizing here with
  | nil => rfl
  | cons next rest ih =>
    have ⟨later, others⟩ := List.pairwise_cons.1 ordered
    have ⟨keepsPlace, othersKeep⟩ := List.forall_mem_cons.1 keeps
    obtain ⟨c, op⟩ := next
    obtain ⟨matched, t⟩ := here
    cases c with
    | or =>
      cases matched with
      | true => exact ih others othersKeep stays
      | false =>
        obtain rfl : t = s := stays rfl
        exact ih others othersKeep (keepsPlace t)
    | and =>
      -- From here on there may be something to take back, but no `or` is left
      -- that would look at where the stream is.
      have all : ∀ next ∈ rest, next.1 = .and := by
        intro next listed
        have not_or := later next.1 (List.mem_map_of_mem listed)
        cases named : next.1 with
        | and => rfl
        | or => exact absurd ⟨rfl, named⟩ not_or
      cases matched with
      | true => exact foldl_back_of_and all (outcome eval op t)
      | false => exact foldl_back_of_and all (false, t)

end

/-! ### Rows that do not -/

/-- Operands that tell apart where a row stands after an `and` that failed:
`ahead` leads from `s` to `t`, where `late` matches and leads to `u`, while
it does not match in `s`. -/
structure Telling (eval : ο → σ → Verdict σ ρ) (ahead late yes no : ο) (s t u : σ) : Prop where
  ahead_leads : outcome eval ahead s = (true, t)
  late_leads : outcome eval late t = (true, u)
  late_fails : outcome eval late s = (false, s)
  yes_stays : outcome eval yes u = (true, u)
  no_fails : outcome eval no s = (false, s)
  no_fails_ahead : outcome eval no t = (false, t)

namespace Telling

variable {eval : ο → σ → Verdict σ ρ} {ahead late yes no : ο} {s t u : σ}

/-- Once the results are different, operands can be chosen that leave them
so. -/
theorem exists_after (telling : Telling eval ahead late yes no s t u)
    (connectives : List Connective) :
    ∃ joined : List (Connective × ο), joined.map (·.1) = connectives ∧
      joined.foldl (join eval) (true, u) = (true, u) ∧
      joined.foldl (joinBack eval s) (false, s) = (false, s) := by
  induction connectives with
  | nil => exact ⟨[], rfl, rfl, rfl⟩
  | cons c rest ih =>
    obtain ⟨joined, rfl, flat, grouped⟩ := ih
    cases c with
    -- One side skips the operand, and the other one gets an operand that repeats its result.
    | and =>
      refine ⟨(.and, yes) :: joined, rfl, ?_, grouped⟩
      show joined.foldl (join eval) (outcome eval yes u) = _
      rw [telling.yes_stays, flat]
    | or =>
      refine ⟨(.or, no) :: joined, rfl, flat, ?_⟩
      show joined.foldl _ (back s (outcome eval no s)) = _
      rw [telling.no_fails]
      exact grouped

/-- After an `and` that failed, the first `or` makes the results
different. -/
theorem exists_of_or_mem (telling : Telling eval ahead late yes no s t u)
    {connectives : List Connective} (some_or : .or ∈ connectives) :
    ∃ joined : List (Connective × ο), joined.map (·.1) = connectives ∧
      joined.foldl (join eval) (false, t) = (true, u) ∧
      joined.foldl (joinBack eval s) (false, s) = (false, s) := by
  induction connectives with
  | nil => cases some_or
  | cons c rest ih =>
    cases c with
    -- Another `and` is skipped on both sides.
    | and =>
      have later : .or ∈ rest := (List.mem_cons.1 some_or).resolve_left Connective.noConfusion
      obtain ⟨joined, rfl, flat, grouped⟩ := ih later
      exact ⟨(.and, no) :: joined, rfl, flat, grouped⟩
    | or =>
      obtain ⟨joined, rfl, flat, grouped⟩ := telling.exists_after rest
      refine ⟨(.or, late) :: joined, rfl, ?_, ?_⟩
      · show joined.foldl (join eval) (outcome eval late t) = _
        rw [telling.late_leads, flat]
      · show joined.foldl _ (back s (outcome eval late s)) = _
        rw [telling.late_fails]
        exact grouped

/-- If there is an `or` after an `and`, the first `and` fails where the row
has already gone ahead. -/
theorem exists_of_not_ordered (telling : Telling eval ahead late yes no s t u)
    {connectives : List Connective} (disordered : ¬ Ordered connectives) :
    ∃ joined : List (Connective × ο), joined.map (·.1) = connectives ∧
      joined.foldl (join eval) (true, t) = (true, u) ∧
      joined.foldl (joinBack eval s) (true, t) = (false, s) := by
  induction connectives with
  | nil => exact absurd .nil disordered
  | cons c rest ih =>
    cases c with
    -- The `or` is skipped on both sides, since the row has matched so far.
    | or =>
      have later : ¬ Ordered rest := by
        intro ordered
        apply disordered
        exact List.pairwise_cons.2 ⟨fun _ _ isAnd => Connective.noConfusion isAnd.1, ordered⟩
      obtain ⟨joined, rfl, flat, grouped⟩ := ih later
      exact ⟨(.or, no) :: joined, rfl, flat, grouped⟩
    | and =>
      have some_or : .or ∈ rest := by
        by_cases listed : .or ∈ rest
        · exact listed
        · have none : .or ∉ .and :: rest := fun h =>
            listed ((List.mem_cons.1 h).resolve_left Connective.noConfusion)
          exact absurd (ordered_of_not_mem none) disordered
      obtain ⟨joined, rfl, flat, grouped⟩ := telling.exists_of_or_mem some_or
      refine ⟨(.and, no) :: joined, rfl, ?_, ?_⟩
      · show joined.foldl (join eval) (outcome eval no t) = _
        rw [telling.no_fails_ahead, flat]
      · show joined.foldl _ (back s (outcome eval no t)) = _
        rw [telling.no_fails_ahead]
        exact grouped

end Telling

/-- On the text `ab`: read the `a`, and then look for the `b`. -/
theorem telling_ab :
    ∃ (src : Source) (s t u : Cursor src), s.Precedes ['a', 'b'] ∧
      Telling Primitive.verdict (.consume (· == 'a') .one) (.consume (· == 'b') .one)
        (.consume (fun _ => false) .zeroOrOne) (.consume (fun _ => false) .one) s t u := by
  let src : Source := { text := String.ofList ['a', 'b'], fits := by decide }
  have stands : (Cursor.start src).Precedes ['a', 'b'] := ⟨[], String.toList_ofList, rfl⟩
  refine ⟨src, .start src, .clamped src 1, .clamped src 2, stands, ?_⟩
  constructor <;> decide +kernel

end Row

/-! ### The matcher on a row -/

/-- A matcher that begins at `s` refuses none of the calls, answers the
request for the result after them with `matched`, and leaves the stream at
`t`. -/
def Call.Concludes [Rewindable σ μ] (eval : ο → σ → Verdict σ ρ) (s : σ) (calls : List (Call ο))
    (matched : Bool) (t : σ) : Prop :=
  Accepted eval (.start s) (calls ++ [.result]) ∧
  ∃ outcome, (runAll eval (.start s) (calls ++ [.result])).getLast? = some outcome ∧
    outcome.reply = .concluded matched ∧ outcome.matcher.stream = t

/-- A phrase that makes sense is concluded as it is evaluated. -/
theorem Phrase.concludes_iff [Rewindable σ μ] [LawfulRewindable σ] (eval : ο → σ → Verdict σ ρ)
    {p : Phrase ο} (legal : p.legal false = true) (hasOperand : p.hasOperand = true) {s t : σ}
    {matched : Bool} :
    Call.Concludes eval s p.calls matched t ↔ Row.ends (p.verdict eval s) = (matched, t) := by
  have accepted := (accepted_calls_result_iff eval p s).2 ⟨legal, hasOperand⟩
  have last := getLast?_runAll_calls_result eval p s legal hasOperand
  constructor
  · rintro ⟨_, outcome, answered, reply, stream⟩
    rw [last] at answered
    cases answered
    exact Prod.ext (Reply.concluded.inj reply) stream
  · intro comes
    have ⟨matched_eq, stream_eq⟩ := Prod.mk.inj comes
    exact ⟨accepted, _, last, congrArg _ matched_eq, stream_eq⟩

section

variable [Rewindable σ μ] [LawfulRewindable σ] {eval : ο → σ → Verdict σ ρ} {row : Row ο} {s t : σ}
  {matched : Bool}

/-- Handed the row as it is, a matcher concludes what the fold without groups
comes to. -/
theorem Row.concludes_flatCalls_iff :
    Call.Concludes eval s row.flatCalls matched t
      ↔ back s (row.joined.foldl (join eval) (outcome eval row.first s)) = (matched, t) := by
  rw [← calls_flat, Phrase.concludes_iff eval row.legal_flat rfl, ends_verdict_flat]

/-- Handed the row with its groups, a matcher concludes what the fold with
groups comes to. -/
theorem Row.concludes_groupedCalls_iff :
    Call.Concludes eval s row.groupedCalls matched t
      ↔ row.joined.foldl (joinBack eval s)
          (back s (outcome eval row.first s)) = (matched, t) := by
  rw [← calls_grouped, Phrase.concludes_iff eval row.legal_grouped row.hasOperand_grouped,
    ends_verdict_grouped]

end

/-- For any connectives, the following two are the same:

* whatever the text, the place in it and the operands, as long as those do
  not move the cursor when they fail, a matcher that is handed the row of
  the operands joined by these connectives comes to the same result at the
  same place as one that is handed the row with every part before a
  connective in a group of its own;
* no `or` comes after an `and`. -/
theorem Row.concludes_alike_iff (connectives : List Connective) :
    (∀ {ο ρ : Type} {src : Source} (eval : ο → Cursor src → Verdict (Cursor src) ρ) (row : Row ο)
      (c : Cursor src) (rest : List Char), row.connectives = connectives → c.Precedes rest →
      (∀ op ∈ row.operands, KeepsPlace eval op) →
      ∃ matched d, Call.Concludes eval c row.flatCalls matched d ∧
        Call.Concludes eval c row.groupedCalls matched d)
    ↔ Ordered connectives := by
  constructor
  · intro alike
    -- If it were not ordered, operands on the text `ab` would tell the two rows apart.
    by_cases ordered : Ordered connectives
    · exact ordered
    · obtain ⟨src, s, t, u, stands, telling⟩ := telling_ab
      obtain ⟨joined, named, flat, grouped⟩ := telling.exists_of_not_ordered ordered
      obtain ⟨matched, d, flatly, groupwise⟩ := alike Primitive.verdict ⟨_, joined⟩ s _ named stands
        (fun _ _ _ failed => Primitive.stream_apply_of_failed failed)
      rw [concludes_flatCalls_iff, telling.ahead_leads, flat] at flatly
      rw [concludes_groupedCalls_iff, telling.ahead_leads] at groupwise
      -- One of them matches up to the end, and the other does not match.
      have differ : (true, u) = (false, s) := flatly.trans (groupwise.symm.trans grouped)
      cases differ
  · rintro ordered ο ρ src eval row c rest rfl _ keeps
    have ⟨first, others⟩ := List.forall_mem_cons.1 keeps
    have stays : (outcome eval row.first c).1 = false → (outcome eval row.first c).2 = c := first c
    have same := foldl_back_of_ordered ordered (List.forall_mem_map.1 others) stays
    exact ⟨_, _, concludes_flatCalls_iff.2 rfl, concludes_groupedCalls_iff.2 same⟩

-- A later `and` does not make up for the `or` in between.
example : Row.Ordered [.or, .or, .and, .and] ∧ ¬ Row.Ordered [.or, .and, .or, .and] := by
  decide

end ScanExpr
