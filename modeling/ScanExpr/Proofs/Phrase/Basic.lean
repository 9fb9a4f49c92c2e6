import ScanExpr.Proofs.Matcher.Run

/-!
# `ScanExpr.Proofs.Phrase.Basic`: the tree behind a sequence of calls

A `Phrase` is what a matcher is handed on one level: operands, connectives
and groups, where the body of a group is a phrase again. Nothing is asked
of its shape. Connectives may repeat or be left over at the end, operands
may stand next to each other, groups may be empty.

`Phrase.calls` writes a phrase down as calls and `Phrase.ofCalls?` reads
it back. Calls are read from the last to the first: the end of a group
then comes before its start and says which quantifier the group has.

* `Phrase.calls_of_ofCalls?`: the phrase that was read spells the calls it
  was read from, with every `connectEnter` made in two steps.
* `Phrase.exists_ofCalls?_of_balanced`: calls that a matcher accepts from the
  start of an expression, and that close what they open, can be read.
-/

set_option autoImplicit false

namespace ScanExpr

/-- What is handed to a matcher on one level, with operands of type `ο`. -/
inductive Phrase (ο : Type) where
  /-- Nothing more. -/
  | done
  /-- An operand and what follows it. -/
  | operand (op : ο) (rest : Phrase ο)
  /-- A connective and what follows it. -/
  | connective (c : Connective) (rest : Phrase ο)
  /-- A group and what follows it. -/
  | group (body : Phrase ο) (q : Quantifier) (rest : Phrase ο)
deriving DecidableEq

namespace Phrase

variable {ο : Type}

/-- The calls that hand a phrase to a matcher. -/
def calls : Phrase ο → List (Call ο)
  | .done => []
  | .operand op rest => .attempt op :: rest.calls
  | .connective c rest => .connect c :: rest.calls
  | .group body q rest => .enterGroup :: (body.calls ++ .leaveGroup q :: rest.calls)

/-- Whether each connective comes after an operand of its level. The level
may have had operands before the phrase. -/
def legal : Phrase ο → Bool → Bool
  | .done, _ => true
  | .operand _ rest, _ => rest.legal true
  | .connective _ rest, attempted => attempted && rest.legal attempted
  | .group body _ rest, _ => body.legal false && rest.legal true

/-- Whether the phrase has an operand or a group. -/
def hasOperand : Phrase ο → Bool
  | .done => false
  | .connective _ rest => rest.hasOperand
  | .operand .. | .group .. => true

/-! ### Reading calls back -/

/-- What has been read of a sequence of calls, from its end to some point:
the phrase from there to the end of the level, and the levels around it,
the innermost first. Such a level is known by the quantifier of the group
that ends in it and by what follows that end. -/
structure Tail (ο : Type) where
  phrase : Phrase ο
  around : List (Quantifier × Phrase ο)

namespace Tail

/-- Reads one more call. -/
def extend? (t : Tail ο) (call : Call ο) : Option (Tail ο) :=
  match call, t.around with
  | .attempt op, around => some ⟨.operand op t.phrase, around⟩
  | .connect c, around => some ⟨.connective c t.phrase, around⟩
  | .leaveGroup q, around => some ⟨.done, (q, t.phrase) :: around⟩
  | .enterGroup, (q, next) :: around => some ⟨.group t.phrase q next, around⟩
  | .connectEnter c, (q, next) :: around =>
    some ⟨.connective c (.group t.phrase q next), around⟩
  | _, _ => none

/-- Reads a sequence of calls, the last one first. -/
def ofCalls? : List (Call ο) → Option (Tail ο)
  | [] => some ⟨.done, []⟩
  | call :: rest => (ofCalls? rest).bind fun t => t.extend? call

/-- The calls that have been read. -/
def calls (t : Tail ο) : List (Call ο) :=
  t.phrase.calls ++ t.around.flatMap fun level => .leaveGroup level.1 :: level.2.calls

/-- Reading a call puts it in front. -/
theorem calls_of_extend? {t u : Tail ο} {call : Call ο} (h : t.extend? call = some u) :
    u.calls = call.expand ++ t.calls := by
  obtain ⟨phrase, around⟩ := t
  cases call with
  | attempt _ | connect _ | leaveGroup _ =>
    cases h
    rfl
  | enterGroup | connectEnter _ =>
    -- What has been read of the level is the body of a group of the level around it.
    cases around with
    | nil => cases h
    | cons level around =>
      cases h
      simp [calls, Phrase.calls, Call.expand]
  | result | restart => cases h

/-- What was read spells the calls that it was read from. -/
theorem calls_of_ofCalls? {calls : List (Call ο)} {t : Tail ο}
    (h : ofCalls? calls = some t) : t.calls = calls.flatMap Call.expand := by
  induction calls generalizing t with
  | nil =>
    cases h
    rfl
  | cons call rest ih =>
    obtain ⟨u, read, extended⟩ := Option.bind_eq_some_iff.1 h
    rw [calls_of_extend? extended, ih read, List.flatMap_cons]

end Tail

/-- The phrase that a sequence of calls spells, if it spells one. -/
def ofCalls? (calls : List (Call ο)) : Option (Phrase ο) :=
  match Tail.ofCalls? calls with
  | some ⟨phrase, []⟩ => some phrase
  | _ => none

/-- Calls spell a phrase if all groups are closed when they have been read. -/
theorem ofCalls?_eq_some_iff {calls : List (Call ο)} {p : Phrase ο} :
    ofCalls? calls = some p ↔ Tail.ofCalls? calls = some ⟨p, []⟩ := by
  rw [ofCalls?]
  split
  · rename_i phrase read
    simp [read]
  · rename_i other
    constructor
    · intro h
      cases h
    · intro h
      exact absurd h (other p)

/-- A phrase that was read spells the calls that it was read from. -/
theorem calls_of_ofCalls? {calls : List (Call ο)} {p : Phrase ο}
    (h : ofCalls? calls = some p) : p.calls = calls.flatMap Call.expand := by
  rw [← Tail.calls_of_ofCalls? (ofCalls?_eq_some_iff.1 h), Tail.calls, List.flatMap_nil,
    List.append_nil]

end Phrase

/-! ### Accepted calls can be read -/

namespace Call

variable {σ μ ρ ο : Type}

/-- A call that makes sense can be read in front of calls that close as
many groups as are open then. -/
theorem exists_extend? {m : Matcher σ μ} {call : Call ο} (inner : call.isAnchor = false)
    (sensible : call.refusal? m = none) (t : Phrase.Tail ο)
    (closes : t.around.length = call.depthAfter m.depth) :
    ∃ u, t.extend? call = some u ∧ u.around.length = m.depth := by
  obtain ⟨phrase, around⟩ := t
  cases call with
  | attempt _ | connect _ => exact ⟨_, rfl, closes⟩
  | leaveGroup q =>
    have some_open := refusal?_leaveGroup_eq_none_iff.1 sensible
    refine ⟨_, rfl, ?_⟩
    show around.length + 1 = m.depth
    have closes : around.length = m.depth - 1 := closes
    omega
  | enterGroup | connectEnter _ =>
    cases around with
    | nil => cases closes
    | cons level around => exact ⟨_, rfl, Nat.succ.inj closes⟩
  | result | restart => cases inner

variable [Rewindable σ μ] {eval : ο → σ → Verdict σ ρ}

/-- Calls that a matcher accepts and that leave no group open close the groups
that were open before them. -/
theorem exists_tail_of_accepted {m : Matcher σ μ} {calls : List (Call ο)}
    (inner : ∀ call ∈ calls, call.isAnchor = false) (accepted : Accepted eval m calls)
    (closed : (after eval m calls).depth = 0) :
    ∃ t, Phrase.Tail.ofCalls? calls = some t ∧ t.around.length = m.depth := by
  -- Calls are read from the last one, so what follows the first has been read before it.
  induction calls generalizing m with
  | nil => exact ⟨_, rfl, closed.symm⟩
  | cons call rest ih =>
    have ⟨sensible, others⟩ := accepted_cons.1 accepted
    obtain ⟨t, read, closes⟩ := ih (fun c h => inner c (List.mem_cons_of_mem _ h)) others closed
    rw [run_of_refusal?_eq_none sensible, depth_perform] at closes
    obtain ⟨u, extended, length⟩ := exists_extend? (inner call List.mem_cons_self) sensible t closes
    exact ⟨u, by rw [Phrase.Tail.ofCalls?, read]; exact extended, length⟩

/-- Calls that belong to one expression, make sense at its start and close
every group that they open. -/
structure Balanced (eval : ο → σ → Verdict σ ρ) (s : σ) (calls : List (Call ο)) : Prop where
  inner : ∀ call ∈ calls, call.isAnchor = false
  accepted : Accepted eval (.start s) calls
  closed : (after eval (.start s) calls).depth = 0

/-- The result is only given when no group is open. -/
theorem Accepted.balanced {s : σ} {calls : List (Call ο)}
    (accepted : Accepted eval (.start s) (calls ++ [.result]))
    (inner : ∀ call ∈ calls, call.isAnchor = false) : Balanced eval s calls := by
  have ⟨made, last⟩ := accepted_append.1 accepted
  have ⟨sensible, _⟩ := accepted_cons.1 last
  exact ⟨inner, made, (refusal?_result_eq_none_iff.1 sensible).2⟩

end Call

/-- Balanced calls spell a phrase. -/
theorem Phrase.exists_ofCalls?_of_balanced {σ μ ρ ο : Type} [Rewindable σ μ]
    {eval : ο → σ → Verdict σ ρ} {s : σ} {calls : List (Call ο)}
    (balanced : Call.Balanced eval s calls) : ∃ p, Phrase.ofCalls? calls = some p := by
  obtain ⟨⟨p, around⟩, read, closes⟩ :=
    Call.exists_tail_of_accepted balanced.inner balanced.accepted balanced.closed
  -- At the start of the expression no group is open, so none is left to be opened.
  cases around with
  | nil => exact ⟨p, ofCalls?_eq_some_iff.2 read⟩
  | cons _ _ => cases closes

end ScanExpr
