import ScanExpr.Proofs.Phrase.Alternation
import ScanExpr.Proofs.Phrase.Row

/-!
# `ScanExpr.Proofs.Phrase.Bracketing`: one connective, any groups

Operands are joined by one connective throughout, and some of them, or of the
parts they make up, are put in groups. A group that fails takes the stream
back to where it began, so the groups can be seen while the expression is
evaluated. In `(a and b) and c`, where `a` matches and `b` does not, the stream
is back at the start when `c` is skipped, and in `a and b and c` it is not.

At the end they cannot be seen. What all bracketings of the same operands
have in common is `Valuation.series`: the operands are run in order until one
of them decides the result. A bracketing comes to this valuation, but for the
stream after a failed `and` (`Bracketing.exists_evaluate`). There nothing is
run any more, and the expression as a whole takes the stream back in any case.

`Bracketing.concludes_as_series` is the main result.
-/

set_option autoImplicit false

namespace ScanExpr

variable {σ μ ρ ο : Type}

/-! ### Operands in a series -/

/-- The running result that leaves it to the next operand. -/
def Connective.neutral : Connective → Bool
  | .and => true
  | .or => false

/-- A connective leaves the result open exactly if the running result is its
neutral one. -/
theorem Connective.decides_eq_false_iff {c : Connective} {running : Bool} :
    decides (some c) running = false ↔ running = c.neutral := by
  cases c with
  | and =>
    show (!running) = false ↔ running = true
    rw [Bool.not_eq_false']
  | or => exact Iff.rfl

/-- Calls that hand over operands with a connective between any two. -/
def Call.series (c : Connective) : List ο → List (Call ο)
  | [] => []
  | first :: others => (Row.mk first (others.map fun op => (c, op))).flatCalls

namespace Valuation

variable (eval : ο → σ → Verdict σ ρ) (c : Connective)

/-- What operands come to that are run one after another, each of them only as
long as the connective before it leaves the result open. -/
def series : List ο → Bool → σ → Valuation ο σ
  | [], running, s => ⟨running, s, []⟩
  | op :: rest, running, s =>
    if Connective.decides (some c) running then ⟨running, s, []⟩
    else (series rest (eval op s).matched (eval op s).stream).since [(op, s)]

/-- Where the result is decided nothing is run. -/
theorem series_of_decides {running : Bool} (decided : Connective.decides (some c) running = true)
    (ops : List ο) (s : σ) : series eval c ops running s = ⟨running, s, []⟩ := by
  cases ops with
  | nil => rfl
  | cons op rest => exact if_pos decided

/-- After the neutral result the first operand is run, and then the others with
its outcome. -/
theorem series_cons_neutral (op : ο) (rest : List ο) (s : σ) :
    series eval c (op :: rest) c.neutral s
      = (series eval c rest (eval op s).matched (eval op s).stream).since [(op, s)] :=
  if_neg (Bool.eq_false_iff.1 (Connective.decides_eq_false_iff.2 rfl))

/-- What was run earliest stands first. -/
theorem since_since (v : Valuation ο σ) (earlier before : List (ο × σ)) :
    (v.since earlier).since before = v.since (before ++ earlier) := by
  rw [since, since, since, List.append_assoc]

/-- Two series in a row: the second one begins with the result and the stream
of the first. -/
theorem series_append (ops others : List ο) (running : Bool) (s : σ) :
    series eval c (ops ++ others) running s
      = (series eval c others (series eval c ops running s).matched
          (series eval c ops running s).stream).since (series eval c ops running s).invoked := by
  -- Along the first series. Where it is decided, neither series runs anything.
  induction ops generalizing running s with
  | nil => rfl
  | cons op rest ih =>
    cases decided : Connective.decides (some c) running with
    | true =>
      rw [series_of_decides eval c decided, series_of_decides eval c decided,
        series_of_decides eval c decided]
      rfl
    | false =>
      obtain rfl := Connective.decides_eq_false_iff.1 decided
      rw [List.cons_append, series_cons_neutral, series_cons_neutral, ih, since_since]
      rfl

end Valuation

section

variable {eval : ο → σ → Verdict σ ρ} {c : Connective}

/-- Operands that are joined by `or` and do not move the stream when they fail
do not move it either when they all fail. -/
theorem Valuation.stream_series_of_failed {ops : List ο}
    (keeps : ∀ op ∈ ops, Row.KeepsPlace eval op) {s : σ}
    (failed : (series eval .or ops false s).matched = false) :
    (series eval .or ops false s).stream = s := by
  induction ops generalizing s with
  | nil => rfl
  | cons op rest ih =>
    have ⟨keepsPlace, othersKeep⟩ := List.forall_mem_cons.1 keeps
    have first : series eval .or (op :: rest) false s
        = (series eval .or rest (eval op s).matched (eval op s).stream).since [(op, s)] :=
      series_cons_neutral eval .or op rest s
    rw [first] at failed ⊢
    cases matched : (eval op s).matched with
    | true =>
      rw [matched, series_of_decides eval .or rfl] at failed
      cases failed
    | false =>
      rw [matched, keepsPlace s matched] at failed
      rw [keepsPlace s matched]
      exact ih othersKeep failed

/-- Operands that follow in a row are evaluated as a series. -/
theorem Row.evaluate_tail_map (ops : List ο) (running : Bool) (s : σ) :
    (Row.tail (ops.map fun op => (c, op))).evaluate eval none running s
      = Valuation.series eval c ops running s := by
  induction ops generalizing running s with
  | nil => rfl
  | cons op rest ih =>
    rw [List.map_cons, Row.tail, Phrase.evaluate, Phrase.evaluate, Phrase.skips_eq_decides, ih, ih,
      Valuation.series]
    cases decided : Connective.decides (some c) running with
    | true => exact Valuation.series_of_decides eval c decided rest s
    | false => rfl

end

/-! ### Bracketings -/

/-- A way to put parts of a series of operands in groups. -/
inductive Bracketing (ο : Type) where
  | operand (op : ο)
  /-- Two parts with the connective between them. -/
  | join (first second : Bracketing ο)
  | group (part : Bracketing ο)
deriving DecidableEq

namespace Bracketing

/-- The operands, in order. -/
def operands : Bracketing ο → List ο
  | .operand op => [op]
  | .join first second => first.operands ++ second.operands
  | .group part => part.operands

/-- The calls that hand the bracketed series to a matcher. -/
def calls (c : Connective) : Bracketing ο → List (Call ο)
  | .operand op => [.attempt op]
  | .join first second => first.calls c ++ .connect c :: second.calls c
  | .group part => .enterGroup :: (part.calls c ++ [.leaveGroup .required])

/-- The bracketed series as a phrase, with what follows it. -/
def phrase (c : Connective) : Bracketing ο → Phrase ο → Phrase ο
  | .operand op, rest => .operand op rest
  | .join first second, rest => first.phrase c (.connective c (second.phrase c rest))
  | .group part, rest => .group (part.phrase c .done) .required rest

/-- The calls of the phrase are those of the bracketing, and then the rest. -/
theorem calls_phrase (c : Connective) (b : Bracketing ο) (rest : Phrase ο) :
    (b.phrase c rest).calls = b.calls c ++ rest.calls := by
  induction b generalizing rest with
  | operand op => rfl
  | join first second ihFirst ihSecond =>
    simp [phrase, calls, Phrase.calls, ihFirst, ihSecond]
  | group part ih => simp [phrase, calls, Phrase.calls, ih]

/-- A bracketing makes sense at any point of a level. -/
theorem legal_phrase (c : Connective) (b : Bracketing ο) (rest : Phrase ο) (attempted : Bool) :
    (b.phrase c rest).legal attempted = rest.legal true := by
  induction b generalizing rest attempted with
  | operand op => rfl
  | join first second ihFirst ihSecond => simp [phrase, Phrase.legal, ihFirst, ihSecond]
  | group part ih => simp [phrase, Phrase.legal, ih]

/-- A bracketing has an operand. -/
theorem hasOperand_phrase (c : Connective) (b : Bracketing ο) (rest : Phrase ο) :
    (b.phrase c rest).hasOperand = true := by
  induction b generalizing rest with
  | operand op => rfl
  | join first second ihFirst _ => exact ihFirst _
  | group part _ => rfl

variable {eval : ο → σ → Verdict σ ρ} {c : Connective}

/-- A bracketed series that is skipped runs nothing. -/
theorem evaluate_phrase_of_decides {running : Bool}
    (decided : Connective.decides (some c) running = true) (b : Bracketing ο) (rest : Phrase ο)
    (s : σ) :
    (b.phrase c rest).evaluate eval (some c) running s = rest.evaluate eval none running s := by
  have skipped : Phrase.skips (some c) running = true :=
    (Phrase.skips_eq_decides _ _).trans decided
  induction b generalizing rest with
  | operand op => exact if_pos skipped
  | join first second ihFirst ihSecond =>
    rw [phrase, ihFirst, Phrase.evaluate, ihSecond]
  | group part _ => exact if_pos skipped

/-- A bracketed series that is not skipped comes to what the series comes to
without groups. Only where it is joined by `and` and fails the stream may be
somewhere else. -/
theorem exists_evaluate {b : Bracketing ο} (keeps : ∀ op ∈ b.operands, Row.KeepsPlace eval op)
    {latest : Option Connective} {running : Bool} (runs : Phrase.skips latest running = false)
    (rest : Phrase ο) (s : σ) :
    let v := Valuation.series eval c b.operands c.neutral s
    ∃ t, (v.matched = true ∨ c = .or → t = v.stream) ∧
      (b.phrase c rest).evaluate eval latest running s
        = (rest.evaluate eval none v.matched t).since v.invoked := by
  -- Over the bracketing, in any surroundings in which it is not skipped.
  induction b generalizing latest running rest s with
  | operand op =>
    refine ⟨(eval op s).stream, fun _ => ?_, ?_⟩
    · rw [operands, Valuation.series_cons_neutral]
      rfl
    · rw [operands, Valuation.series_cons_neutral]
      exact if_neg (Bool.eq_false_iff.1 runs)
  | join first second ihFirst ihSecond =>
    have ⟨firstKeep, secondKeep⟩ := List.forall_mem_append.1 keeps
    obtain ⟨t, stays, evaluated⟩ := ihFirst firstKeep runs (.connective c (second.phrase c rest)) s
    rw [phrase, evaluated, operands, Valuation.series_append, Phrase.evaluate]
    generalize Valuation.series eval c first.operands c.neutral s = v at stays ⊢
    cases decided : Connective.decides (some c) v.matched with
    | true =>
      -- The second part is skipped, wherever the stream is.
      rw [evaluate_phrase_of_decides decided, Valuation.series_of_decides eval c decided]
      refine ⟨t, stays, ?_⟩
      show _ = Valuation.since _ (v.invoked ++ [])
      rw [List.append_nil]
      rfl
    | false =>
      -- The second part is run, and begins where the first one ended.
      have undecided := Connective.decides_eq_false_iff.1 decided
      obtain rfl : t = v.stream := by
        apply stays
        rw [undecided]
        cases c with
        | and => exact .inl rfl
        | or => exact .inr rfl
      obtain ⟨u, stays, evaluated⟩ :=
        ihSecond secondKeep ((Phrase.skips_eq_decides _ _).trans decided) rest v.stream
      rw [evaluated, undecided]
      exact ⟨u, stays, Valuation.since_since _ _ _⟩
  | group part ih =>
    have first_runs : Phrase.skips none false = false := rfl
    obtain ⟨t, stays, evaluated⟩ := ih keeps first_runs .done s
    have back : (Valuation.series eval c part.operands c.neutral s).matched = false → c = .or →
        (Valuation.series eval c part.operands c.neutral s).stream = s := by
      rintro failed rfl
      exact Valuation.stream_series_of_failed keeps failed
    rw [operands, phrase, Phrase.evaluate, if_neg (Bool.eq_false_iff.1 runs), evaluated]
    generalize Valuation.series eval c part.operands c.neutral s = v at stays back ⊢
    refine ⟨if v.matched then t else s, ?_, ?_⟩
    · intro matched_or
      cases matched : v.matched with
      | true => exact stays (.inl matched)
      | false =>
        -- An `or` that fails has left the stream where the group began.
        have isOr := matched_or.resolve_left (Bool.eq_false_iff.1 matched)
        exact (back matched isOr).symm
    · show Valuation.since (Phrase.evaluate _ rest none (_ || false) _) (v.invoked ++ []) = _
      rw [Bool.or_false, List.append_nil]
      rfl

/-- As a whole expression, a bracketed series comes to what the series comes to
without groups. -/
theorem verdict_phrase {b : Bracketing ο} (keeps : ∀ op ∈ b.operands, Row.KeepsPlace eval op)
    (s : σ) :
    (b.phrase c .done).verdict eval s
      = (Valuation.series eval c b.operands c.neutral s).orBack s := by
  have first_runs : Phrase.skips none false = false := rfl
  obtain ⟨t, stays, evaluated⟩ := exists_evaluate keeps first_runs .done s
  rw [Phrase.verdict, evaluated]
  generalize Valuation.series eval c b.operands c.neutral s = v at stays ⊢
  show Valuation.mk v.matched (if v.matched then t else s) (v.invoked ++ []) = _
  rw [List.append_nil, Valuation.orBack]
  cases matched : v.matched with
  | true => rw [stays (.inl matched)]
  | false => rfl

/-- A bracketing has operands. -/
theorem operands_ne_nil (b : Bracketing ο) : b.operands ≠ [] := by
  induction b with
  | operand op => exact List.cons_ne_nil _ _
  | join first second ihFirst _ => exact List.append_ne_nil_of_left_ne_nil ihFirst _
  | group part ih => exact ih

end Bracketing

/-! ### The matcher on a bracketed series -/

/-- No group of a phrase is opened in one call with a connective. -/
theorem Phrase.flatMap_expand_calls (p : Phrase ο) : p.calls.flatMap Call.expand = p.calls := by
  induction p with
  | done => rfl
  | operand op rest ih | connective c rest ih => simp [calls, Call.expand, ih]
  | group body q rest ihBody ihRest => simp [calls, Call.expand, ihBody, ihRest]

section

variable [Rewindable σ μ] [LawfulRewindable σ] {eval : ο → σ → Verdict σ ρ} {c : Connective}

/-- What spells an expression is concluded as the expression is evaluated, and
runs what the evaluation runs. -/
theorem Phrase.SpelledBy.concludes {p : Phrase ο} {body : List (Call ο)}
    (spelled : p.SpelledBy body) (eval : ο → σ → Verdict σ ρ) (s : σ) :
    Call.Concludes eval s body (p.verdict eval s).matched (p.verdict eval s).stream ∧
      Call.invocations eval (.start s) (body ++ [.result]) = (p.verdict eval s).invoked := by
  obtain ⟨accepted, told, invoked⟩ := spelled.result eval s
  have ⟨_, last⟩ := Call.accepted_append.1 accepted
  refine ⟨⟨accepted, _, accepted.getLast?_runAll_result, ?_, ?_⟩, ?_⟩
  · rw [← Call.run_of_refusal?_eq_none (Call.accepted_cons.1 last).1, told]
  · rw [← Call.run_of_refusal?_eq_none (Call.accepted_cons.1 last).1, told]
    rfl
  · -- Asking for the result runs no operand.
    have silent : Call.invocations eval (Call.after eval (.start s) body) [.result] = [] := rfl
    rw [Call.invocations_append, silent, List.append_nil, invoked]

/-- A series is an expression of its own. -/
theorem Row.flat_spelledBy (row : Row ο) : row.flat.SpelledBy row.flatCalls where
  calls := by rw [← calls_flat, Phrase.flatMap_expand_calls]
  legal := row.legal_flat
  hasOperand := rfl

/-- A row with one connective throughout comes to what the series comes to. -/
theorem Row.verdict_flat_map (first : ο) (others : List ο) (s : σ) :
    (Row.mk first (others.map fun op => (c, op))).flat.verdict eval s
      = (Valuation.series eval c (first :: others) c.neutral s).orBack s := by
  rw [Valuation.series_cons_neutral, ← evaluate_tail_map]
  rfl

/-- Groups make no difference where all operands are joined by the same
connective and none of them moves the stream when it fails. With any parts of
the series in groups, to any depth, the matcher accepts all calls, comes to the
same result at the same place, and runs the same operands on the same streams
as without groups. -/
theorem Bracketing.concludes_as_series (eval : ο → σ → Verdict σ ρ) (c : Connective)
    (b : Bracketing ο) (keeps : ∀ op ∈ b.operands, Row.KeepsPlace eval op)
    (calls : List (Call ο)) (written : calls.flatMap Call.expand = b.calls c) (s : σ) :
    ∃ matched t, Call.Concludes eval s calls matched t ∧
      Call.Concludes eval s (Call.series c b.operands) matched t ∧
      Call.invocations eval (.start s) (calls ++ [.result])
        = Call.invocations eval (.start s) (Call.series c b.operands ++ [.result]) := by
  have spelled : (b.phrase c .done).SpelledBy calls := by
    refine ⟨?_, b.legal_phrase c .done false, b.hasOperand_phrase c .done⟩
    rw [written, calls_phrase]
    exact List.append_nil _
  obtain ⟨grouped, grouped_invoked⟩ := spelled.concludes eval s
  rw [verdict_phrase keeps] at grouped grouped_invoked
  cases listed : b.operands with
  | nil => exact absurd listed b.operands_ne_nil
  | cons first others =>
    obtain ⟨flat, flat_invoked⟩ :=
      (Row.mk first (others.map fun op => (c, op))).flat_spelledBy.concludes eval s
    rw [Row.verdict_flat_map, ← listed] at flat flat_invoked
    exact ⟨_, _, grouped, flat, grouped_invoked.trans flat_invoked.symm⟩

end

/-- Four characters in a row, of which the first two make a group, the third is
a group by itself, and all but the last are a group again. -/
def Bracketing.abxc : Bracketing Primitive :=
  let letter (x : Char) : Bracketing Primitive := .operand (.matching x .one)
  .join (.group (.join (.group (.join (letter 'a') (letter 'b'))) (.group (letter 'x'))))
    (letter 'c')

/-- Joined by `and`, the series fails at its third operand, which is run behind
the first two. The fourth is not run, and the stream is back at the start, with
groups and without. -/
theorem Bracketing.concludes_as_series_abxc :
    (∀ op ∈ abxc.operands, ∀ s : Tape #['a', 'b', 'c'],
      (op.verdict s).matched = false → (op.verdict s).stream = s) ∧
    Call.Concludes Primitive.verdict (Tape.clamped #['a', 'b', 'c'] 0) (abxc.calls .and) false
      (.clamped _ 0) ∧
    Call.invocations Primitive.verdict (.start (Tape.clamped #['a', 'b', 'c'] 0))
        (abxc.calls .and ++ [.result])
      = [(.matching 'a' .one, .clamped _ 0), (.matching 'b' .one, .clamped _ 1),
          (.matching 'x' .one, .clamped _ 2)] := by
  have keeps : ∀ op ∈ abxc.operands, ∀ s : Tape #['a', 'b', 'c'],
      (op.verdict s).matched = false → (op.verdict s).stream = s :=
    fun _ _ _ failed => Primitive.stream_apply_of_failed failed
  obtain ⟨matched, t, grouped, flat, same⟩ :=
    concludes_as_series Primitive.verdict .and abxc keeps (abxc.calls .and) rfl (.clamped _ 0)
  refine ⟨keeps, ?_, same.trans rfl⟩
  -- What the series comes to can be computed, and the bracketed series comes to the same.
  obtain ⟨_, outcome, last, reply, stream⟩ := flat
  cases last
  cases reply
  cases stream
  exact grouped

end ScanExpr
