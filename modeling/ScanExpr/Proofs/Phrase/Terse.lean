import ScanExpr.Proofs.Matcher.Chain
import ScanExpr.Proofs.Phrase.Bracketing
import ScanExpr.Proofs.Phrase.Choice

/-!
# `ScanExpr.Proofs.Phrase.Terse`: ordered choice with few groups

`Choice.calls` puts a group around every connective. Nobody writes an
expression like that: what comes one after another needs no group of its own,
and is given one only where it makes up an alternative. `Choice.terse` is the
expression written in this way.

The groups that are left out can be seen while the expression is evaluated.
Where one part of a sequence has failed the stream stays behind the parts
before it, until the group around the sequence ends or the whole expression
does. So a sequence comes to what the grammar says, but for the stream after
a failure (`Choice.exists_evaluate_terse`); what follows it is skipped then.

`Choice.concludes_terse` is the main result: handed to a matcher in this way
the expression is read as the same grammar of ordered choice.
`Choice.run_terse` says it of typed expressions.
-/

set_option autoImplicit false

namespace ScanExpr

/-! ### Steps that are all calls -/

/-- Where every step of a path amounts to a call, taking the path is making
the calls. -/
theorem Chain.follow_eq_runAll {σ μ ρ ο : Type} [Rewindable σ μ] (eval : ο → σ → Verdict σ ρ)
    {p : Phase} (c : Chain ο p) {m : Matcher σ μ} (fits : p.Fits m) {calls : List (Call ο)}
    (amounts : c.calls = calls.map some) : c.follow eval m = Call.runAll eval m calls := by
  -- Along the path, with the phases to say that no call would be refused.
  induction c generalizing m calls with
  | stop =>
    cases calls with
    | nil => rfl
    | cons call calls => cases amounts
  | link first rest ih =>
    cases calls with
    | nil => cases amounts
    | cons call calls =>
      obtain ⟨here, later⟩ := List.cons.inj amounts
      have made : first.perform eval m = call.run eval m := by
        rw [first.perform_of_call? here,
          Call.run_of_refusal?_eq_none (fits.refusal?_eq_none here)]
      rw [follow, Call.runAll, ← made]
      exact congrArg (_ :: ·) (ih (fits.perform first) later)

namespace Choice

/-- The expression as a part of a phrase, with what follows it. What comes
one after another makes a group where it has to be a single operand. -/
def terse : Choice → (single : Bool) → Phrase Primitive → Phrase Primitive
  | .leaf p, _, rest => .operand p rest
  | .both first second, false, rest =>
    first.terse false (.connective .and (second.terse false rest))
  | .both first second, true, rest =>
    .group (first.terse false (.connective .and (second.terse false .done))) .required rest
  | .either first second, _, rest =>
    .group (first.terse true (.connective .or (second.terse true .done))) .required rest
  | .maybe part, _, rest => .group (part.terse false .done) .optional rest

/-- Written with few groups, an expression makes sense at any point of a level. -/
theorem legal_terse (tree : Choice) (single : Bool) (rest : Phrase Primitive)
    (attempted : Bool) : (tree.terse single rest).legal attempted = rest.legal true := by
  induction tree generalizing single rest attempted with
  | leaf p => rfl
  | both first second ihFirst ihSecond =>
    cases single <;> simp [terse, Phrase.legal, ihFirst, ihSecond]
  | either first second ihFirst ihSecond => simp [terse, Phrase.legal, ihFirst, ihSecond]
  | maybe part ih => simp [terse, Phrase.legal, ih]

/-- Written with few groups, an expression has an operand. -/
theorem hasOperand_terse (tree : Choice) (single : Bool) (rest : Phrase Primitive) :
    (tree.terse single rest).hasOperand = true := by
  induction tree generalizing single rest with
  | leaf p | either first second _ _ | maybe part _ => rfl
  | both first second ihFirst _ =>
    cases single with
    | true => rfl
    | false => exact ihFirst _ _

/-! ### What it comes to -/

section

variable {σ μ : Type} [CharStream σ μ] {View : σ → List Char → Prop}

/-- Behind a part that has failed a whole sequence is skipped. -/
theorem evaluate_terse_of_failed (tree : Choice) (single : Bool) (rest : Phrase Primitive)
    (s : σ) :
    (tree.terse single rest).evaluate Primitive.verdict (some .and) false s
      = rest.evaluate Primitive.verdict none false s := by
  induction tree generalizing single rest with
  | leaf p | either first second _ _ | maybe part _ => rfl
  | both first second ihFirst ihSecond =>
    cases single with
    | true => rfl
    | false => exact (ihFirst _ _).trans (ihSecond _ _)

/-- A second alternative is skipped if the first one matched. -/
theorem evaluate_terse_of_matched (tree : Choice) (rest : Phrase Primitive) (s : σ) :
    (tree.terse true rest).evaluate Primitive.verdict (some .or) true s
      = rest.evaluate Primitive.verdict none true s := by
  cases tree <;> rfl

variable [LawfulRewindable σ]

/-- An expression that is not skipped is evaluated to what the grammar says,
and its outcome becomes the running result. If it is a single operand it
stays in place when it fails. -/
theorem exists_evaluate_terse (reads : Reads View) (tree : Choice) (single : Bool)
    {latest : Option Connective} {running : Bool} (runs : Phrase.skips latest running = false)
    (rest : Phrase Primitive) {s : σ} {cs : List Char} (view : View s cs) :
    ∃ v t, Agrees View t (tree.remainder? cs) v ∧ (single = true → t = s) ∧
      (tree.terse single rest).evaluate Primitive.verdict latest running s
        = (rest.evaluate Primitive.verdict none v.matched v.stream).since v.invoked := by
  -- What is evaluated: the first part of a level, and the second part after its connective.
  have first_runs : Phrase.skips none false = false := rfl
  have and_runs : Phrase.skips (some .and) true = false := rfl
  have or_runs : Phrase.skips (some .or) false = false := rfl
  induction tree generalizing single latest running rest s cs with
  | leaf p =>
    refine ⟨⟨(p.apply s).1, (p.apply s).2, [(p, s)]⟩, s, ?_, fun _ => rfl,
      if_neg (Bool.eq_false_iff.1 runs)⟩
    rcases reads.apply p view with ⟨left, t, told, taken, rest⟩ | ⟨told, stays⟩
    · rw [remainder?, told, taken]
      exact ⟨rfl, rest⟩
    · rw [remainder?, told, stays]
      exact ⟨rfl, rfl⟩
  | both first second ihFirst ihSecond =>
    -- A sequence may stand in the level itself or in a group; what it comes to is the same.
    have sequence {latest : Option Connective} {running : Bool}
        (runs : Phrase.skips latest running = false) (rest : Phrase Primitive) :
        ∃ v t, Agrees View t ((both first second).remainder? cs) v ∧
          (first.terse false (.connective .and (second.terse false rest))).evaluate
              Primitive.verdict latest running s
            = (rest.evaluate Primitive.verdict none v.matched v.stream).since v.invoked := by
      obtain ⟨v, t, agrees, _, evaluated⟩ :=
        ihFirst false runs (.connective .and (second.terse false rest)) view
      rw [evaluated, Phrase.evaluate, remainder?]
      cases told : first.remainder? cs with
      | some middle =>
        -- After a match the second part is evaluated where the first one ended.
        rw [told] at agrees
        obtain ⟨matched, view⟩ := agrees
        obtain ⟨w, u, agrees, _, evaluated⟩ := ihSecond false and_runs rest view
        rw [matched, evaluated, Valuation.since_since]
        exact ⟨⟨w.matched, w.stream, v.invoked ++ w.invoked⟩, u, agrees, rfl⟩
      | none =>
        rw [told] at agrees
        obtain ⟨failed, stays⟩ := agrees
        rw [failed, evaluate_terse_of_failed]
        exact ⟨⟨false, v.stream, v.invoked⟩, v.stream, ⟨rfl, rfl⟩, rfl⟩
    cases single with
    | false =>
      obtain ⟨v, t, agrees, evaluated⟩ := sequence runs rest
      exact ⟨v, t, agrees, Bool.noConfusion, evaluated⟩
    | true =>
      obtain ⟨v, t, agrees, evaluated⟩ := sequence first_runs .done
      have body : Agrees View s ((both first second).remainder? cs)
          (((first.terse false (.connective .and (second.terse false .done))).evaluate
            Primitive.verdict none false s).orBack s) := by
        rw [evaluated]
        exact agrees.orBack
      obtain ⟨w, agrees, evaluated⟩ := exists_evaluate_required runs _ rest body
      exact ⟨w, s, agrees, fun _ => rfl, evaluated⟩
  | either first second ihFirst ihSecond =>
    obtain ⟨v, t, agrees, back, evaluated⟩ :=
      ihFirst true first_runs (.connective .or (second.terse true .done)) view
    -- The first alternative is a single operand, so a failure has left the stream where it was.
    obtain rfl := back rfl
    obtain ⟨w, u, agrees', _, evaluated'⟩ := ihSecond true or_runs .done view
    have other : Agrees View u (second.remainder? cs)
        ((second.terse true .done).evaluate Primitive.verdict (some .or) false t) := by
      rw [evaluated']
      exact agrees'
    have body : Agrees View t ((either first second).remainder? cs)
        (((first.terse true (.connective .or (second.terse true .done))).evaluate
          Primitive.verdict none false t).orBack t) := by
      rw [remainder?_either, evaluated]
      exact agrees.orElse (evaluate_terse_of_matched second .done) other
    obtain ⟨w, agrees, evaluated⟩ := exists_evaluate_required runs _ rest body
    exact ⟨w, t, agrees, fun _ => rfl, evaluated⟩
  | maybe part ih =>
    obtain ⟨v, t, agrees, _, evaluated⟩ := ih false first_runs .done view
    have body : Agrees View t (part.remainder? cs)
        ((part.terse false .done).evaluate Primitive.verdict none false s) := by
      rw [evaluated]
      exact agrees
    obtain ⟨w, agrees, evaluated⟩ := exists_evaluate_optional runs _ rest view body
    rw [← remainder?_maybe] at agrees
    exact ⟨w, s, agrees, fun _ => rfl, evaluated⟩

/-- The value of the whole expression is what the grammar says. -/
theorem verdict_terse (reads : Reads View) (tree : Choice) {s : σ} {cs : List Char}
    (view : View s cs) :
    Agrees View s (tree.remainder? cs) ((tree.terse false .done).verdict Primitive.verdict s) := by
  have first_runs : Phrase.skips none false = false := rfl
  obtain ⟨v, t, agrees, _, evaluated⟩ :=
    exists_evaluate_terse reads tree false first_runs .done view
  rw [Phrase.verdict, evaluated]
  exact agrees.orBack

/-- Handed to a matcher with few groups, the expression is accepted and
concluded as the grammar says. -/
theorem concludes_terse (reads : Reads View) (tree : Choice) {calls : List (Call Primitive)}
    (written : calls.flatMap Call.expand = (tree.terse false .done).calls) {s : σ}
    {cs : List Char} (view : View s cs) :
    ∃ v, Agrees View s (tree.remainder? cs) v ∧
      Call.Accepted Primitive.verdict (.start s) (calls ++ [.result]) ∧
      (Call.runAll Primitive.verdict (.start s) (calls ++ [.result])).getLast?
        = some ⟨.concluded v.matched, .start v.stream, [.concluded v.matched]⟩ := by
  have spelled : (tree.terse false .done).SpelledBy calls :=
    ⟨written.symm, legal_terse tree false .done false, hasOperand_terse tree false .done⟩
  obtain ⟨accepted, told, _⟩ := spelled.result Primitive.verdict s
  refine ⟨_, verdict_terse reads tree view, accepted, ?_⟩
  have ⟨_, last⟩ := Call.accepted_append.1 accepted
  rw [accepted.getLast?_runAll_result,
    ← Call.run_of_refusal?_eq_none (Call.accepted_cons.1 last).1, told]

/-- A typed expression with few groups is concluded as the grammar says,
whatever the matcher was doing before. -/
theorem run_terse (reads : Reads View) (tree : Choice)
    {chain : Chain Primitive (.operand 0 true)} {calls : List (Call Primitive)}
    (amounts : chain.calls = (calls ++ [Call.result]).map some)
    (written : calls.flatMap Call.expand = (tree.terse false .done).calls) {m : Matcher σ μ}
    {cs : List Char} (view : View m.stream cs) :
    ∃ v, Agrees View m.stream (tree.remainder? cs) v ∧
      (chain.run Primitive.verdict m).getLast?
        = some ⟨.concluded v.matched, .start v.stream, [.concluded v.matched]⟩ := by
  obtain ⟨v, agrees, _, last⟩ := concludes_terse reads tree written view
  refine ⟨v, agrees, ?_⟩
  have fits : (Phase.operand 0 true).Fits m.restart := rfl
  rw [Chain.run, chain.follow_eq_runAll Primitive.verdict fits amounts]
  exact last

end

end Choice

end ScanExpr
