import ScanExpr.Proofs.Phrase.Evaluate
import ScanExpr.Proofs.Stream.Boundary

/-!
# `ScanExpr.Proofs.Phrase.Choice`: ordered choice

A `Choice` is an expression in which every connective joins two parts.
`Choice.remainder?` is how such an expression is read as a grammar of
ordered choice: of two alternatives the second is tried, from the same
place, only where the first does not match, and an optional part that does
not match stands for nothing.

`Choice.calls` hands the expression to a matcher with every connective and
every option in a group of its own. `Choice.runAll_calls_result` is the
main result: on a cursor between two characters of any text no call is
refused, and the matcher comes to the result that the grammar says, at the
place that it says.

What carries the induction is a single operand in any surroundings: as
part of a level it runs like a primitive that consumes what the grammar
says (`Choice.exists_evaluate`).
-/

set_option autoImplicit false

namespace ScanExpr

/-- An expression of primitives, each connective between two parts. -/
inductive Choice where
  /-- A primitive. -/
  | leaf (p : Primitive)
  /-- One part and then another. -/
  | both (first second : Choice)
  /-- One part, or else another. -/
  | either (first second : Choice)
  /-- A part, or else nothing. -/
  | maybe (part : Choice)

namespace Choice

/-- The characters that are left after the expression if it matches. -/
def remainder? : Choice → List Char → Option (List Char)
  | .leaf p, cs => p.remainder? cs
  | .both first second, cs =>
    match first.remainder? cs with
    | some middle => second.remainder? middle
    | none => none
  | .either first second, cs =>
    match first.remainder? cs with
    | some rest => some rest
    | none => second.remainder? cs
  | .maybe part, cs =>
    match part.remainder? cs with
    | some rest => some rest
    | none => some cs

/-- Of two alternatives the second is only asked where the first has nothing
left. -/
theorem remainder?_either (first second : Choice) (cs : List Char) :
    (either first second).remainder? cs = (first.remainder? cs).or (second.remainder? cs) := by
  rw [remainder?]
  cases first.remainder? cs <;> rfl

/-- An optional part always matches, and leaves everything if the part does not
match. -/
theorem remainder?_maybe (part : Choice) (cs : List Char) :
    (maybe part).remainder? cs = some ((part.remainder? cs).getD cs) := by
  rw [remainder?]
  cases part.remainder? cs <;> rfl

/-- The calls that hand the expression to a matcher. -/
def calls : Choice → List (Call Primitive)
  | .leaf p => [.attempt p]
  | .both first second =>
    .enterGroup :: (first.calls ++ .connect .and :: (second.calls ++ [.leaveGroup .required]))
  | .either first second =>
    .enterGroup :: (first.calls ++ .connect .or :: (second.calls ++ [.leaveGroup .required]))
  | .maybe part => .enterGroup :: (part.calls ++ [.leaveGroup .optional])

/-! ### As a phrase -/

/-- The expression as one operand or group of a phrase, with what follows
it. -/
def phrase : Choice → Phrase Primitive → Phrase Primitive
  | .leaf p, rest => .operand p rest
  | .both first second, rest =>
    .group (first.phrase (.connective .and (second.phrase .done))) .required rest
  | .either first second, rest =>
    .group (first.phrase (.connective .or (second.phrase .done))) .required rest
  | .maybe part, rest => .group (part.phrase .done) .optional rest

/-- The calls of the phrase are those of the expression, and then the rest. -/
theorem calls_phrase (tree : Choice) (rest : Phrase Primitive) :
    (tree.phrase rest).calls = tree.calls ++ rest.calls := by
  induction tree generalizing rest with
  | leaf p => rfl
  | both first second ihFirst ihSecond | either first second ihFirst ihSecond =>
    simp [phrase, calls, Phrase.calls, ihFirst, ihSecond]
  | maybe part ih => simp [phrase, calls, Phrase.calls, ih]

/-- An expression makes sense at any point of a level. -/
theorem legal_phrase (tree : Choice) (rest : Phrase Primitive) (attempted : Bool) :
    (tree.phrase rest).legal attempted = rest.legal true := by
  induction tree generalizing rest attempted with
  | leaf p => rfl
  | both first second ihFirst ihSecond | either first second ihFirst ihSecond =>
    simp [phrase, Phrase.legal, ihFirst, ihSecond]
  | maybe part ih => simp [phrase, Phrase.legal, ih]

/-- An expression has an operand. -/
theorem hasOperand_phrase (tree : Choice) (rest : Phrase Primitive) :
    (tree.phrase rest).hasOperand = true := by
  cases tree <;> rfl

/-! ### As a grammar -/

section

variable {σ μ : Type} [CharStream σ μ] {View : σ → List Char → Prop}

/-- The evaluation comes to what a grammar says that leaves `left?` of what
is read from `s`: to a stream that has as much left to read, or to no
match at `s` itself. -/
def Agrees (View : σ → List Char → Prop) (s : σ) (left? : Option (List Char))
    (v : Valuation Primitive σ) : Prop :=
  match left? with
  | some left => v.matched = true ∧ View v.stream left
  | none => v.matched = false ∧ v.stream = s

/-- A skipped expression runs nothing. -/
theorem evaluate_phrase_of_skips {latest : Option Connective} {running : Bool}
    (skipped : Phrase.skips latest running = true) (tree : Choice) (rest : Phrase Primitive)
    (s : σ) :
    (tree.phrase rest).evaluate Primitive.verdict latest running s
      = rest.evaluate Primitive.verdict none running s := by
  cases tree <;> exact if_pos skipped

/-- An evaluation that agrees from any stream does so from `s` when it
takes the stream back there after a failure. -/
theorem Agrees.orBack {s t : σ} {left? : Option (List Char)} {v : Valuation Primitive σ}
    (h : Agrees View t left? v) : Agrees View s left? (v.orBack s) := by
  cases left? with
  | some left =>
    obtain ⟨matched, view⟩ := h
    refine ⟨matched, ?_⟩
    rw [Valuation.orBack, matched]
    exact view
  | none =>
    obtain ⟨failed, _⟩ := h
    refine ⟨failed, ?_⟩
    rw [Valuation.orBack, failed]
    rfl

/-- A second alternative is skipped if the first one has matched. After a
failure the stream is where it was, so the second one starts from there. -/
theorem Agrees.orElse {s t : σ} {first? second? : Option (List Char)} {v : Valuation Primitive σ}
    (h : Agrees View s first? v) {other : Phrase Primitive}
    (skipped : ∀ u : σ, other.evaluate Primitive.verdict (some .or) true u = ⟨true, u, []⟩)
    (second : Agrees View t second? (other.evaluate Primitive.verdict (some .or) false s)) :
    Agrees View s (first?.or second?)
      ((((Phrase.connective .or other).evaluate Primitive.verdict none v.matched v.stream).since
        v.invoked).orBack s) := by
  rw [Phrase.evaluate]
  cases first? with
  | some left =>
    obtain ⟨matched, view⟩ := h
    rw [matched, skipped]
    exact ⟨rfl, view⟩
  | none =>
    obtain ⟨failed, stays⟩ := h
    rw [failed, stays]
    exact Agrees.orBack second

/-- A group that has to match comes to what its body comes to. -/
theorem exists_evaluate_required {latest : Option Connective} {running : Bool}
    (runs : Phrase.skips latest running = false) (body rest : Phrase Primitive) {s : σ}
    {left? : Option (List Char)}
    (h : Agrees View s left? ((body.evaluate Primitive.verdict none false s).orBack s)) :
    ∃ v, Agrees View s left? v ∧
      (Phrase.group body .required rest).evaluate Primitive.verdict latest running s
        = (rest.evaluate Primitive.verdict none v.matched v.stream).since v.invoked := by
  refine ⟨_, h, ?_⟩
  rw [Phrase.evaluate, if_neg (Bool.eq_false_iff.1 runs)]
  show Valuation.since (Phrase.evaluate _ rest _ (_ || false) _) _ = _
  rw [Bool.or_false]

/-- A group that need not match comes to what its body comes to, or else to
a match of nothing. -/
theorem exists_evaluate_optional {latest : Option Connective} {running : Bool}
    (runs : Phrase.skips latest running = false) (body rest : Phrase Primitive) {s t : σ}
    {cs : List Char} (view : View s cs) {left? : Option (List Char)}
    (h : Agrees View t left? (body.evaluate Primitive.verdict none false s)) :
    ∃ v, Agrees View s (some (left?.getD cs)) v ∧
      (Phrase.group body .optional rest).evaluate Primitive.verdict latest running s
        = (rest.evaluate Primitive.verdict none v.matched v.stream).since v.invoked := by
  rw [Phrase.evaluate, if_neg (Bool.eq_false_iff.1 runs)]
  generalize body.evaluate Primitive.verdict none false s = inner at h ⊢
  refine ⟨⟨true, (inner.orBack s).stream, inner.invoked⟩, ⟨rfl, ?_⟩, ?_⟩
  · cases left? with
    | some left =>
      obtain ⟨matched, view⟩ := h
      rw [Valuation.orBack, matched]
      exact view
    | none =>
      rw [Valuation.stream_orBack_of_failed h.1]
      exact view
  · show Valuation.since (Phrase.evaluate _ rest _ (_ || true) _) _ = _
    rw [Bool.or_true]
    rfl

variable [LawfulRewindable σ]

/-- An expression that is not skipped is evaluated to what the grammar
says, and its outcome becomes the running result. -/
theorem exists_evaluate (reads : Reads View) (tree : Choice) {latest : Option Connective}
    {running : Bool} (runs : Phrase.skips latest running = false) (rest : Phrase Primitive)
    {s : σ} {cs : List Char} (view : View s cs) :
    ∃ v, Agrees View s (tree.remainder? cs) v ∧
      (tree.phrase rest).evaluate Primitive.verdict latest running s
        = (rest.evaluate Primitive.verdict none v.matched v.stream).since v.invoked := by
  -- What is evaluated: the first part of a level, and the second part after its connective.
  have first_runs : Phrase.skips none false = false := rfl
  have and_runs : Phrase.skips (some .and) true = false := rfl
  have or_runs : Phrase.skips (some .or) false = false := rfl
  induction tree generalizing latest running rest s cs with
  | leaf p =>
    refine ⟨⟨(p.apply s).1, (p.apply s).2, [(p, s)]⟩, ?_, if_neg (Bool.eq_false_iff.1 runs)⟩
    rcases reads.apply p view with ⟨left, t, told, taken, rest⟩ | ⟨told, stays⟩
    · rw [remainder?, told, taken]
      exact ⟨rfl, rest⟩
    · rw [remainder?, told, stays]
      exact ⟨rfl, rfl⟩
  | both first second ihFirst ihSecond =>
    apply exists_evaluate_required runs
    obtain ⟨v, agrees, evaluated⟩ :=
      ihFirst first_runs (.connective .and (second.phrase .done)) view
    rw [evaluated, remainder?]
    cases told : first.remainder? cs with
    | some middle =>
      -- After a match the second part is evaluated where the first one ended.
      rw [told] at agrees
      obtain ⟨matched, view⟩ := agrees
      obtain ⟨w, agrees, evaluated⟩ := ihSecond and_runs .done view
      rw [matched, Phrase.evaluate, evaluated]
      exact agrees.orBack
    | none =>
      rw [told] at agrees
      obtain ⟨failed, _⟩ := agrees
      rw [failed, Phrase.evaluate, evaluate_phrase_of_skips rfl]
      exact ⟨rfl, rfl⟩
  | either first second ihFirst ihSecond =>
    apply exists_evaluate_required runs
    obtain ⟨v, agrees, evaluated⟩ :=
      ihFirst first_runs (.connective .or (second.phrase .done)) view
    obtain ⟨w, agrees', evaluated'⟩ := ihSecond or_runs .done view
    have other : Agrees View s (second.remainder? cs)
        ((second.phrase .done).evaluate Primitive.verdict (some .or) false s) := by
      rw [evaluated']
      exact agrees'
    rw [remainder?_either, evaluated]
    exact agrees.orElse (evaluate_phrase_of_skips rfl second .done) other
  | maybe part ih =>
    obtain ⟨v, agrees, evaluated⟩ := ih first_runs .done view
    have body : Agrees View s (part.remainder? cs)
        ((part.phrase .done).evaluate Primitive.verdict none false s) := by
      rw [evaluated]
      exact agrees
    obtain ⟨w, agrees, evaluated⟩ := exists_evaluate_optional runs _ rest view body
    rw [← remainder?_maybe] at agrees
    exact ⟨w, agrees, evaluated⟩

end

/-! ### On a cursor -/

variable {src : Source}

/-- What a grammar leaves tells where a cursor ends up that agrees with
it. -/
theorem Agrees.ends_iff {c : Cursor src} {left? : Option (List Char)}
    {v : Valuation Primitive (Cursor src)} (h : Agrees Cursor.Precedes c left? v) :
    (∀ e : Cursor src, v.matched = true ∧ v.stream = e
      ↔ ∃ left, left? = some left ∧ e.Precedes left) ∧
    (v.matched = false ∧ v.stream = c ↔ left? = none) := by
  cases left? with
  | some left =>
    obtain ⟨matched, ends⟩ := h
    rw [matched]
    refine ⟨fun e => ?_, by simp⟩
    constructor
    · rintro ⟨_, rfl⟩
      exact ⟨left, rfl, ends⟩
    · rintro ⟨_, same, there⟩
      cases same
      exact ⟨rfl, ends.unique there⟩
  | none =>
    obtain ⟨failed, stays⟩ := h
    rw [failed, stays]
    refine ⟨fun e => ?_, by simp⟩
    constructor
    · rintro ⟨h, _⟩
      cases h
    · rintro ⟨_, h, _⟩
      cases h

/-- Handed to a matcher on a cursor between two characters, the expression
is accepted. It comes to the result true at a place exactly if the grammar
matches up to there, and to the result false at the place where it began
exactly if the grammar does not match. -/
theorem runAll_calls_result (tree : Choice) (c : Cursor src) (rest : List Char)
    (stands : c.Precedes rest) :
    Call.Accepted Primitive.verdict (.start c) (tree.calls ++ [.result]) ∧
    ∃ matched d, (Call.runAll Primitive.verdict (.start c) (tree.calls ++ [.result])).getLast?
        = some ⟨.concluded matched, .start d, [.concluded matched]⟩ ∧
      (∀ e : Cursor src, matched = true ∧ d = e
        ↔ ∃ left, tree.remainder? rest = some left ∧ e.Precedes left) ∧
      (matched = false ∧ d = c ↔ tree.remainder? rest = none) := by
  have spelled : tree.calls = (tree.phrase .done).calls := by
    rw [calls_phrase, Phrase.calls, List.append_nil]
  have legal : (tree.phrase .done).legal false = true := legal_phrase tree .done false
  have hasOperand := hasOperand_phrase tree .done
  rw [spelled]
  refine ⟨(Phrase.accepted_calls_result_iff _ _ c).2 ⟨legal, hasOperand⟩, _, _,
    Phrase.getLast?_runAll_calls_result _ _ c legal hasOperand, ?_⟩
  have first_runs : Phrase.skips none false = false := rfl
  obtain ⟨v, agrees, evaluated⟩ :=
    exists_evaluate Cursor.reads_precedes tree first_runs .done stands
  apply Agrees.ends_iff
  rw [Phrase.verdict, evaluated]
  exact Agrees.orBack agrees

/-- Two alternatives that begin alike: an `a` and then the end of the text,
or `a`s and then perhaps an `é`. -/
def forked : Choice :=
  .either (.both (.leaf (.consume (· == 'a') .one)) (.leaf .atEnd))
    (.both (.leaf (.consume (· == 'a') (.between 1 3)))
      (.maybe (.leaf (.consume (· == 'é') .one))))

/-- The first alternative reads the `a` in vain. The second reads it again,
and the `é` after it. -/
theorem runAll_calls_result_forked :
    ∃ (src : Source) (c d : Cursor src), src.text = String.ofList ['x', 'a', 'é', 'b'] ∧
      c.Precedes ['a', 'é', 'b'] ∧ d.Precedes ['b'] ∧
      Call.Accepted Primitive.verdict (.start c) (forked.calls ++ [.result]) ∧
      (Call.runAll Primitive.verdict (.start c) (forked.calls ++ [.result])).getLast?
        = some ⟨.concluded true, .start d, [.concluded true]⟩ := by
  let src : Source := { text := String.ofList ['x', 'a', 'é', 'b'], fits := by decide }
  let c : Cursor src := ⟨1, by decide⟩
  let d : Cursor src := ⟨4, by decide⟩
  have begins : c.Precedes ['a', 'é', 'b'] := ⟨['x'], String.toList_ofList, rfl⟩
  have ends : d.Precedes ['b'] := ⟨['x', 'a', 'é'], String.toList_ofList, rfl⟩
  obtain ⟨accepted, matched, e, answered, matches_iff, _⟩ :=
    runAll_calls_result forked c ['a', 'é', 'b'] begins
  have left : forked.remainder? ['a', 'é', 'b'] = some ['b'] := by decide
  obtain ⟨rfl, rfl⟩ := (matches_iff d).2 ⟨['b'], left, ends⟩
  exact ⟨src, c, d, rfl, begins, ends, accepted, answered⟩

end Choice

end ScanExpr
