import ScanExpr.Proofs.Phrase.Bracketing

/-!
# `ScanExpr.Proofs.Phrase.Repetition`: counting, and writing it out

There is a primitive that consumes between `low` and `high` characters of a
class. It counts in a loop, and if it has counted too few it takes the stream
back itself. The same can be written out as a group of `low` primitives that
consume one character and `high - low` that may, joined by `and`. Here nothing
is counted. What comes after the first miss is skipped, and it is the group
that takes the stream back.

* `Valuation.tallies_replicate_one`, `Valuation.tallies_optional`: from any
  point of the group on, its operands come to what the loop comes to that has
  counted the characters before.
* `Reached.after_repetition_eq_between`: in every state that the use of a
  matcher leads to, the group and the primitive lead to the same state.
-/

set_option autoImplicit false

namespace ScanExpr

variable {σ μ ρ ο : Type}

/-! ### The rounds of a run -/

section

variable [CharStream σ μ] {accept : Char → Bool} {max count : Nat} {s : σ}

/-- A run begins with what is consumed as a single character, if it may take
one more. -/
theorem consumeRun_of_taken (room : max = 0 ∨ count < max)
    (taken : (consumeOne accept s).1 = true) :
    consumeRun accept max count s
      = consumeRun accept max (count + 1) (consumeOne accept s).2 := by
  have round := Reads.consumeRun_eq accept max count s
  rw [if_pos room] at round
  rw [consumeOne] at taken
  rw [round, consumeOne]
  cases peeked : CharStream.peek s with
  | none =>
    rw [peeked] at taken
    cases taken
  | some c =>
    rw [peeked] at taken
    cases accepted : accept c with
    | true => simp only [accepted, if_true]
    | false =>
      simp only [accepted] at taken
      cases taken

/-- A run ends where no single character is consumed. -/
theorem consumeRun_of_missed (missed : (consumeOne accept s).1 = false) :
    consumeRun accept max count s = (count, s) := by
  rw [consumeOne] at missed
  rw [Reads.consumeRun_eq]
  cases peeked : CharStream.peek s with
  | none => exact ite_self _
  | some c =>
    rw [peeked] at missed
    cases accepted : accept c with
    | true =>
      simp only [accepted, if_true] at missed
      cases missed
    | false =>
      simp only [accepted]
      exact ite_self _

/-- A run that may take no more stays where it is. -/
theorem consumeRun_of_full (full : ¬(max = 0 ∨ count < max)) :
    consumeRun accept max count s = (count, s) := by
  rw [Reads.consumeRun_eq, if_neg full]

/-- A run does not lose what has been counted before. -/
theorem le_consumeRun (accept : Char → Bool) (max count : Nat) (s : σ) :
    count ≤ (consumeRun accept max count s).1 := by
  rcases lt_consumeRun_or_eq accept max count s with more | stops
  · exact Nat.le_of_lt more
  · exact Nat.le_of_eq (congrArg Prod.fst stops).symm

/-- Where there is no limit, it does not matter what has been counted before. -/
theorem stream_consumeRun_unlimited (accept : Char → Bool) (count other : Nat) (s : σ) :
    (consumeRun accept 0 count s).2 = (consumeRun accept 0 other s).2 := by
  -- Round by round; without a limit the count decides nothing.
  fun_induction consumeRun accept 0 count s generalizing other with
  | case1 count s room c peeked accepted ih =>
    rw [ih (other + 1), Reads.consumeRun_eq accept 0 other, peeked]
    simp only [accepted, if_true, true_or]
  | case2 count s room c peeked rejected =>
    rw [Reads.consumeRun_eq, if_pos (.inl rfl), peeked]
    simp only [if_neg rejected]
  | case3 count s room peeked =>
    rw [Reads.consumeRun_eq, if_pos (.inl rfl), peeked]
  | case4 count s full => exact absurd (.inl rfl) full

end

/-! ### The repetition written out -/

/-- Primitives that consume one character each, or may, and together consume at
least `low` and at most `high`. A `high` of zero sets no limit. -/
def Primitive.repetition (consume : Shape → Primitive) (low high : Nat) : List Primitive :=
  List.replicate low (consume .one) ++
    if high = 0 then [consume .zeroOrMore] else List.replicate (high - low) (consume .zeroOrOne)

/-- The repetition as a group. -/
def Call.repetition (consume : Shape → Primitive) (low high : Nat) : List (Call Primitive) :=
  .enterGroup :: (Call.series .and (Primitive.repetition consume low high)
    ++ [.leaveGroup .required])

/-- There is something to repeat, even if it may be missing. -/
theorem Primitive.repetition_ne_nil (consume : Shape → Primitive) (low high : Nat) :
    repetition consume low high ≠ [] := by
  intro empty
  obtain ⟨needed, optional⟩ := List.append_eq_nil_iff.1 empty
  have none_needed : low = 0 := (List.replicate_eq_nil_iff _).1 needed
  split at optional
  · cases optional
  · have none_optional : high - low = 0 := (List.replicate_eq_nil_iff _).1 optional
    omega

namespace Valuation

variable [CharStream σ μ] {accept : Char → Bool} {low max count : Nat}

/-- Optional characters up to the limit go on as a run does that has the same
limit. -/
theorem series_replicate_zeroOrOne (accept : Char → Bool) {n : Nat} (limited : max ≠ 0)
    (full : count + n = max) (s : σ) :
    let v := series Primitive.verdict .and (List.replicate n (.consume accept .zeroOrOne)) true s
    v.matched = true ∧ v.stream = (consumeRun accept max count s).2 := by
  -- By the number of optional characters, which is what the run has left to take.
  induction n generalizing count s with
  | zero =>
    have no_room : ¬(max = 0 ∨ count < max) := by omega
    rw [consumeRun_of_full no_room]
    exact ⟨rfl, rfl⟩
  | succ n ih =>
    have room : max = 0 ∨ count < max := by omega
    have full : count + 1 + n = max := by omega
    have ⟨matched, stream⟩ := ih full (consumeOne accept s).2
    refine ⟨matched, stream.trans ?_⟩
    cases taken : (consumeOne accept s).1 with
    | true => rw [consumeRun_of_taken room taken]
    | false =>
      -- What misses once misses again.
      rw [consumeOne_of_failed taken, consumeRun_of_missed taken, consumeRun_of_missed taken]

/-- The valuation is what a run comes to that has to count at least `low`
characters. -/
structure Tallies (v : Valuation Primitive σ) (low : Nat) (run : Nat × σ) : Prop where
  matched : v.matched = decide (low ≤ run.1)
  stream : v.matched = true → v.stream = run.2

/-- What may follow after enough characters comes to what the run comes to that
has counted these. -/
theorem tallies_optional {high : Nat} (sensible : high = 0 ∨ low ≤ high) (accept : Char → Bool)
    (s : σ) :
    (series Primitive.verdict .and
      (if high = 0 then [.consume accept .zeroOrMore]
        else List.replicate (high - low) (.consume accept .zeroOrOne)) true s).Tallies low
      (consumeRun accept high low s) := by
  have enough := le_consumeRun accept high low s
  by_cases unlimited : high = 0
  · rw [if_pos unlimited]
    subst unlimited
    exact ⟨(decide_eq_true enough).symm, fun _ => stream_consumeRun_unlimited accept 0 low s⟩
  · rw [if_neg unlimited]
    have full : low + (high - low) = high := by omega
    have ⟨matched, stream⟩ := series_replicate_zeroOrOne accept unlimited full s
    exact ⟨matched.trans (decide_eq_true enough).symm, fun _ => stream⟩

/-- The characters that are needed before it are counted in by a run that has
not counted them yet. -/
theorem tallies_replicate_one {rest : List Primitive} {n : Nat} (within : max = 0 ∨ low ≤ max)
    (others : ∀ s : σ, (series Primitive.verdict .and rest true s).Tallies low
      (consumeRun accept max low s)) (counted : count + n = low) (s : σ) :
    (series Primitive.verdict .and (List.replicate n (.consume accept .one) ++ rest) true s).Tallies
      low (consumeRun accept max count s) := by
  -- By the number of characters that are still needed, with as many counted as are missing.
  induction n generalizing count s with
  | zero =>
    obtain rfl : count = low := counted
    exact others s
  | succ n ih =>
    have room : max = 0 ∨ count < max := by omega
    have first : series Primitive.verdict .and
        (List.replicate (n + 1) (.consume accept .one) ++ rest) true s
        = (series Primitive.verdict .and (List.replicate n (.consume accept .one) ++ rest)
            (consumeOne accept s).1 (consumeOne accept s).2).since [(.consume accept .one, s)] :=
      series_cons_neutral Primitive.verdict .and _ _ s
    rw [first]
    cases taken : (consumeOne accept s).1 with
    | true =>
      rw [consumeRun_of_taken room taken]
      have counted : count + 1 + n = low := by omega
      have ⟨matched, stream⟩ := ih counted (consumeOne accept s).2
      exact ⟨matched, stream⟩
    | false =>
      -- The others are skipped, and the run has ended with too few.
      rw [series_of_decides Primitive.verdict .and rfl, consumeRun_of_missed taken]
      have short : ¬ low ≤ count := by omega
      exact ⟨(decide_eq_false short).symm, Bool.noConfusion⟩

/-- The repetition written out comes to what the primitive comes to that
counts. -/
theorem ends_series_repetition [LawfulRewindable σ] {high : Nat} (sensible : high = 0 ∨ low ≤ high)
    (accept : Char → Bool) (s : σ) :
    Row.ends ((series Primitive.verdict .and
        (Primitive.repetition (.consume accept) low high) true s).orBack s)
      = Row.outcome Primitive.verdict (.consume accept (.between low high)) s := by
  have tallied : (series Primitive.verdict .and
      (Primitive.repetition (.consume accept) low high) true s).Tallies low
      (consumeRun accept high 0 s) :=
    tallies_replicate_one sensible (tallies_optional sensible accept) (Nat.zero_add low) s
  have uncrossed : ¬(high ≠ 0 ∧ high < low) := by omega
  show _ = consumeBetween accept low high s
  rw [consumeBetween, if_neg uncrossed]
  generalize series Primitive.verdict .and (Primitive.repetition (.consume accept) low high) true s
    = v at tallied ⊢
  generalize consumeRun accept high 0 s = run at tallied ⊢
  obtain ⟨n, t⟩ := run
  obtain ⟨matched, stream⟩ := tallied
  -- With too few, both go back: the loop to its mark, and the group to where it began.
  by_cases enough : low ≤ n
  · have matched : v.matched = true := matched.trans (decide_eq_true enough)
    rw [Row.ends, orBack, matched, stream matched]
    simp only [Nat.not_lt.2 enough, if_true, if_false]
  · have failed : v.matched = false := matched.trans (decide_eq_false enough)
    rw [Row.ends, orBack, failed]
    simp only [Nat.not_le.1 enough, if_true, LawfulRewindable.rewind_mark]
    rfl

end Valuation

/-! ### The matcher on both -/

section

variable [Rewindable σ μ] [LawfulRewindable σ]

/-- The walk through a whole expression comes to its value. -/
theorem Phrase.verdict_eq_walk (eval : ο → σ → Verdict σ ρ) (p : Phrase ο) (s : σ) :
    p.verdict eval s
      = let w := p.walk eval (Level.outermost (mark s)) s
        ⟨w.level.result, w.back, w.invoked⟩ := by
  rw [verdict, ← valuation_walk_outermost]
  show Valuation.mk _ _ _ = Valuation.mk _ (if _ then _ else rewind _ (Level.entry _)) _
  rw [entry_walk]
  show _ = Valuation.mk _ (if _ then _ else rewind _ (mark s)) _
  rw [LawfulRewindable.rewind_mark]
  rfl

/-- In every state that the use of a matcher leads to, an expression in a group
and an operand that does what the expression does lead to the same state. -/
theorem Reached.after_group_eq_after_attempt {ο' ρ' : Type} {eval' : ο' → σ → Verdict σ ρ'}
    {m : Matcher σ μ} {j : Journal σ} {phase : Option Phase} (reached : Reached eval' m j phase)
    (eval : ο → σ → Verdict σ ρ) {p : Phrase ο} {body : List (Call ο)} (spelled : p.SpelledBy body)
    {op : ο} (same : Row.ends (p.verdict eval m.stream) = Row.outcome eval op m.stream) :
    Call.Accepted eval m (.enterGroup :: (body ++ [.leaveGroup .required])) ∧
    Call.after eval m (.enterGroup :: (body ++ [.leaveGroup .required]))
      = Call.after eval m [.attempt op] := by
  obtain ⟨made, grouped, _⟩ :=
    Phrase.after_group_spelled eval spelled.calls spelled.legal m .required
  refine ⟨made, ?_⟩
  rw [grouped, reached.coherent.skipsChild_eq, Call.after_cons, Call.after_nil]
  cases next : m.current.skipsNext with
  | true =>
    -- Both are skipped.
    obtain ⟨failed, back, _⟩ := p.walk_idle eval m.stream
    rw [failed, back, Call.run_attempt_of_skipsNext next]
    rfl
  | false =>
    rw [Call.run_attempt_of_runs next]
    rw [p.verdict_eq_walk] at same
    have ⟨matched, stream⟩ := Prod.mk.inj same
    rw [← matched, ← stream]
    rfl

end

/-- In every state that the use of a matcher leads to, a bounded repetition
and the group in which it is written out lead to the same state, with the same
stream, levels and notes. What is repeated is a member of a class, or a
character that is not. -/
theorem Reached.after_repetition_eq_between [CharStream σ μ] [LawfulRewindable σ] {ο' ρ' : Type}
    {eval' : ο' → σ → Verdict σ ρ'} {m : Matcher σ μ} {j : Journal σ} {phase : Option Phase}
    (reached : Reached eval' m j phase) {κ : Type} [CharClass κ] (k : κ)
    (consume : Shape → Primitive) (form : consume ∈ [Primitive.matching k, Primitive.excluding k])
    {low high : Nat} (sensible : high = 0 ∨ low ≤ high) :
    Call.Accepted Primitive.verdict m (Call.repetition consume low high) ∧
    Call.after Primitive.verdict m (Call.repetition consume low high)
      = Call.after Primitive.verdict m [.attempt (consume (.between low high))] := by
  -- Either way some characters are accepted and the others are not.
  obtain ⟨accept, rfl⟩ : ∃ accept, consume = Primitive.consume accept := by
    rcases List.mem_cons.1 form with rfl | others
    · exact ⟨CharClass.contains k, rfl⟩
    · obtain rfl := List.mem_singleton.1 others
      exact ⟨fun c => !CharClass.contains k c, rfl⟩
  have counts := Valuation.ends_series_repetition sensible accept m.stream
  rw [Call.repetition]
  cases written : Primitive.repetition (Primitive.consume accept) low high with
  | nil => exact absurd written (Primitive.repetition_ne_nil _ low high)
  | cons first others =>
    have spelled := (Row.mk first (others.map fun op => (Connective.and, op))).flat_spelledBy
    apply reached.after_group_eq_after_attempt Primitive.verdict spelled
    rw [Row.verdict_flat_map, ← written]
    exact counts

/-- After an `or` on a failure, in a group that begins at the `é`, one to three
vowels are consumed, and the `x` ends them. Three characters before an `x` are
not to be had, and the stream is taken back to the `é`. -/
theorem Reached.after_repetition_eq_between_vowels :
    ∃ (src : Source) (m : Matcher (Cursor src) Cursor.Mark) (j : Journal (Cursor src)),
      src.text = String.ofList ['p', 'é', 'a', 'x'] ∧ Reached Primitive.verdict m j none ∧
      m.depth = 1 ∧ m.stream.pos = 1 ∧ m.current.pending = some .or ∧
      (let vowels := Primitive.matching ['a', 'é']
        let after := Call.after Primitive.verdict m [.attempt (vowels (.between 1 3))]
        Call.after Primitive.verdict m (Call.repetition vowels 1 3) = after ∧
          after.current.result = true ∧ after.stream.pos = 4) ∧
      (let others := Primitive.excluding 'x'
        let after := Call.after Primitive.verdict m [.attempt (others (.between 3 4))]
        Call.after Primitive.verdict m (Call.repetition others 3 4) = after ∧
          after.current.result = false ∧ after.stream.pos = 1) := by
  let src : Source := { text := String.ofList ['p', 'é', 'a', 'x'], fits := by decide }
  have start : Reached Primitive.verdict (.start (Cursor.start src)) _ none := .new _
  have grouped := (start.call (.attempt (.matching 'p' .one))).call (.connectEnter .and)
  have reached := (grouped.call (.attempt (.matching 'x' .one))).call (.connect .or)
  have ⟨_, consumed⟩ := reached.after_repetition_eq_between ['a', 'é'] (.matching ['a', 'é'])
    List.mem_cons_self (.inr (by decide) : 3 = 0 ∨ 1 ≤ 3)
  have ⟨_, missed⟩ := reached.after_repetition_eq_between 'x' (.excluding 'x')
    (List.mem_cons_of_mem _ List.mem_cons_self) (.inr (by decide) : 4 = 0 ∨ 3 ≤ 4)
  -- In the group each operand consumes one character, so what it comes to can be computed.
  refine ⟨src, _, _, rfl, reached, rfl, ?_, ?_, ⟨consumed, ?_⟩, ⟨missed, ?_⟩⟩
  · decide +kernel
  · decide +kernel
  · rw [← consumed]
    decide +kernel
  · rw [← missed]
    decide +kernel

end ScanExpr
