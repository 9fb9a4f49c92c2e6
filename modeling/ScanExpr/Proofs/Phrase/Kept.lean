import ScanExpr.Proofs.Phrase.Evaluate
import ScanExpr.Proofs.Stream.Boundary

/-!
# `ScanExpr.Proofs.Phrase.Kept`: what a match has consumed

An operand that is run may move the stream, and a group around it that
comes to the result false takes the move back. Which moves last is only
known when all groups have been closed. `Call.kept` looks ahead: it lists
the operands that a sequence of calls runs and that are in no group that
fails later on.

`Call.readSince_eq_join_kept` is the main result. On a cursor whose
operands move forward from character to character, a match has read the
texts of the operands kept, one after another. An operand that is kept
need not have matched, nor need the result depend on it.

The induction is over the phrase that the calls spell. `Phrase.kept` finds
the operands kept without looking ahead, since the result of a group is
known where its body has been walked, and `Phrase.kept_calls` says that
both find the same, whatever calls come after the phrase. The text read in
a level is then put together from left to right
(`Phrase.exists_passed_walk`).
-/

set_option autoImplicit false

namespace ScanExpr

variable {σ μ ρ ο : Type} [Rewindable σ μ]

/-! ### Looking ahead -/

namespace Call

/-- Whether the call leaves the open groups a chance to match: it does not
close one of them on the result false. `inner` is the number of groups
that do not count, which were opened later. -/
def spares (m : Matcher σ μ) (inner : Nat) : Call ο → Bool
  | .leaveGroup _ => inner != 0 || m.current.result
  | _ => true

/-- Whether the groups that are open, less the last `inner` of them, come
to the result true. -/
def enclosingHold (eval : ο → σ → Verdict σ ρ) (m : Matcher σ μ) (inner : Nat) :
    List (Call ο) → Bool
  | [] => true
  | call :: rest =>
    call.spares m inner &&
      enclosingHold eval (call.run eval m).matcher (call.depthAfter inner) rest

/-- The operands that a sequence of calls runs and that are in no group
that is closed on the result false, in order, each with the stream that it
is run on. -/
def kept (eval : ο → σ → Verdict σ ρ) (m : Matcher σ μ) : List (Call ο) → List (ο × σ)
  | [] => []
  | call :: rest =>
    let next := (call.run eval m).matcher
    (if enclosingHold eval next 0 rest then (call.invocation? eval m).toList else [])
      ++ kept eval next rest

variable {eval : ο → σ → Verdict σ ρ}

/-- The groups hold if the call spares them and those after it do. -/
theorem enclosingHold_cons (m : Matcher σ μ) (inner : Nat) (call : Call ο) (rest : List (Call ο)) :
    enclosingHold eval m inner (call :: rest)
      = (call.spares m inner &&
          enclosingHold eval (call.run eval m).matcher (call.depthAfter inner) rest) := rfl

/-- Whether an operand is kept is told by the calls that come after it. -/
theorem kept_cons (m : Matcher σ μ) (call : Call ο) (rest : List (Call ο)) :
    kept eval m (call :: rest)
      = (if enclosingHold eval (call.run eval m).matcher 0 rest
          then (call.invocation? eval m).toList else [])
        ++ kept eval (call.run eval m).matcher rest := rfl

/-- A call that runs no operand adds nothing. -/
theorem kept_cons_of_invocation?_eq_none {m : Matcher σ μ} {call : Call ο}
    (h : call.invocation? eval m = none) (rest : List (Call ο)) :
    kept eval m (call :: rest) = kept eval (call.run eval m).matcher rest := by
  rw [kept_cons, h]
  exact congrArg (· ++ _) (ite_self [])

/-- Accepted calls keep the same operands when every `connectEnter` is
made in two steps. -/
theorem Accepted.kept_expand {m : Matcher σ μ} {calls : List (Call ο)}
    (accepted : Accepted eval m calls) :
    (∀ inner, enclosingHold eval m inner (calls.flatMap Call.expand)
      = enclosingHold eval m inner calls) ∧
    kept eval m (calls.flatMap Call.expand) = kept eval m calls := by
  induction calls generalizing m with
  | nil => exact ⟨fun _ => rfl, rfl⟩
  | cons call calls ih =>
    have ⟨sensible, others⟩ := accepted_cons.1 accepted
    have ⟨hold, keep⟩ := ih others
    rw [List.flatMap_cons]
    cases call with
    | connectEnter c =>
      -- Neither the connective nor the start of a group runs an operand or closes a group.
      have two_steps := matcher_run_connect_enterGroup eval sensible
      constructor
      · intro inner
        show (true && (true && enclosingHold eval _ (inner + 1) (calls.flatMap Call.expand))) = _
        rw [two_steps, hold]
        rfl
      · show kept eval m (.connect c :: .enterGroup :: calls.flatMap Call.expand) = _
        rw [kept_cons_of_invocation?_eq_none rfl, kept_cons_of_invocation?_eq_none rfl, two_steps,
          keep, kept_cons_of_invocation?_eq_none rfl]
    | attempt _ | connect _ | enterGroup | leaveGroup _ | result | restart =>
      constructor
      · intro inner
        rw [enclosingHold_cons, ← hold]
        rfl
      · rw [kept_cons, ← hold, ← keep]
        rfl

end Call

/-! ### Without looking ahead -/

namespace Phrase

/-- The operands that the walk through a phrase runs and that are in no
group of the phrase whose body fails. -/
def kept (eval : ο → σ → Verdict σ ρ) : Phrase ο → Level μ → σ → List (ο × σ)
  | .done, _, _ => []
  | .operand op rest, l, s =>
    if l.skipsNext then rest.kept eval (l.fold false) s
    else (op, s) :: rest.kept eval (l.fold (eval op s).matched) (eval op s).stream
  | .connective c rest, l, s => rest.kept eval (l.setPending (some c)) s
  | .group body q rest, l, s =>
    let inner := body.walk eval (.opened (mark s) l.skipsChild) s
    let back := if inner.level.result then inner.stream else rewind inner.stream inner.level.entry
    (if inner.level.result then body.kept eval (.opened (mark s) l.skipsChild) s else [])
      ++ rest.kept eval (l.fold (q.outcome inner.level.result)) back

variable {eval : ο → σ → Verdict σ ρ}

/-- The calls of a group and those after it, with the end of the group set off. -/
theorem calls_group_append (body : Phrase ο) (q : Quantifier) (rest : Phrase ο)
    (later : List (Call ο)) :
    (group body q rest).calls ++ later
      = .enterGroup :: (body.calls ++ .leaveGroup q :: (rest.calls ++ later)) := by
  simp [calls]

/-- A phrase closes the groups that it opens and no others. -/
theorem enclosingHold_calls (p : Phrase ο) (m : Matcher σ μ)
    (legal : p.legal m.current.attempted = true) (inner : Nat) (later : List (Call ο)) :
    Call.enclosingHold eval m inner (p.calls ++ later)
      = Call.enclosingHold eval (Call.after eval m p.calls) inner later := by
  -- Over the phrase, with any calls after it and any number of groups that do not count.
  induction p generalizing m inner later with
  | done => rfl
  | operand op rest ih =>
    have restLegal :
        rest.legal ((Call.attempt op).run eval m).matcher.current.attempted = true := by
      rw [Call.attempted_run_attempt]
      exact legal
    exact ih _ restLegal inner later
  | connective c rest ih =>
    obtain ⟨attempted, restLegal⟩ := Bool.and_eq_true_iff.1 legal
    rw [calls, List.cons_append, Call.enclosingHold_cons, Call.after_cons,
      Call.run_connect attempted]
    exact ih (m.connect c) restLegal inner later
  | group body q rest ihBody ihRest =>
    obtain ⟨bodyLegal, restLegal⟩ := Bool.and_eq_true_iff.1 legal
    have closable : 0 < (body.walked eval m.enterGroup).depth := Nat.succ_pos _
    have afterBody := (after_calls eval body m.enterGroup bodyLegal).1
    -- The group is one of those that do not count, from its start to its end.
    calc
      _ = Call.enclosingHold eval m.enterGroup (inner + 1)
            (body.calls ++ .leaveGroup q :: (rest.calls ++ later)) := by
        rw [calls_group_append]
        rfl
      _ = Call.enclosingHold eval (body.walked eval m.enterGroup) (inner + 1)
            (.leaveGroup q :: (rest.calls ++ later)) := by
        rw [ihBody m.enterGroup bodyLegal, afterBody]
      _ = Call.enclosingHold eval ((body.walked eval m.enterGroup).leaveGroup q) inner
            (rest.calls ++ later) := by
        rw [Call.enclosingHold_cons, Call.run_leaveGroup closable]
        rfl
      _ = _ := by
        rw [ihRest _ restLegal, after_calls_group eval body q rest m bodyLegal]

/-- A body is kept if its own group holds and so do those around it. -/
theorem ite_and_append {α : Type} (own around : Bool) (body rest : List α) :
    (if own && around then body else []) ++ (if around then rest else [])
      = if around then (if own then body else []) ++ rest else [] := by
  cases around with
  | true => rw [Bool.and_true, if_pos rfl, if_pos rfl]
  | false => rw [Bool.and_false]; rfl

/-- A phrase keeps the operands that its walk keeps, unless a group around
it fails. -/
theorem kept_calls (p : Phrase ο) (m : Matcher σ μ) (legal : p.legal m.current.attempted = true)
    (later : List (Call ο)) :
    Call.kept eval m (p.calls ++ later)
      = (if Call.enclosingHold eval (Call.after eval m p.calls) 0 later
          then p.kept eval m.current m.stream else [])
        ++ Call.kept eval (Call.after eval m p.calls) later := by
  induction p generalizing m later with
  | done => exact (congrArg (· ++ _) (ite_self [])).symm
  | operand op rest ih =>
    have restLegal :
        rest.legal ((Call.attempt op).run eval m).matcher.current.attempted = true := by
      rw [Call.attempted_run_attempt]
      exact legal
    rw [calls, List.cons_append, Call.kept_cons, enclosingHold_calls rest _ restLegal,
      ih _ restLegal, Call.after_cons, kept]
    cases skipped : m.current.skipsNext with
    | true =>
      rw [Call.run_attempt_of_skipsNext skipped, Call.invocation?_attempt_of_skipsNext skipped]
      exact congrArg (· ++ _) (ite_self [])
    | false =>
      rw [Call.run_attempt_of_runs skipped, Call.invocation?_attempt_of_runs skipped]
      split <;> rfl
  | connective c rest ih =>
    obtain ⟨attempted, restLegal⟩ := Bool.and_eq_true_iff.1 legal
    have silent : (Call.connect c : Call ο).invocation? eval m = none := rfl
    rw [calls, List.cons_append, Call.kept_cons_of_invocation?_eq_none silent, Call.after_cons,
      Call.run_connect attempted]
    exact ih (m.connect c) restLegal later
  -- The body is kept if its group holds and those around do; the rest only asks for the latter.
  | group body q rest ihBody ihRest =>
    obtain ⟨bodyLegal, restLegal⟩ := Bool.and_eq_true_iff.1 legal
    have closable : 0 < (body.walked eval m.enterGroup).depth := Nat.succ_pos _
    have afterBody := (after_calls eval body m.enterGroup bodyLegal).1
    have entered : ((Call.enterGroup : Call ο).run eval m).matcher = m.enterGroup := rfl
    have silentEnter : (Call.enterGroup : Call ο).invocation? eval m = none := rfl
    have silentLeave : (Call.leaveGroup q : Call ο).invocation? eval
        (body.walked eval m.enterGroup) = none := rfl
    rw [calls_group_append, Call.kept_cons_of_invocation?_eq_none silentEnter, entered,
      ihBody m.enterGroup bodyLegal, afterBody, Call.enclosingHold_cons,
      Call.kept_cons_of_invocation?_eq_none silentLeave, Call.run_leaveGroup closable,
      enclosingHold_calls rest _ restLegal, ihRest _ restLegal,
      after_calls_group eval body q rest m bodyLegal, kept, ← List.append_assoc]
    exact congrArg (· ++ _) (ite_and_append _ _ _ _)

end Phrase

/-! ### The text of a match -/

section

variable {src : Source} {eval : ο → Cursor src → Verdict (Cursor src) ρ}

/-- Operands move the cursor, from a place between two characters, to such
a place further on or not at all. What their outcome is does not matter. -/
def Forward (eval : ο → Cursor src → Verdict (Cursor src) ρ) : Prop :=
  ∀ op c rest, c.Precedes rest →
    ∃ passed left, rest = passed ++ left ∧ (eval op c).stream.Precedes left

/-- The text that an operand reads where it is run. -/
def textOf (eval : ο → Cursor src → Verdict (Cursor src) ρ) (run : ο × Cursor src) : String :=
  (eval run.1 run.2).stream.readSince run.2.mark

/-- The walk through a phrase passes over the texts of the operands that
are kept. -/
theorem Phrase.exists_passed_walk (forward : Forward eval) (p : Phrase ο)
    (l : Level Cursor.Mark) {s : Cursor src} {rest : List Char} (stands : s.Precedes rest) :
    ∃ passed left, rest = passed ++ left ∧ (p.walk eval l s).stream.Precedes left ∧
      String.ofList passed = String.join ((p.kept eval l s).map (textOf eval)) := by
  -- From left to right; the cursor stands between two characters throughout.
  induction p generalizing l s rest with
  | done => exact ⟨[], rest, rfl, stands, rfl⟩
  | operand op next ih =>
    rw [walk, kept]
    split
    · exact ih _ stands
    · -- The text of the operand comes first, whatever its outcome, and then the others.
      obtain ⟨first, middle, rfl, there⟩ := forward op s rest stands
      obtain ⟨second, left, rfl, ends, text⟩ := ih (l.fold (eval op s).matched) there
      have read : textOf eval (op, s) = String.ofList first := stands.slice_eq there
      refine ⟨first ++ second, left, (List.append_assoc ..).symm, ends, ?_⟩
      rw [String.ofList_append, List.map_cons, String.join_cons, read, text]
  | connective c next ih => exact ih _ stands
  | group body q next ihBody ihRest =>
    obtain ⟨first, middle, rfl, there, bodyText⟩ :=
      ihBody (.opened (mark s) l.skipsChild) stands
    rw [walk, kept, entry_walk]
    cases (body.walk eval (.opened (mark s) l.skipsChild) s).level.result with
    | true =>
      obtain ⟨second, left, rfl, ends, text⟩ := ihRest (l.fold (q.outcome true)) there
      refine ⟨first ++ second, left, (List.append_assoc ..).symm, ends, ?_⟩
      rw [if_pos rfl, if_pos rfl, String.ofList_append, List.map_append, String.join_append,
        bodyText, text]
    | false =>
      -- What the body has passed over is given back.
      have back : rewind (body.walk eval (.opened (mark s) l.skipsChild) s).stream
          (mark s) = s := LawfulRewindable.rewind_mark _ _
      show ∃ passed left, _ ∧ (walk eval next _ (rewind _ (mark s))).stream.Precedes left ∧
        _ = String.join (List.map _ ([] ++ kept eval next _ (rewind _ (mark s))))
      rw [back]
      exact ihRest (l.fold (q.outcome false)) stands

/-- If the operands move a cursor forward from character to character, an
expression that matches has read the texts of the operands that are kept,
in order, and nothing else. -/
theorem Call.readSince_eq_join_kept (forward : Forward eval) {c : Cursor src}
    {rest : List Char} (stands : c.Precedes rest) {calls : List (Call ο)}
    (inner : ∀ call ∈ calls, call.isAnchor = false)
    (accepted : Accepted eval (.start c) (calls ++ [.result]))
    {outcome : Outcome (Cursor src) Cursor.Mark ρ}
    (last : (runAll eval (.start c) (calls ++ [.result])).getLast? = some outcome)
    (matched : outcome.reply = .concluded true) :
    outcome.matcher.stream.readSince c.mark
      = String.join ((kept eval (.start c) calls).map (textOf eval)) := by
  obtain ⟨p, read, legal, walked, _⟩ := Phrase.exists_walked_of_accepted inner accepted
  have ⟨_, sameKept⟩ := (accepted_append.1 accepted).1.kept_expand
  rw [← Phrase.calls_of_ofCalls? read] at sameKept
  rw [accepted.getLast?_runAll_result, walked] at last
  cases last
  have holds : (p.walk eval (Level.outermost (mark c)) c).level.result = true :=
    Reply.concluded.inj matched
  have ended : (Call.result.perform eval (p.walked eval (.start c))).matcher.stream
      = (p.walk eval (Level.outermost (mark c)) c).stream := if_pos holds
  -- After the last call there is no group left to be closed.
  have keeps : kept eval (.start c) p.calls = p.kept eval (Level.outermost (mark c)) c := by
    have split : kept eval (.start c) (p.calls ++ [])
        = p.kept eval (Level.outermost (mark c)) c ++ [] := p.kept_calls (.start c) legal []
    rw [List.append_nil, List.append_nil] at split
    exact split
  obtain ⟨passed, left, rfl, ends, text⟩ :=
    p.exists_passed_walk forward (Level.outermost (mark c)) stands
  rw [← sameKept, keeps, ← text, ended]
  exact stands.slice_eq ends

/-- Steps over a character if there is one, whatever it is, and has a
fixed outcome. -/
def Cursor.stepOver (matched : Bool) (c : Cursor src) : Verdict (Cursor src) Unit where
  matched := matched
  stream := match c.peek with
    | some x => c.step x
    | none => c
  report := ()

/-- To step over one character, or over none at the end, is to read on. -/
theorem Cursor.forward_stepOver :
    Forward (Cursor.stepOver : Bool → Cursor src → Verdict (Cursor src) Unit) := by
  intro matched c rest stands
  cases rest with
  | nil =>
    refine ⟨[], [], rfl, ?_⟩
    rw [stepOver, stands.peek_nil]
    exact stands
  | cons x rest =>
    refine ⟨[x], rest, rfl, ?_⟩
    rw [stepOver, stands.peek_cons]
    exact stands.step

/-- A group that reads ahead in vain, and two operands of which the second
replaces the result of the first. -/
def Phrase.replacing : Phrase Bool :=
  .operand true (.group (.operand true (.connective .and (.operand false .done))) .optional
    (.operand false (.operand true .done)))

/-- The `x` is read first and the group gives back what it has read. The
operand that fails on the `a` has read it all the same. -/
theorem Call.readSince_eq_join_kept_replacing :
    ∃ (src : Source) (c : Cursor src) (outcome : Outcome (Cursor src) Cursor.Mark Unit),
      src.text = String.ofList ['x', 'a', 'é', 'b'] ∧ c.Precedes ['x', 'a', 'é', 'b'] ∧
      (∀ call ∈ Phrase.replacing.calls, call.isAnchor = false) ∧
      Accepted Cursor.stepOver (.start c) (Phrase.replacing.calls ++ [.result]) ∧
      (runAll Cursor.stepOver (.start c) (Phrase.replacing.calls ++ [.result])).getLast?
        = some outcome ∧
      outcome.reply = .concluded true ∧
      outcome.matcher.stream.readSince c.mark = String.join ["x", "a", "é"] := by
  let src : Source := { text := String.ofList ['x', 'a', 'é', 'b'], fits := by decide }
  let c : Cursor src := ⟨0, by decide⟩
  have stands : c.Precedes ['x', 'a', 'é', 'b'] := ⟨[], String.toList_ofList, rfl⟩
  have inner : ∀ call ∈ Phrase.replacing.calls, call.isAnchor = false := by decide
  have accepted : Accepted Cursor.stepOver (.start c) (Phrase.replacing.calls ++ [.result]) :=
    (Phrase.replacing.accepted_calls_result_iff Cursor.stepOver c).2 ⟨rfl, rfl⟩
  have last := Phrase.replacing.getLast?_runAll_calls_result Cursor.stepOver c rfl rfl
  have texts : (kept Cursor.stepOver (.start c) Phrase.replacing.calls).map
      (textOf Cursor.stepOver) = ["x", "a", "é"] := by decide +kernel
  have read := readSince_eq_join_kept Cursor.forward_stepOver stands inner accepted last rfl
  rw [texts] at read
  exact ⟨src, c, _, rfl, stands, inner, accepted, last, rfl, read⟩

end

end ScanExpr
