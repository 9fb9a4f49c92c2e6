import ScanExpr.Proofs.Matcher.Chain

/-!
# `ScanExpr.Proofs.Matcher.Misuse`: misuse told by the past alone

A matcher refuses a call by what it has noted: whether the level and the
expression have had an operand, and which levels wait. Many operations
write these notes, and levels are put away, taken up again and thrown out.
`Call.misuse?` asks for none of it. It looks at the calls that have been
made and finds in them what a call needs:

* `Call.happened`: what was read at the level that is open now, found by
  going back to the start of that level and passing over the groups that
  were closed in between;
* `Call.recent`: the calls since the expression began, in which starts and
  ends of groups can be counted.

A `Use` is anything that can be done with a matcher from outside: a call,
a move of the stream, or a typed expression, which may be dropped.
`Call.Notes` says that the notes of a matcher are those of its past; one
call keeps it (`Call.Notes.perform`), and so does any use.

`Use.refused_iff_misuse` is the main result. After any use of a matcher a
call is refused exactly for what `misuse?` says, and a call that is
refused changes nothing: without it all other answers are the same, and
so are all states after them.
-/

set_option autoImplicit false

namespace ScanExpr

variable {σ μ ρ ο : Type}

/-! ### What the past tells -/

namespace Call

/-- Whether the call starts a group. -/
def opens : Call ο → Bool
  | .enterGroup | .connectEnter _ => true
  | _ => false

/-- Whether the call ends a group. -/
def closes : Call ο → Bool
  | .leaveGroup _ => true
  | _ => false

/-- Whether an outcome is folded in by the call: that of an operand, which
may be skipped, or that of a group which it ends. -/
def folds : Call ο → Bool
  | .attempt _ | .leaveGroup _ => true
  | _ => false

/-- The calls since the last that began an expression. The past has its
last call first. -/
def recent (past : List (Call ο)) : List (Call ο) :=
  past.takeWhile fun call => !call.isAnchor

/-- The operands that were read and the groups that were ended since the
start of the innermost group that is open, or since the expression began
if none is, and not inside another group. The ends of `ended` groups have
been passed whose starts are still to come. -/
def happened (ended : Nat) : List (Call ο) → List (Call ο)
  | [] => []
  | .attempt op :: earlier =>
    if ended = 0 then .attempt op :: happened ended earlier else happened ended earlier
  | .leaveGroup q :: earlier =>
    if ended = 0 then .leaveGroup q :: happened (ended + 1) earlier
    else happened (ended + 1) earlier
  | .enterGroup :: earlier | .connectEnter _ :: earlier =>
    if ended = 0 then [] else happened (ended - 1) earlier
  | .connect _ :: earlier => happened ended earlier
  | .result :: _ | .restart :: _ => []

example :
    happened 0 [.leaveGroup .required, .attempt 3, .connect .or, .attempt 2, .enterGroup,
      .connect .and, .attempt 1, .enterGroup, .attempt 0]
      = [.leaveGroup .required, .attempt 1] := rfl

/-- Why a call makes no sense after the calls of the past, if it does
not. -/
def misuse? (past : List (Call ο)) : Call ο → Option Misuse
  | .connect _ | .connectEnter _ =>
    if happened 0 past = [] then some .strayConnective else none
  | .leaveGroup _ =>
    if (recent past).countP opens = (recent past).countP closes then some .noOpenGroup else none
  | .result =>
    let left := (recent past).countP opens - (recent past).countP closes
    if ∀ call ∈ recent past, call.folds = false then some .nothingAttempted
    else if 0 < left then some (.groupsLeftOpen left)
    else none
  | .attempt _ | .enterGroup | .restart => none

/-- After a call with which an expression ends or begins nothing is recent. -/
theorem recent_cons_of_isAnchor {call : Call ο} (h : call.isAnchor = true)
    (past : List (Call ο)) : recent (call :: past) = [] := by
  rw [recent, List.takeWhile_cons_of_neg]
  simp [h]

/-- After any other call this one is recent, and what was recent before it. -/
theorem recent_cons_of_not_isAnchor {call : Call ο} (h : call.isAnchor = false)
    (past : List (Call ο)) : recent (call :: past) = call :: recent past := by
  rw [recent, List.takeWhile_cons_of_pos, recent]
  simp [h]

/-! ### What a matcher has noted of it -/

/-- The notes of a matcher are those of its past. -/
structure Notes (past : List (Call ο)) (m : Matcher σ μ) : Prop where
  level : m.current.attempted = false ↔ happened 0 past = []
  expression : m.attempted = false ↔ ∀ call ∈ recent past, call.folds = false
  depth : (recent past).countP opens = (recent past).countP closes + m.depth

/-- A matcher refuses a call for what its past tells. -/
theorem Notes.refusal?_eq_misuse? {past : List (Call ο)} {m : Matcher σ μ} (notes : Notes past m)
    (call : Call ο) : call.refusal? m = call.misuse? past := by
  -- No level waits if as many groups have been closed as were opened.
  have none_open : m.suspended.isEmpty = true
      ↔ (recent past).countP opens = (recent past).countP closes := by
    rw [LevelStack.isEmpty_iff_depth_eq_zero, notes.depth]
    exact Nat.add_eq_left.symm
  cases call with
  | connect c | connectEnter c =>
    simp only [refusal?, misuse?, ← notes.level]
    cases m.current.attempted <;> rfl
  | leaveGroup q => simp only [refusal?, misuse?, ← none_open]
  | result =>
    have left : (recent past).countP opens - (recent past).countP closes = m.depth := by
      rw [notes.depth, Nat.add_sub_cancel_left]
    have some_open : 0 < m.depth ↔ ¬ m.suspended.isEmpty = true := by
      rw [LevelStack.isEmpty_iff_depth_eq_zero]
      exact Nat.pos_iff_ne_zero
    simp only [refusal?, misuse?, ← notes.expression, left, some_open]
    cases m.attempted <;> cases m.suspended.isEmpty <;> rfl
  | attempt op | enterGroup | restart => rfl

variable [Rewindable σ μ]

/-- Before anything has been done with a matcher there is no past. -/
theorem notes_start (s : σ) : Notes ([] : List (Call ο)) (.start s : Matcher σ μ) where
  level := ⟨fun _ => rfl, fun _ => rfl⟩
  expression := ⟨fun _ _ h => (nomatch h), fun _ => rfl⟩
  depth := rfl

variable {past : List (Call ο)} {m : Matcher σ μ}

/-- After a call the expression has had an operand if the call folds an
outcome in, or if it had one before and goes on. -/
theorem attempted_perform (eval : ο → σ → Verdict σ ρ) (m : Matcher σ μ) (call : Call ο) :
    (call.perform eval m).matcher.attempted = (!call.isAnchor && (call.folds || m.attempted)) := by
  cases call with
  | attempt op => exact (m.attempted_attempt (eval op)).2
  | connect _ | enterGroup | connectEnter _ | leaveGroup _ | result | restart => rfl

/-- The starts and ends of groups account for the change of depth. -/
theorem depthAfter_add_closes {call : Call ο} (goes_on : call.isAnchor = false) {depth : Nat}
    (closable : call.closes = true → 0 < depth) :
    call.depthAfter depth + (if call.closes then 1 else 0)
      = depth + if call.opens then 1 else 0 := by
  cases call with
  | leaveGroup q => exact Nat.sub_add_cancel (closable rfl)
  | attempt _ | connect _ | enterGroup | connectEnter _ => rfl
  | result | restart => cases goes_on

/-- A call that is made is noted. -/
theorem Notes.perform (notes : Notes past m) (eval : ο → σ → Verdict σ ρ) {call : Call ο}
    (sensible : call.refusal? m = none) :
    Notes (call :: past) (call.perform eval m).matcher where
  level := by
    cases call with
    | attempt op =>
      have folded : (m.attempt (eval op)).1.current.attempted = true :=
        (m.attempted_attempt (eval op)).1
      exact iff_of_false (ne_false_of_eq_true folded) (List.cons_ne_nil _ _)
    | leaveGroup q => exact iff_of_false Bool.noConfusion (List.cons_ne_nil _ _)
    | connect c => exact notes.level
    | enterGroup | connectEnter c | result | restart => exact iff_of_true rfl rfl
  expression := by
    rw [attempted_perform]
    cases anchor : call.isAnchor with
    | true => simp [recent_cons_of_isAnchor anchor]
    | false =>
      rw [recent_cons_of_not_isAnchor anchor, List.forall_mem_cons, ← notes.expression]
      exact Bool.or_eq_false_iff
  depth := by
    rw [depth_perform]
    cases anchor : call.isAnchor with
    | true =>
      -- An expression begins with no group open.
      rw [recent_cons_of_isAnchor anchor]
      cases call with
      | result | restart => rfl
      | attempt _ | connect _ | enterGroup | connectEnter _ | leaveGroup _ => cases anchor
    | false =>
      have closable : call.closes = true → 0 < m.depth := by
        intro ends
        cases call with
        | leaveGroup q => exact refusal?_leaveGroup_eq_none_iff.1 sensible
        | attempt _ | connect _ | enterGroup | connectEnter _ | result | restart => cases ends
      have change := depthAfter_add_closes anchor closable
      have before := notes.depth
      rw [recent_cons_of_not_isAnchor anchor, List.countP_cons, List.countP_cons]
      omega

/-- A call is refused for the reason there is to refuse it. -/
theorem reply_run_eq_refused_iff {eval : ο → σ → Verdict σ ρ} {call : Call ο} {x : Misuse} :
    (call.run eval m).reply = .refused x ↔ call.refusal? m = some x := by
  rw [run]
  cases call.refusal? m with
  | some misuse =>
    constructor
    · intro h
      exact congrArg some (Reply.refused.inj h)
    · intro h
      exact congrArg Reply.refused (Option.some.inj h)
  | none =>
    have made : (call.perform eval m).reply.isRefused = false := isRefused_perform m call
    constructor
    · intro h
      rw [h] at made
      cases made
    · intro h
      cases h

/-- A refused call leaves the matcher as it was. -/
theorem matcher_run_of_isRefused {eval : ο → σ → Verdict σ ρ} {call : Call ο}
    (refused : (call.run eval m).reply.isRefused = true) : (call.run eval m).matcher = m := by
  cases reason : call.refusal? m with
  | some misuse => rw [run, reason]
  | none =>
    rw [isRefused_run_eq_false_iff.2 reason] at refused
    cases refused

/-- Calls that are made one after another are noted, the last one first. -/
theorem Notes.after (notes : Notes past m) {eval : ο → σ → Verdict σ ρ} {calls : List (Call ο)}
    (accepted : Accepted eval m calls) : Notes (calls.reverse ++ past) (after eval m calls) := by
  -- Along the calls, with a past that grows by the call that is made.
  induction calls generalizing m past with
  | nil => exact notes
  | cons call calls ih =>
    have ⟨sensible, others⟩ := accepted_cons.1 accepted
    have noted := notes.perform eval sensible
    rw [run_of_refusal?_eq_none sensible] at others
    rw [List.reverse_cons, List.append_assoc, after_cons, run_of_refusal?_eq_none sensible]
    exact ih noted others

end Call

/-! ### The use of a matcher -/

/-- Whether one of the outcomes is a refusal. -/
def Outcome.anyRefused (outcomes : List (Outcome σ μ ρ)) : Bool :=
  outcomes.any (·.reply.isRefused)

/-- One thing done with a matcher from outside, with operands of type `ο`. -/
inductive Use (ο σ : Type) where
  | call (c : Call ο)
  /-- A move of the stream, to anywhere. -/
  | move (f : σ → σ)
  /-- A typed expression, up to its result or to where it is dropped. -/
  | expression (c : Chain ο (.operand 0 true))

namespace Use

variable [Rewindable σ μ]

/-- What a use leads to, step by step. -/
def run (eval : ο → σ → Verdict σ ρ) (m : Matcher σ μ) : Use ο σ → List (Outcome σ μ ρ)
  | .call c => [c.run eval m]
  | .move f => [⟨.done, { m with stream := f m.stream }, []⟩]
  | .expression c => ⟨.done, m.restart, []⟩ :: c.run eval m

/-- The matcher after a use. -/
def after (eval : ο → σ → Verdict σ ρ) (m : Matcher σ μ) (u : Use ο σ) : Matcher σ μ :=
  Outcome.finalMatcher m (u.run eval m)

/-- The calls that a use makes, or amounts to, without a refused one. -/
def made (eval : ο → σ → Verdict σ ρ) (m : Matcher σ μ) : Use ο σ → List (Call ο)
  | .call c => if (c.run eval m).reply.isRefused then [] else [c]
  | .move _ => []
  | .expression c => .restart :: c.calls.filterMap id

/-- What uses lead to, one after another. -/
def runEach (eval : ο → σ → Verdict σ ρ) (m : Matcher σ μ) :
    List (Use ο σ) → List (List (Outcome σ μ ρ))
  | [] => []
  | u :: rest => u.run eval m :: runEach eval (u.after eval m) rest

/-- The matcher after a sequence of uses. -/
def afterEach (eval : ο → σ → Verdict σ ρ) (m : Matcher σ μ) : List (Use ο σ) → Matcher σ μ
  | [] => m
  | u :: rest => afterEach eval (u.after eval m) rest

/-- The calls that uses make, one after another. -/
def madeEach (eval : ο → σ → Verdict σ ρ) (m : Matcher σ μ) : List (Use ο σ) → List (Call ο)
  | [] => []
  | u :: rest => u.made eval m ++ madeEach eval (u.after eval m) rest

/-- The uses without the calls among them that are refused. -/
def sensible (eval : ο → σ → Verdict σ ρ) (m : Matcher σ μ) : List (Use ο σ) → List (Use ο σ)
  | [] => []
  | u :: rest =>
    if Outcome.anyRefused (u.run eval m) then sensible eval (u.after eval m) rest
    else u :: sensible eval (u.after eval m) rest

variable {eval : ο → σ → Verdict σ ρ} {m : Matcher σ μ}

/-- A use that is refused leaves the matcher as it was. -/
theorem after_of_anyRefused {u : Use ο σ} (refused : Outcome.anyRefused (u.run eval m) = true) :
    u.after eval m = m := by
  cases u with
  | call c =>
    rw [run, Outcome.anyRefused, List.any_cons, List.any_nil, Bool.or_false] at refused
    exact Call.matcher_run_of_isRefused refused
  | move f => cases refused
  | expression c =>
    -- The steps of a typed expression are never refused.
    obtain ⟨outcome, step, isRefused⟩ := List.any_eq_true.1 refused
    rcases List.mem_cons.1 step with rfl | step
    · cases isRefused
    · rw [c.isRefused_follow eval m.restart outcome step] at isRefused
      cases isRefused

/-- Without the refused calls all other answers are the same, and so is the
matcher at the end. -/
theorem runEach_sensible (eval : ο → σ → Verdict σ ρ) (m : Matcher σ μ) (uses : List (Use ο σ)) :
    runEach eval m (sensible eval m uses)
        = (runEach eval m uses).filter (fun outcomes => !Outcome.anyRefused outcomes) ∧
      afterEach eval m (sensible eval m uses) = afterEach eval m uses := by
  induction uses generalizing m with
  | nil => exact ⟨rfl, rfl⟩
  | cons u rest ih =>
    have ⟨answers, ends⟩ := ih (u.after eval m)
    rw [sensible, runEach, List.filter_cons, afterEach]
    cases refused : Outcome.anyRefused (u.run eval m) with
    | true =>
      rw [after_of_anyRefused refused] at answers ends ⊢
      exact ⟨answers, ends⟩
    | false => exact ⟨congrArg (u.run eval m :: ·) answers, ends⟩

/-- What a matcher has noted of a use is what the calls of the use
leave. -/
theorem notes_after {past : List (Call ο)} (notes : Call.Notes past m) (u : Use ο σ) :
    Call.Notes ((u.made eval m).reverse ++ past) (u.after eval m) := by
  cases u with
  | call c =>
    show Call.Notes ((if (c.run eval m).reply.isRefused then _ else [c]).reverse ++ past)
      (c.run eval m).matcher
    cases refused : (c.run eval m).reply.isRefused with
    | true =>
      rw [Call.matcher_run_of_isRefused refused]
      exact notes
    | false =>
      have sensible := Call.isRefused_run_eq_false_iff.1 refused
      exact notes.after (Call.accepted_cons.2 ⟨sensible, Call.accepted_nil _⟩)
  | move f => exact ⟨notes.level, notes.expression, notes.depth⟩
  | expression c =>
    have ⟨accepted, ends⟩ := c.after_calls eval m
    have noted := notes.after accepted
    rw [ends] at noted
    exact noted

/-- What a matcher has noted of a sequence of uses. -/
theorem notes_afterEach {past : List (Call ο)} (notes : Call.Notes past m)
    (uses : List (Use ο σ)) :
    Call.Notes ((madeEach eval m uses).reverse ++ past) (afterEach eval m uses) := by
  induction uses generalizing m past with
  | nil => exact notes
  | cons u rest ih =>
    rw [madeEach, List.reverse_append, List.append_assoc]
    exact ih (notes_after notes u)

/-- After any use of a new matcher, whatever was done with it, refused and
dropped:

* a call is refused exactly for the misuse that the past tells;
* a call that is refused leaves the matcher as it was;
* in all that is done later, the refused calls can be left out, and all
  other answers and events, the states between them and the state at the
  end are the same. -/
theorem refused_iff_misuse (eval : ο → σ → Verdict σ ρ) (s : σ) (uses : List (Use ο σ)) :
    let m : Matcher σ μ := afterEach eval (.start s) uses
    let past := (madeEach eval (.start s) uses).reverse
    (∀ (call : Call ο) (x : Misuse),
      (call.run eval m).reply = .refused x ↔ call.misuse? past = some x) ∧
    (∀ (call : Call ο) (x : Misuse),
      (call.run eval m).reply = .refused x → (call.run eval m).matcher = m) ∧
    ∀ later : List (Use ο σ),
      runEach eval m (sensible eval m later)
        = (runEach eval m later).filter (fun outcomes => !Outcome.anyRefused outcomes) ∧
      afterEach eval m (sensible eval m later) = afterEach eval m later := by
  intro m past
  have notes : Call.Notes past m := by
    have noted : Call.Notes (past ++ []) m := notes_afterEach (Call.notes_start s) uses
    rw [List.append_nil] at noted
    exact noted
  refine ⟨fun call x => ?_, fun call x refused => ?_, runEach_sensible eval m⟩
  · rw [Call.reply_run_eq_refused_iff, notes.refusal?_eq_misuse? call]
  · apply Call.matcher_run_of_isRefused
    rw [refused]
    rfl

/-- Three calls among these are refused: the first, a connective at the
start of a group, and the result with a group open. -/
def clumsy : List (Use (Bool × Nat) (Tape #['a', 'b', 'c'])) :=
  [.call .result, .call (.attempt (true, 1)), .call (.connectEnter .and), .call (.connect .or),
    .move fun _ => .clamped _ 3, .call (.leaveGroup .optional),
    .expression (.link (.attempt (true, 2)) (.link (.connectEnter .or) .stop)), .call .result]

/-- The group that the expression has left open keeps the result from being
given, and the rest of the past plays no part. -/
theorem refused_iff_misuse_clumsy :
    madeEach (Tape.leap #['a', 'b', 'c']) (.start (.clamped _ 0)) clumsy
      = [.attempt (true, 1), .connectEnter .and, .leaveGroup .optional, .restart,
          .attempt (true, 2), .connectEnter .or] ∧
    (Call.result.run (Tape.leap #['a', 'b', 'c'])
        (afterEach (Tape.leap _) (.start (.clamped _ 0)) clumsy)).reply
      = .refused (.groupsLeftOpen 1) ∧
    (Call.result.run (Tape.leap #['a', 'b', 'c'])
        (afterEach (Tape.leap _) (.start (.clamped _ 0)) clumsy)).matcher
      = afterEach (Tape.leap _) (.start (.clamped _ 0)) clumsy := by
  have ⟨exact_misuse, unchanged, _⟩ :=
    refused_iff_misuse (Tape.leap #['a', 'b', 'c']) (.clamped _ 0) clumsy
  have refused := (exact_misuse .result (.groupsLeftOpen 1)).2 rfl
  exact ⟨rfl, refused, unchanged .result (.groupsLeftOpen 1) refused⟩

end Use

end ScanExpr
