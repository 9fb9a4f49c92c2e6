import Mathlib.Computability.RegularExpressions
import Mathlib.Data.List.Lattice
import Mathlib.Data.List.TakeWhile
import ScanExpr.Proofs.Phrase.Choice

/-!
# `ScanExpr.Proofs.Phrase.Longest`: ordered choice as the longest match

A grammar of ordered choice never goes back on a decision: a run takes all
that it can, the first alternative that matches is taken, and an optional part
is there if it can be. A regular expression leaves all of this open. Its
words may be split in any way, and of the prefixes of a text it may match
several.

`Choice.Munches` says that the grammar finds the longest of them, and finds
one if there is any. This is proved part by part. A sequence can go wrong
where a word of the first part that is too short would leave more to the
second one; it does not where the second part never begins with a letter that
could have gone on the first (`Regex.Apart`). The second of two alternatives
is not missed where they differ in their first letters. An optional part asks
for nothing.

`Regex.letters` and `Regex.firsts` list the letters of an expression and those
with which its words begin, so for expressions that are given these conditions
can be decided.
-/

set_option autoImplicit false

namespace ScanExpr

/-! ### Regular expressions -/

namespace Regex

/-- Nothing, or what the expression matches. -/
def optional (r : RegularExpression Char) : RegularExpression Char :=
  1 + r

/-- What the expression matches, once or more often. -/
def repeated (r : RegularExpression Char) : RegularExpression Char :=
  r * r.star

/-- One of the characters. -/
def oneOf (cs : List Char) : RegularExpression Char :=
  cs.foldr (fun c r => .char c + r) 0

/-- The letters of an expression. -/
def letters : RegularExpression Char → List Char
  | .zero | .epsilon => []
  | .char a => [a]
  | .plus r s | .comp r s => letters r ++ letters s
  | .star r => letters r

/-- The letters with which a word of an expression may begin. -/
def firsts : RegularExpression Char → List Char
  | .zero | .epsilon => []
  | .char a => [a]
  | .plus r s => firsts r ++ firsts s
  | .comp r s => if r.matchEpsilon then firsts r ++ firsts s else firsts r
  | .star r => firsts r

variable {r s : RegularExpression Char} {w : List Char} {c : Char}

/-- `matchEpsilon` tells whether the empty word is matched. -/
theorem matchEpsilon_eq_true_iff : r.matchEpsilon = true ↔ [] ∈ r.matches' :=
  r.rmatch_iff_matches' []

/-- The words of an expression are made of its letters. -/
theorem mem_letters (h : w ∈ r.matches') : ∀ c ∈ w, c ∈ letters r := by
  -- Over the expression. A starred word is cut into words of the expression in it.
  induction r generalizing w with
  | zero => exact absurd h (Language.notMem_zero w)
  | epsilon =>
    obtain rfl := (Language.mem_one w).1 h
    intro c none
    cases none
  | char a =>
    have word : w = [a] := h
    rw [word]
    exact fun c => id
  | plus r s ihr ihs =>
    intro c letter
    rcases (Language.mem_add _ _ w).1 h with here | here
    · exact List.mem_append_left _ (ihr here c letter)
    · exact List.mem_append_right _ (ihs here c letter)
  | comp r s ihr ihs =>
    obtain ⟨u, first, v, second, rfl⟩ := Language.mem_mul.1 h
    intro c letter
    rcases List.mem_append.1 letter with letter | letter
    · exact List.mem_append_left _ (ihr first c letter)
    · exact List.mem_append_right _ (ihs second c letter)
  | star r ih =>
    obtain ⟨parts, rfl, matched⟩ := Language.mem_kstar.1 h
    intro c letter
    obtain ⟨part, here, letter⟩ := List.mem_flatten.1 letter
    exact ih (matched part here) c letter

/-- A word begins with one of the letters with which a word may begin. -/
theorem mem_firsts (h : c :: w ∈ r.matches') : c ∈ firsts r := by
  induction r generalizing w with
  | zero => exact absurd h (Language.notMem_zero _)
  | epsilon => cases (Language.mem_one _).1 h
  | char a =>
    have word : c :: w = [a] := h
    cases word
    exact List.mem_singleton_self c
  | plus r s ihr ihs =>
    rcases (Language.mem_add _ _ _).1 h with here | here
    · exact List.mem_append_left _ (ihr here)
    · exact List.mem_append_right _ (ihs here)
  | comp r s ihr ihs =>
    obtain ⟨u, first, v, second, word⟩ := Language.mem_mul.1 h
    rw [firsts]
    -- The first letter is that of the first part, or of the second if the first part is empty.
    cases u with
    | nil =>
      obtain rfl : v = c :: w := word
      rw [matchEpsilon_eq_true_iff.2 first]
      exact List.mem_append_right _ (ihs second)
    | cons a u =>
      obtain ⟨rfl, _⟩ := List.cons.inj word
      split
      · exact List.mem_append_left _ (ihr first)
      · exact ihr first
  | star r ih =>
    obtain ⟨parts, word, matched⟩ := Language.mem_kstar_iff_exists_nonempty.1 h
    cases parts with
    | nil => cases word
    | cons part parts =>
      obtain ⟨here, nonempty⟩ := matched part List.mem_cons_self
      cases part with
      | nil => exact absurd rfl nonempty
      | cons a part =>
        obtain ⟨rfl, _⟩ := List.cons.inj word
        exact ih here

/-- Where a word of the first expression could be longer, no word of the
second begins with the letter with which it would go on. -/
def Apart (r s : RegularExpression Char) : Prop :=
  ∀ u c more w, u ∈ r.matches' → u ++ c :: more ∈ r.matches' → c :: w ∉ s.matches'

/-- Expressions are apart if the second does not begin with a letter of the
first. -/
theorem apart_of_letters (differ : letters r ∩ firsts s = []) : Apart r s := by
  intro u c more w _ longer begins
  have letter : c ∈ u ++ c :: more := List.mem_append_right u List.mem_cons_self
  exact List.inter_eq_nil_iff_disjoint.1 differ (mem_letters longer c letter) (mem_firsts begins)

/-- No word of a single letter could be longer. -/
theorem apart_of_single (single : ∀ w ∈ r.matches', w.length = 1)
    (s : RegularExpression Char) : Apart r s := by
  intro u c more w short longer _
  have length := single _ longer
  rw [List.length_append, single u short, List.length_cons] at length
  omega

/-- The words of the expression are the characters that are accepted. -/
def Letter (accept : Char → Bool) (r : RegularExpression Char) : Prop :=
  ∀ w, w ∈ r.matches' ↔ ∃ c, accept c = true ∧ w = [c]

variable {accept : Char → Bool}

/-- The words of `oneOf` are its characters, one at a time. -/
theorem letter_oneOf {cs : List Char} (members : ∀ c, accept c = true ↔ c ∈ cs) :
    Letter accept (oneOf cs) := by
  intro w
  simp only [members]
  clear members
  induction cs with
  | nil => exact iff_of_false (Language.notMem_zero w) (by simp)
  | cons a cs ih =>
    show w ∈ ({[a]} : Language Char) + (oneOf cs).matches' ↔ _
    rw [Language.mem_add, ih]
    constructor
    · rintro (rfl | ⟨c, member, rfl⟩)
      · exact ⟨a, List.mem_cons_self, rfl⟩
      · exact ⟨c, List.mem_cons_of_mem a member, rfl⟩
    · rintro ⟨c, member, rfl⟩
      rcases List.mem_cons.1 member with rfl | member
      · exact .inl rfl
      · exact .inr ⟨c, member, rfl⟩

/-- The only word of a character is the character. -/
theorem letter_char (a : Char) : Letter (CharClass.contains a) (.char a) := by
  intro w
  constructor
  · rintro rfl
    exact ⟨a, beq_self_eq_true a, rfl⟩
  · rintro ⟨c, member, rfl⟩
    obtain rfl : a = c := eq_of_beq member
    rfl

/-- The words of a letter have length one. -/
theorem Letter.length_eq_one (letter : Letter accept r) : ∀ w ∈ r.matches', w.length = 1 := by
  intro w word
  obtain ⟨c, _, rfl⟩ := (letter w).1 word
  rfl

/-- The words of a starred letter are the words of characters that are
accepted. -/
theorem Letter.mem_star (letter : Letter accept r) :
    w ∈ r.star.matches' ↔ ∀ c ∈ w, accept c = true := by
  constructor
  · intro word c member
    obtain ⟨parts, rfl, matched⟩ := Language.mem_kstar.1 word
    obtain ⟨part, here, member⟩ := List.mem_flatten.1 member
    obtain ⟨a, accepted, rfl⟩ := (letter part).1 (matched part here)
    obtain rfl := List.mem_singleton.1 member
    exact accepted
  · intro accepted
    refine Language.mem_kstar.2 ⟨w.map fun c => [c], ?_, ?_⟩
    · rw [← List.flatMap_def, List.flatMap_singleton']
    · intro part here
      obtain ⟨c, member, rfl⟩ := List.mem_map.1 here
      exact (letter _).2 ⟨c, accepted c member, rfl⟩

end Regex

/-! ### The longest prefix -/

open Regex

/-- Of the prefixes of a text that an expression matches the longest leaves
so much, or there is no such prefix. -/
inductive LeavesLongest (r : RegularExpression Char) (cs : List Char) :
    Option (List Char) → Prop where
  | some {w left : List Char} (word : w ∈ r.matches') (text : cs = w ++ left)
    (longest : ∀ v ∈ r.matches', v <+: cs → v <+: w) : LeavesLongest r cs (some left)
  | none (absent : ∀ v ∈ r.matches', ¬ v <+: cs) : LeavesLongest r cs none

namespace Choice

variable {first second part : Choice} {r s : RegularExpression Char} {accept : Char → Bool}

/-- The grammar takes the longest prefix of a text that the expression
matches, and fails only if there is none. -/
def Munches (tree : Choice) (r : RegularExpression Char) : Prop :=
  ∀ cs, LeavesLongest r cs (tree.remainder? cs)

namespace Munches

/-- One part after the other takes the longest prefix if the second never
begins with what could have gone on the first. -/
theorem both (left : first.Munches r) (right : second.Munches s) (apart : Apart r s) :
    (Choice.both first second).Munches (r * s) := by
  intro cs
  have taken := left cs
  rw [remainder?]
  generalize first.remainder? cs = found at taken ⊢
  cases taken with
  | none absent =>
    refine .none fun v word begins => ?_
    obtain ⟨u, short, w, _, rfl⟩ := Language.mem_mul.1 word
    exact absent u short ((List.prefix_append u w).trans begins)
  | @some w middle matched text longest =>
    subst text
    -- A prefix that the sequence matches is cut behind `w`, or it ends within `w`.
    have cut : ∀ u ∈ r.matches', ∀ v ∈ s.matches', u ++ v <+: w ++ middle →
        (u = w ∧ v <+: middle) ∨ (u <+: w ∧ v = []) := by
      intro u short v rest begins
      obtain ⟨more, rfl⟩ := longest u short ((List.prefix_append u v).trans begins)
      rw [List.append_assoc, List.prefix_append_right_inj] at begins
      cases more with
      | nil => exact .inl ⟨(List.append_nil u).symm, begins⟩
      | cons c more =>
        cases v with
        | nil => exact .inr ⟨List.prefix_append _ _, rfl⟩
        | cons a v =>
          obtain ⟨rfl, _⟩ := List.cons_prefix_cons.1 begins
          exact absurd rest (apart u a more v short matched)
    have taken := right middle
    show LeavesLongest (r * s) (w ++ middle) (second.remainder? middle)
    generalize second.remainder? middle = found at taken ⊢
    cases taken with
    | none absent =>
      refine .none fun v word begins => ?_
      obtain ⟨u, short, v, rest, rfl⟩ := Language.mem_mul.1 word
      -- The first part has no other end than behind `w` that is of use to the second.
      rcases cut u short v rest begins with ⟨_, behind⟩ | ⟨_, rfl⟩
      · exact absent v rest behind
      · exact absent [] rest List.nil_prefix
    | @some x left matched' text longest' =>
      subst text
      refine .some (Language.mem_mul.2 ⟨w, matched, x, matched', rfl⟩)
        (List.append_assoc w x left).symm fun v word begins => ?_
      obtain ⟨u, short, v, rest, rfl⟩ := Language.mem_mul.1 word
      rcases cut u short v rest begins with ⟨rfl, behind⟩ | ⟨within, rfl⟩
      · exact (List.prefix_append_right_inj u).2 (longest' v rest behind)
      · rw [List.append_nil]
        exact within.trans (List.prefix_append w x)

/-- Of two alternatives the one is taken that matches at all, if they differ
in their first letters. -/
theorem either (left : first.Munches r) (right : second.Munches s)
    (nonempty : r.matchEpsilon = false) (differ : firsts r ∩ firsts s = []) :
    (Choice.either first second).Munches (r + s) := by
  intro cs
  have taken := left cs
  rw [remainder?]
  generalize first.remainder? cs = found at taken ⊢
  cases taken with
  | none absent =>
    have taken := right cs
    show LeavesLongest (r + s) cs (second.remainder? cs)
    generalize second.remainder? cs = found at taken ⊢
    cases taken with
    | none absent' =>
      refine .none fun v word => ?_
      rcases word with word | word
      · exact absent v word
      · exact absent' v word
    | some matched text longest =>
      refine .some (.inr matched) text fun v word begins => ?_
      rcases word with word | word
      · exact absurd begins (absent v word)
      · exact longest v word begins
  | @some w left matched text longest =>
    refine .some (.inl matched) text fun v word begins => ?_
    rcases word with word | word
    · exact longest v word begins
    -- The second alternative begins with another letter than the first one has begun with.
    cases w with
    | nil =>
      rw [matchEpsilon_eq_true_iff.2 matched] at nonempty
      cases nonempty
    | cons c w =>
      cases v with
      | nil => exact List.nil_prefix
      | cons a v =>
        rw [text] at begins
        obtain ⟨rfl, _⟩ := List.cons_prefix_cons.1 begins
        exact (List.inter_eq_nil_iff_disjoint.1 differ (mem_firsts matched) (mem_firsts word)).elim

/-- An optional part is taken if it is there. -/
theorem maybe (h : part.Munches r) : (Choice.maybe part).Munches (optional r) := by
  intro cs
  have taken := h cs
  rw [remainder?]
  generalize part.remainder? cs = found at taken ⊢
  cases taken with
  | none absent =>
    refine .some (.inl rfl) rfl fun v word begins => ?_
    rcases word with empty | word
    · exact (Language.mem_one v).1 empty ▸ List.nil_prefix
    · exact absurd begins (absent v word)
  | some matched text longest =>
    refine .some (.inr matched) text fun v word begins => ?_
    rcases word with empty | word
    · exact (Language.mem_one v).1 empty ▸ List.nil_prefix
    · exact longest v word begins

/-! ### Primitives -/

/-- A primitive for one character takes a letter. -/
theorem one (letter : Letter accept r) : (leaf (.consume accept .one)).Munches r := by
  intro cs
  cases cs with
  | nil =>
    refine .none fun v word begins => ?_
    obtain ⟨a, _, rfl⟩ := (letter v).1 word
    cases List.prefix_nil.1 begins
  | cons c cs =>
    rw [remainder?, Primitive.remainder?]
    cases accepted : accept c with
    | false =>
      simp only [Primitive.runLength_cons_of_not_accept accepted, Nat.lt_irrefl, if_false]
      refine .none fun v word begins => ?_
      obtain ⟨a, member, rfl⟩ := (letter v).1 word
      obtain ⟨rfl, _⟩ := List.cons_prefix_cons.1 begins
      rw [accepted] at member
      cases member
    | true =>
      simp only [Primitive.runLength_cons_of_accept accepted, Nat.zero_lt_succ, if_true]
      refine .some ((letter [c]).2 ⟨c, accepted, rfl⟩) rfl fun v word begins => ?_
      obtain ⟨a, _, rfl⟩ := (letter v).1 word
      obtain ⟨rfl, _⟩ := List.cons_prefix_cons.1 begins
      exact List.prefix_refl _

/-- A primitive for any number of characters takes the longest word of a
starred letter. -/
theorem zeroOrMore (letter : Letter accept r) :
    (leaf (.consume accept .zeroOrMore)).Munches r.star := by
  intro cs
  have text : cs = cs.takeWhile accept ++ cs.drop (Primitive.runLength accept cs) := by
    have dropped : (cs.takeWhile accept ++ cs.dropWhile accept).drop (cs.takeWhile accept).length
        = cs.dropWhile accept := List.drop_left
    rw [List.takeWhile_append_dropWhile] at dropped
    rw [Primitive.runLength, dropped, List.takeWhile_append_dropWhile]
  refine .some (letter.mem_star.2 fun c => List.mem_takeWhile_imp) text ?_
  rintro v word ⟨more, rfl⟩
  rw [List.takeWhile_append_of_pos (letter.mem_star.1 word)]
  exact List.prefix_append _ _

/-- At most one character is an optional one. -/
theorem zeroOrOne (letter : Letter accept r) :
    (leaf (.consume accept .zeroOrOne)).Munches (optional r) := by
  intro cs
  -- The primitive leaves what the optional part leaves.
  have same : (leaf (.consume accept .zeroOrOne)).remainder? cs
      = (Choice.maybe (leaf (.consume accept .one))).remainder? cs := by
    simp only [remainder?, Primitive.remainder?]
    rcases Nat.eq_zero_or_pos (Primitive.runLength accept cs) with none | some
    · rw [none]
      rfl
    · rw [if_pos some]
      exact congrArg (fun n => Option.some (cs.drop n)) (Nat.min_eq_right some)
  rw [same]
  exact (one letter).maybe cs

/-- At least one character is one and then any number of them. -/
theorem oneOrMore (letter : Letter accept r) :
    (leaf (.consume accept .oneOrMore)).Munches (repeated r) := by
  intro cs
  -- The primitive leaves what the sequence of these two leaves.
  have same : (leaf (.consume accept .oneOrMore)).remainder? cs
      = (Choice.both (leaf (.consume accept .one))
          (leaf (.consume accept .zeroOrMore))).remainder? cs := by
    simp only [remainder?, Primitive.remainder?]
    cases cs with
    | nil => rfl
    | cons c cs =>
      cases accepted : accept c with
      | false => simp [Primitive.runLength_cons_of_not_accept accepted]
      | true => simp [Primitive.runLength_cons_of_accept accepted]
  rw [same]
  exact (one letter).both (zeroOrMore letter) (apart_of_single letter.length_eq_one _) cs

end Munches

end Choice

end ScanExpr
