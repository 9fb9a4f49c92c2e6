import ScanExpr.Proofs.CharClass.ByteSet
import ScanExpr.Proofs.Phrase.Longest
import ScanExpr.Proofs.Phrase.Terse

/-!
# `ScanExpr.Proofs.Phrase.Number`: numbers as an expression

The grammar of numbers `-?(0|[1-9][0-9]*)(\.[0-9]+)?([eE][-+]?[0-9]+)?` can be
written as a typed expression with one step for each part. Here it is written
three times: as the expression (`Chain.number`), as a grammar of ordered choice
(`Choice.number`) and as a regular expression (`Regex.number`).

The expression is the grammar with few groups, and the grammar takes the
longest match (`Choice.munches_number`). No part of it begins with a letter
with which the part before it could have gone on, and a zero is no other
digit. What has been read in vain of a fraction or of an exponent is given
back, since these parts are groups.

`Choice.Munches.run` says what this comes to for any grammar that takes the
longest match, and `Chain.number_run` is the main result.
-/

set_option autoImplicit false

namespace ScanExpr

/-! ### Expressions that take the longest match -/

/-- A typed expression that is written with few groups and takes the longest
match, on a cursor between two characters and whatever the matcher was doing
before: the result is true exactly if some prefix of what is left to read is
matched. Then the cursor is left behind the longest such prefix, and
otherwise where it was. -/
theorem Choice.Munches.run {tree : Choice} {r : RegularExpression Char} (munches : tree.Munches r)
    {chain : Chain Primitive (.operand 0 true)} {calls : List (Call Primitive)}
    (amounts : chain.calls = (calls ++ [Call.result]).map some)
    (written : calls.flatMap Call.expand = (tree.terse false .done).calls) {src : Source}
    {m : Matcher (Cursor src) Cursor.Mark} {cs : List Char} (stands : m.stream.Precedes cs) :
    ∃ matched d, (chain.run Primitive.verdict m).getLast?
        = some ⟨.concluded matched, .start d, [.concluded matched]⟩ ∧
      (matched = true ↔ ∃ w ∈ r.matches', w <+: cs) ∧
      (matched = true → ∃ w left, w ∈ r.matches' ∧ cs = w ++ left ∧ d.Precedes left ∧
        ∀ v ∈ r.matches', v <+: cs → v.length ≤ w.length) ∧
      (matched = false → d = m.stream) := by
  obtain ⟨v, agrees, last⟩ := run_terse Cursor.reads_precedes tree amounts written stands
  refine ⟨v.matched, v.stream, last, ?_⟩
  -- What is left after a match is told by the grammar, and the longest word by the expression.
  have taken := munches cs
  generalize tree.remainder? cs = left? at agrees taken
  cases taken with
  | @some w left word text longest =>
    obtain ⟨matched, ends⟩ := agrees
    rw [matched]
    refine ⟨iff_of_true rfl ⟨w, word, text ▸ List.prefix_append w left⟩, fun _ => ?_,
      Bool.noConfusion⟩
    exact ⟨w, left, word, text, ends, fun v word begins => (longest v word begins).length_le⟩
  | none absent =>
    obtain ⟨failed, stays⟩ := agrees
    rw [failed]
    refine ⟨iff_of_false Bool.noConfusion ?_, Bool.noConfusion, fun _ => stays⟩
    rintro ⟨w, word, begins⟩
    exact absent w word begins

/-! ### The regular expression -/

namespace Regex

/-- The digits from zero on. -/
def digit : RegularExpression Char :=
  oneOf ['0', '1', '2', '3', '4', '5', '6', '7', '8', '9']

/-- The digits from one on. -/
def oneToNine : RegularExpression Char :=
  oneOf ['1', '2', '3', '4', '5', '6', '7', '8', '9']

/-- A minus sign or none, a zero or digits without a leading zero, then
perhaps a fraction, and then perhaps an exponent. -/
def number : RegularExpression Char :=
  optional (.char '-') * ((.char '0' + oneToNine * digit.star) *
    (optional (.char '.' * repeated digit) *
      optional (oneOf ['e', 'E'] * (optional (oneOf ['+', '-']) * repeated digit))))

/-- The byte set from `0` to `9` accepts the words of `digit`. -/
theorem letter_digit : Letter (CharClass.contains (ByteSet.ofRange 48 57)) digit :=
  letter_oneOf fun _ => ByteSet.contains_ofRange_iff

/-- The byte set from `1` to `9` accepts the words of `oneToNine`. -/
theorem letter_oneToNine : Letter (CharClass.contains (ByteSet.ofRange 49 57)) oneToNine :=
  letter_oneOf fun _ => ByteSet.contains_ofRange_iff

/-- A list of characters, as a class, accepts the words of `oneOf`. -/
theorem letter_list (cs : List Char) : Letter (CharClass.contains cs) (oneOf cs) :=
  letter_oneOf fun c => by simp [CharClass.contains]

end Regex

/-! ### Numbers -/

namespace Choice

/-- Numbers as a grammar of ordered choice. -/
def number : Choice :=
  let digits (shape : Shape) : Choice := .leaf (.matching (ByteSet.ofRange 48 57) shape)
  .both (.leaf (.matching '-' .zeroOrOne)) <|
    .both
      (.either (.leaf (.matching '0' .one))
        (.both (.leaf (.matching (ByteSet.ofRange 49 57) .one)) (digits .zeroOrMore))) <|
      .both
        (.maybe (.both (.leaf (.matching '.' .one)) (digits .oneOrMore)))
        (.maybe (.both (.leaf (.matching ['e', 'E'] .one))
          (.both (.leaf (.matching ['+', '-'] .zeroOrOne)) (digits .oneOrMore))))

/-- The grammar of numbers takes the longest match. -/
theorem munches_number : number.Munches Regex.number := by
  -- Part by part, as the grammar is built up; the side conditions are all about letters.
  have sign := Munches.zeroOrOne (Regex.letter_char '-')
  have zero := Munches.one (Regex.letter_char '0')
  have others := (Munches.one Regex.letter_oneToNine).both (.zeroOrMore Regex.letter_digit)
    (Regex.apart_of_single Regex.letter_oneToNine.length_eq_one _)
  -- A zero is none of the digits with which the other alternative begins.
  have whole := zero.either others rfl (by decide)
  have fraction := ((Munches.one (Regex.letter_char '.')).both (.oneOrMore Regex.letter_digit)
    (Regex.apart_of_letters (by decide))).maybe
  have power := (Munches.zeroOrOne (Regex.letter_list ['+', '-'])).both
    (.oneOrMore Regex.letter_digit) (Regex.apart_of_letters (by decide))
  have exponent := ((Munches.one (Regex.letter_list ['e', 'E'])).both power
    (Regex.apart_of_letters (by decide))).maybe
  have behind := fraction.both exponent (Regex.apart_of_letters (by decide))
  have unsigned := whole.both behind (Regex.apart_of_letters (by decide))
  exact sign.both unsigned (Regex.apart_of_letters (by decide))

end Choice

namespace Chain

/-- Numbers as a typed expression. -/
def number : Chain Primitive (.operand 0 true) :=
  .link (.attempt (.matching '-' .zeroOrOne)) <|
    .link (.connectEnter .and) <|
      .link (.attempt (.matching '0' .one)) <|
      .link (.connectEnter .or) <|
        .link (.attempt (.matching (ByteSet.ofRange 49 57) .one)) <|
        .link (.connect .and) <|
        .link (.attempt (.matching (ByteSet.ofRange 48 57) .zeroOrMore)) <|
      .link (.leaveWith .required) <|
    .link (.leaveWith .required) <|
    .link (.connectEnter .and) <|
      .link (.attempt (.matching '.' .one)) <|
      .link (.connect .and) <|
      .link (.attempt (.matching (ByteSet.ofRange 48 57) .oneOrMore)) <|
    .link (.leaveWith .optional) <|
    .link (.connectEnter .and) <|
      .link (.attempt (.matching ['e', 'E'] .one)) <|
      .link (.connect .and) <|
      .link (.attempt (.matching ['+', '-'] .zeroOrOne)) <|
      .link (.connect .and) <|
      .link (.attempt (.matching (ByteSet.ofRange 48 57) .oneOrMore)) <|
    .link (.leaveWith .optional) <|
    .link .result .stop

/-- In any text and from any place between two characters, whatever the
matcher was doing before, the expression gives the result true exactly if a
number begins there. Then the cursor is left behind the longest number that
does, and otherwise where it was. -/
theorem number_run {src : Source} (m : Matcher (Cursor src) Cursor.Mark) (rest : List Char)
    (stands : m.stream.Precedes rest) :
    ∃ matched d, (number.run Primitive.verdict m).getLast?
        = some ⟨.concluded matched, .start d, [.concluded matched]⟩ ∧
      (matched = true ↔ ∃ w ∈ Regex.number.matches', w <+: rest) ∧
      (matched = true → ∃ w left, w ∈ Regex.number.matches' ∧ rest = w ++ left ∧
        d.Precedes left ∧ ∀ v ∈ Regex.number.matches', v <+: rest → v.length ≤ w.length) ∧
      (matched = false → d = m.stream) := by
  -- Every step is a call of its own, since each group is closed in one step.
  have amounts : number.calls
      = (number.calls.reduceOption.dropLast ++ [Call.result]).map some := rfl
  exact Choice.munches_number.run amounts rfl stands

/-- A number is read up to an exponent that has no digits. From there on, and
from within the exponent, there is none. -/
theorem number_run_partial :
    ∃ (src : Source) (c d e : Cursor src),
      src.text = String.ofList ['x', '-', '1', '0', '.', '5', 'e', '+', 'y'] ∧
      c.Precedes ['-', '1', '0', '.', '5', 'e', '+', 'y'] ∧ d.Precedes ['e', '+', 'y'] ∧
      e.Precedes ['+', 'y'] ∧
      (number.run Primitive.verdict (.start c)).getLast?
        = some ⟨.concluded true, .start d, [.concluded true]⟩ ∧
      (number.run Primitive.verdict (.start e)).getLast?
        = some ⟨.concluded false, .start e, [.concluded false]⟩ := by
  let src : Source :=
    { text := String.ofList ['x', '-', '1', '0', '.', '5', 'e', '+', 'y'], fits := by decide }
  let c : Cursor src := ⟨1, by decide⟩
  let d : Cursor src := ⟨6, by decide⟩
  let e : Cursor src := ⟨7, by decide⟩
  have begins : c.Precedes ['-', '1', '0', '.', '5', 'e', '+', 'y'] :=
    ⟨['x'], String.toList_ofList, rfl⟩
  have ends : d.Precedes ['e', '+', 'y'] :=
    ⟨['x', '-', '1', '0', '.', '5'], String.toList_ofList, rfl⟩
  have within : e.Precedes ['+', 'y'] :=
    ⟨['x', '-', '1', '0', '.', '5', 'e'], String.toList_ofList, rfl⟩
  refine ⟨src, c, d, e, rfl, begins, ends, within, ?_, ?_⟩
  · obtain ⟨matched, t, last, matched_iff, behind, _⟩ := number_run (.start c) _ begins
    have word : ['-', '1', '0', '.', '5'] ∈ Regex.number.matches' := by decide +kernel
    have here : ['-', '1', '0', '.', '5'] <+: ['-', '1', '0', '.', '5', 'e', '+', 'y'] := by decide
    obtain rfl := matched_iff.2 ⟨_, word, here⟩
    obtain ⟨w, left, matched, text, stands, longest⟩ := behind rfl
    have long : 5 ≤ w.length := longest _ word here
    -- Among the few prefixes of the text the word is the only one that is long enough.
    have only : ∀ w ∈ ['-', '1', '0', '.', '5', 'e', '+', 'y'].inits,
        w ∈ Regex.number.matches' → 5 ≤ w.length → w = ['-', '1', '0', '.', '5'] := by
      decide +kernel
    have prefixed : w <+: ['-', '1', '0', '.', '5', 'e', '+', 'y'] :=
      text ▸ List.prefix_append w left
    obtain rfl := only w ((List.mem_inits _ _).2 prefixed) matched long
    have same : ['-', '1', '0', '.', '5'] ++ ['e', '+', 'y'] = ['-', '1', '0', '.', '5'] ++ left :=
      text
    obtain rfl := List.append_cancel_left same
    rw [last, stands.unique ends]
  · obtain ⟨matched, t, last, matched_iff, _, stays⟩ := number_run (.start e) _ within
    -- Not even the empty text is a number.
    have absent : ∀ w ∈ ['+', 'y'].inits, w ∉ Regex.number.matches' := by decide +kernel
    cases matched with
    | true =>
      obtain ⟨w, word, prefixed⟩ := matched_iff.1 rfl
      exact absurd word (absent w ((List.mem_inits _ _).2 prefixed))
    | false =>
      have same : t = e := stays rfl
      rw [last, same]

end Chain

end ScanExpr
