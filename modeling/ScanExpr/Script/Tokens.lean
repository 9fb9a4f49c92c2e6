import ScanExpr.Script.Step

/-!
# `ScanExpr.Script.Tokens`: cutting a text into tokens

A `Rule` names a kind of token and gives the script that recognises it.
`tokenize` tries the rules in order at every position. It stops at the end
of the text, where no rule succeeds, or where the rule that does has not
moved the cursor.
-/

set_option autoImplicit false

namespace ScanExpr

/-- A kind of token and how to recognise it. -/
structure Rule where
  kind : String
  steps : List (Step CursorStep)

/-- A piece of the text and its kind. -/
structure Token where
  kind : String
  text : String
deriving DecidableEq

/-- The tokens of a text, and the position at which none could be found if
there is one. -/
structure Tokens where
  found : List Token
  rejectedAt : Option Nat
deriving DecidableEq

namespace Rule

variable {src : Source}

/-- Runs the rules in order on one matcher until one succeeds. Returns its
kind and the cursor as the last one that ran left it. -/
def firstMatch (m : Matcher (Cursor src) Cursor.Mark) : List Rule → Option String × Cursor src
  | [] => (none, m.stream)
  | rule :: rest =>
    let begun : Session (Cursor src) Cursor.Mark := ⟨m, []⟩
    let steps := Step.runAll rule.steps begun
    let ended := (Progress.finalSession begun steps).matcher
    if Answer.succeeded (Progress.answers steps) then (some rule.kind, ended.stream)
    else firstMatch ended rest

/-- The tokens from the cursor on, at most `limit` of them. -/
def tokensFrom (rules : List Rule) : Nat → Cursor src → Tokens
  | 0, _ => ⟨[], none⟩
  | limit + 1, c =>
    if c.atEnd then ⟨[], none⟩
    else
      match firstMatch (.start c) rules with
      | (none, d) => ⟨[], some d.pos.toNat⟩
      | (some kind, d) =>
        if d.pos = c.pos then ⟨[], some d.pos.toNat⟩
        else
          let tokens := tokensFrom rules limit d
          ⟨⟨kind, d.readSince c.mark⟩ :: tokens.found, tokens.rejectedAt⟩

/-- The tokens of a source. What is found at a position depends on nothing
else, so there are no more tokens than positions. -/
def tokenize (rules : List Rule) (src : Source) : Tokens :=
  tokensFrom rules (src.length.toNat + 1) (Cursor.start src)

end Rule

end ScanExpr
