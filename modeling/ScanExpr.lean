import ScanExpr.Text.Unprintable
import ScanExpr.Text.Quoted
import ScanExpr.Text.Dump
import ScanExpr.CharClass.Basic
import ScanExpr.CharClass.ByteSet
import ScanExpr.CharClass.RangeNotation
import ScanExpr.CharClass.ByteSetEdit
import ScanExpr.CharClass.CharSet
import ScanExpr.CharClass.CharRange
import ScanExpr.Stream.Basic
import ScanExpr.Stream.Primitive
import ScanExpr.Text.Source
import ScanExpr.Stream.Cursor
import ScanExpr.Stream.Tape
import ScanExpr.Stream.Position
import ScanExpr.Expr.Connective
import ScanExpr.Expr.Level
import ScanExpr.Expr.LevelStack
import ScanExpr.Matcher.Misuse
import ScanExpr.Matcher.Event
import ScanExpr.Matcher.Basic
import ScanExpr.Matcher.Call
import ScanExpr.Matcher.Chain
import ScanExpr.Stream.Routine
import ScanExpr.Script.Answer
import ScanExpr.Script.StreamOp
import ScanExpr.Script.Session
import ScanExpr.Script.Step
import ScanExpr.Script.Tokens
import ScanExpr.Proofs.Matcher.Run
import ScanExpr.Proofs.Phrase.Basic
import ScanExpr.Proofs.Expr.Level
import ScanExpr.Proofs.Phrase.Walk
import ScanExpr.Proofs.Phrase.Evaluate
import ScanExpr.Proofs.Stream.Boundary
import ScanExpr.Proofs.Matcher.Reached
import ScanExpr.Proofs.Phrase.Choice
import ScanExpr.Proofs.Phrase.Kept
import ScanExpr.Proofs.Matcher.Chain
import ScanExpr.Proofs.Phrase.Nested
import ScanExpr.Proofs.Matcher.Misuse
import ScanExpr.Proofs.Matcher.Alike
import ScanExpr.Proofs.Matcher.Procedure
import ScanExpr.Proofs.Matcher.Independence
import ScanExpr.Proofs.Matcher.Lockstep
import ScanExpr.Proofs.Matcher.Levels
import ScanExpr.Proofs.Matcher.Positions
import ScanExpr.Proofs.Phrase.Row
import ScanExpr.Proofs.Phrase.Plain
import ScanExpr.Proofs.Phrase.Alternation
import ScanExpr.Proofs.Matcher.Unread
import ScanExpr.Proofs.Matcher.Session
import ScanExpr.Proofs.Matcher.SessionText
import ScanExpr.Proofs.Text.Source
import ScanExpr.Proofs.Stream.Interior
import ScanExpr.Proofs.Stream.Offset
import ScanExpr.Proofs.Stream.Decoding
import ScanExpr.Proofs.Stream.Consumed
import ScanExpr.Proofs.CharClass.RangeNotation
import ScanExpr.Proofs.CharClass.ByteSet
import ScanExpr.Proofs.Phrase.Skipped
import ScanExpr.Proofs.Phrase.Bracketing
import ScanExpr.Proofs.Phrase.Repetition
import ScanExpr.Proofs.Stream.Slice
import ScanExpr.Proofs.Stream.Stranded
import ScanExpr.Proofs.Matcher.Log
import ScanExpr.Proofs.Phrase.Terse
import ScanExpr.Proofs.Phrase.Longest
import ScanExpr.Proofs.Phrase.Number
import ScanExpr.Proofs.CharClass.CharSet
import ScanExpr.Proofs.CharClass.Seam
import ScanExpr.Proofs.Expr.Reading
