import TriggerScript.Main
import TriggerScript.Proofs.Formula
import TriggerScript.Proofs.Number
import TriggerScript.Proofs.Lowering.Comparison
import TriggerScript.Proofs.Lowering.Chains
import TriggerScript.Proofs.Lowering.Meaning
import TriggerScript.Proofs.Wire.Condition
import TriggerScript.Proofs.Wire.Trigger
import TriggerScript.Proofs.Wire.Value
import TriggerScript.Proofs.Wire.Colons
import TriggerScript.Proofs.Wire.Leaderboard
import TriggerScript.Proofs.Wire.Respelling
import TriggerScript.Proofs.Text.Bytes
import TriggerScript.Proofs.Wire.Reading
import TriggerScript.Proofs.Wire.Offsets
import TriggerScript.Proofs.RichPresence
import TriggerScript.Proofs.Lowering.Soundness
import TriggerScript.Proofs.Lowering.Arithmetic
import TriggerScript.Proofs.Lowering.Splitting
import TriggerScript.Proofs.Expr.Basic
import TriggerScript.Proofs.Token.Scanning
import TriggerScript.Proofs.Expr.Tokens
import TriggerScript.Proofs.Token.Stream
import TriggerScript.Proofs.Expr.Reading
import TriggerScript.Proofs.Expr.Levels
import TriggerScript.Proofs.Token.Lexed
import TriggerScript.Proofs.Expr.Source
import TriggerScript.Proofs.Token.Gaps
import TriggerScript.Proofs.Token.Words
import TriggerScript.Proofs.Token.Tiling
import TriggerScript.Proofs.Token.Iteration
import TriggerScript.Proofs.Expr.Nodes
import TriggerScript.Proofs.Eval.Fold
import TriggerScript.Proofs.Eval.Congruence
import TriggerScript.Proofs.Eval.Matching
import TriggerScript.Proofs.Eval.Agreement
import TriggerScript.Proofs.Eval.Builtins
import TriggerScript.Proofs.Eval.Scopes
import TriggerScript.Proofs.Eval.Resolution
import TriggerScript.Proofs.Eval.Scripts
import TriggerScript.Proofs.Eval.Registering
import TriggerScript.Proofs.Eval.Fixpoints
import TriggerScript.Proofs.Stmt.Source
import TriggerScript.Proofs.Eval.Nesting
import TriggerScript.Proofs.Eval.Termination
import TriggerScript.Proofs.Eval.Folding
import TriggerScript.Proofs.Eval.Comparison
import TriggerScript.Proofs.Eval.Defaults
import TriggerScript.Proofs.Eval.Dependencies
import TriggerScript.Proofs.Eval.Rereading
import TriggerScript.Proofs.Lowering.Nesting
import TriggerScript.Proofs.Lowering.Conservation
import TriggerScript.Proofs.Lowering.Acceptance
import TriggerScript.Proofs.Eval.Joins
import TriggerScript.Proofs.Exec.Frames
import TriggerScript.Proofs.Exec.Storing
import TriggerScript.Proofs.Eval.Truth
import TriggerScript.Proofs.Eval.Cycles
import TriggerScript.Proofs.Builtin.Ranges
import TriggerScript.Proofs.Builtin.Templates
import TriggerScript.Proofs.Token.Ending
import TriggerScript.Proofs.Expr.Ending
import TriggerScript.Proofs.Stmt.Ending
