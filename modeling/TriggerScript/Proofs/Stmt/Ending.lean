import TriggerScript.Proofs.Expr.Ending
import TriggerScript.Stmt.Parser

/-!
# Scripts without an end token

Statements are read alike in front of an end that is stated and of one that is implied. So a script is read from its tokens
with or without the token for its end: the same statements come out, or the same error, which is at most reported elsewhere
if it is reported at the end.
-/

namespace TriggerScript

open TokenStream

namespace Parser

section Statements

variable {implied stated : Span} {n : Nat}

/-- A default is read alike, and so is its absence. -/
theorem alike_default (earlier : List Parameter) (name : String) (span : Span) :
    Alike implied stated (Below n) (parameters.default? earlier name span) (parameters.default? earlier name span)
      (fun _ => Below n) := by
  refine alike_ifNext (by simp) (fun _ => ?_) fun next => ?_
  · rw [map_eq_pure_bind]
    exact ((consumes_expression n).keeps _ (by omega)).bind fun e => alike_return (by omega) (some e)
  · split
    · exact alike_fail _ _ _
    · exact (alike_pure none).ahead

/-- Parameters may be read with a bound that is larger by one. -/
theorem alike_parameters (bound : Nat) (earlier : List Parameter) :
    Alike implied stated (Below bound) (parameters bound earlier) (parameters (bound + 1) earlier)
      (fun _ => Below bound) := by
  induction bound generalizing earlier with
  | zero => exact alike_of_not fun _ => not_below_zero
  | succ bound ih =>
    rw [parameters, parameters]
    refine alike_ifNext (by simp) (fun _ => alike_return (Nat.le_succ bound) earlier) fun next => ?_
    refine (alike_current (fun token _ => ?_) fun _ _ => ?_).ahead
    · refine (alike_expectName _).ahead.bind fun name => ?_
      split
      · exact alike_fail _ _ _
      · refine (alike_default earlier name token.span).bind fun default? => ?_
        refine alike_ifNext (by simp) (fun _ => alike_return (by omega) _) fun next => ?_
        refine (alike_expect _ (by simp) _).ahead.bind fun _ => ?_
        exact (ih _).weaken (fun _ h => h.mono (by omega)) fun _ _ h => h.mono (Nat.le_succ bound)
    · exact (alike_expectName_end _).bind fun _ => alike_of_not fun _ h => h

/-- An assignment or an expression is read alike and uses up tokens. -/
theorem consumes_simpleStatement (k : Nat) : Consumes implied stated k simpleStatement simpleStatement := by
  intro n hn
  refine (consumes_expression k n hn).bind fun e => alike_peek.bind fun next => ?_
  split
  · rename_i hnext
    subst hnext
    cases assignTarget? e with
    | none => exact alike_fail _ _ _
    | some target =>
      refine (alike_skip (by simp)).bind fun _ => ((consumes_expression n).keeps n (Nat.le_refl n)).bind fun value => ?_
      exact alike_pure _
  · exact (alike_pure _).ahead

end Statements

/-! ## Blocks -/

section Blocks

variable {implied stated : Span} {k n : Nat} {nested nested' : Parser Stmt}
  (hnested : Consumes implied stated k nested nested')
include hnested

/-- The statements of a block may be read with a bound that is larger by one. -/
theorem alike_statementsUntilBrace {bound : Nat} (hbound : bound ≤ k) :
    Alike implied stated (Below bound) (statementsUntilBrace nested bound) (statementsUntilBrace nested' (bound + 1))
      (fun _ => Below bound) := by
  induction bound with
  | zero => exact alike_of_not fun _ => not_below_zero
  | succ bound ih =>
    rw [statementsUntilBrace, statementsUntilBrace]
    refine alike_ifNext (by simp) (fun _ => alike_return (Nat.le_succ bound) []) fun next => ?_
    split
    · exact alike_failExpecting _ _
    · refine (hnested bound hbound).ahead.bind fun first => (ih (by omega)).bind fun others => ?_
      exact alike_return (Nat.le_succ bound) _

/-- A block is read alike if the statements in it are. -/
theorem keeps_block : Keeps implied stated k (block nested) (block nested') := by
  intro n hn
  refine (alike_expect _ (by simp) _).bind fun _ => alike_remaining fun count hcount => ?_
  exact (alike_statementsUntilBrace hnested (by omega)).mono (by omega)

/-- The body of a function is read alike, as a block or as one expression. -/
theorem keeps_functionBody : Keeps implied stated k (functionBody nested) (functionBody nested') := by
  intro n hn
  have hblock := keeps_block hnested n hn
  refine alike_current (fun token htoken => ?_) fun _ _ => hblock.ahead
  split
  · refine (alike_skip htoken).bind fun _ => ((consumes_expression n).keeps n (Nat.le_refl n)).bind fun e => ?_
    exact alike_pure _
  · exact hblock.ahead

/-- A definition is read alike behind its keyword. -/
theorem alike_definition (hn : n ≤ k) :
    Alike implied stated (Ahead (n + 1) (.keyword .functionWord)) (definition nested) (definition nested')
      (fun _ => Below n) := by
  refine (alike_advance (by simp)).bind fun token => (alike_expectName _).bind fun name => ?_
  refine (alike_expect _ (by simp) _).bind fun _ => alike_remaining fun count hcount => ?_
  refine (alike_parameters (count + 1) []).bind fun params => ?_
  refine (keeps_functionBody hnested _ (by omega)).bind fun body => ?_
  exact alike_return (by omega) _

/-- A loop is read alike behind its keyword. -/
theorem alike_loop (hn : n ≤ k) :
    Alike implied stated (Ahead (n + 1) (.keyword .forWord)) (loop nested) (loop nested') (fun _ => Below n) := by
  refine (alike_advance (by simp)).bind fun _ => (alike_expectName _).bind fun name => ?_
  refine (alike_expect _ (by simp) _).bind fun _ => ?_
  refine ((consumes_expression k).keeps _ (by omega)).bind fun collection => ?_
  refine (keeps_block hnested _ (by omega)).bind fun body => ?_
  exact alike_return (by omega) _

/-- A choice is read alike behind its keyword, with and without its other branch. -/
theorem alike_choice (hn : n ≤ k) :
    Alike implied stated (Ahead (n + 1) (.keyword .ifWord)) (choice nested) (choice nested') (fun _ => Below n) := by
  refine (alike_advance (by simp)).bind fun _ => ((consumes_expression k).keeps n hn).bind fun condition => ?_
  refine (keeps_block hnested n hn).bind fun yes => ?_
  refine alike_ifNext (by simp) (fun _ => alike_peek.bind fun next => ?_) fun next => (alike_pure _).ahead
  split
  · exact (hnested.keeps _ (by omega)).ahead.bind fun no => alike_return (by omega) _
  · exact (keeps_block hnested _ (by omega)).ahead.bind fun no => alike_return (by omega) _

end Blocks

variable {implied stated : Span}

/-- Statements may be nested one level deeper than there are tokens. -/
theorem consumes_statementWithin (depth : Nat) :
    Consumes implied stated depth (statementWithin depth) (statementWithin (depth + 1)) := by
  induction depth with
  | zero =>
    intro n hn
    cases hn
  | succ depth ih =>
    intro n hn
    have hn' : n ≤ depth := Nat.le_of_lt_succ hn
    have hsimple : Alike implied stated (Below (n + 1)) simpleStatement simpleStatement (fun _ => Below n) :=
      consumes_simpleStatement (depth + 1) n hn
    rw [statementWithin, statementWithin]
    refine alike_peek.bind fun next => ?_
    cases next with
    | keyword word =>
      cases word with
      | functionWord => exact alike_definition ih hn'
      | forWord => exact alike_loop ih hn'
      | ifWord => exact alike_choice ih hn'
      | _ => exact hsimple.ahead
    | _ => exact hsimple.ahead

/-- A statement is read alike and uses up tokens. -/
theorem consumes_statement (k : Nat) : Consumes implied stated k statement statement := by
  intro n _
  refine alike_remaining fun count hcount => ?_
  exact (consumes_statementWithin (count + 1) count (by omega)).mono (by omega)

/-- The statements of a script may be read with a bound that is larger by one. -/
theorem alike_statements (bound : Nat) :
    Alike implied stated (Below bound) (statements bound) (statements (bound + 1)) (fun _ => Below bound) := by
  induction bound with
  | zero => exact alike_of_not fun _ => not_below_zero
  | succ bound ih =>
    rw [statements, statements]
    refine alike_peek.bind fun next => ?_
    split
    · exact (alike_pure []).ahead
    · refine (consumes_statement (bound + 1) bound (by omega)).ahead.bind fun first => ih.bind fun others => ?_
      exact alike_return (Nat.le_succ bound) _

end Parser

/-! ## Scripts -/

/-- Behind tokens none of which is an end, an end can be stated. -/
theorem TokenStream.endStated_ofTokens {tokens : List Token} (hopen : ∀ token ∈ tokens, token.kind ≠ .endOfScript)
    (span : Span) :
    (ofTokens tokens).EndStated (ofTokens tokens).ending span (ofTokens (tokens ++ [⟨.endOfScript, span⟩])) :=
  ⟨rfl, hopen, rfl⟩

/-- Tokens without an end are read as the same tokens with an end behind them: both give the same statements, with all their
places, or both fail with the same fault and the same cause. The errors are reported at the same place too, unless one is
reported where the last token ends and the other one at the end token. -/
theorem end_token_is_optional {tokens : List Token} {ending : Token} (hopen : ∀ token ∈ tokens, token.kind ≠ .endOfScript)
    (hending : ending.kind = .endOfScript) :
    (∃ statements, statementsOfTokens tokens = .ok statements ∧
        statementsOfTokens (tokens ++ [ending]) = .ok statements) ∨
      ∃ error error', statementsOfTokens tokens = .error error ∧
        statementsOfTokens (tokens ++ [ending]) = .error error' ∧
        error.fault = error'.fault ∧ error.message = error'.message ∧ error.cause? = error'.cause? ∧
        (error.span = error'.span ∨
          error.span = (TokenStream.ofTokens tokens).ending ∧ error'.span = ending.span) := by
  obtain ⟨kind, span⟩ := ending
  obtain rfl : kind = .endOfScript := hending
  have hbelow : (ofTokens tokens).Below (tokens.length + 1) := Nat.lt_succ_self _
  have hread := Parser.alike_statements (tokens.length + 1) (endStated_ofTokens hopen span) hbelow
  unfold statementsOfTokens StateT.run'
  rw [List.length_append, List.length_singleton]
  generalize Parser.statements (tokens.length + 1) (ofTokens tokens) = outcome at hread ⊢
  generalize Parser.statements (tokens.length + 1 + 1) _ = outcome' at hread ⊢
  cases hread with
  | ok => exact .inl ⟨_, rfl, rfl⟩
  | error h => exact .inr ⟨_, _, rfl, rfl, h.fault, congrArg Fault.message h.fault, h.cause?, h.span⟩

/-- A call that is cut off before its closing parenthesis. -/
def cutCall : List Token :=
  [⟨.name "f", ⟨0, 1, 1, 1⟩⟩, ⟨.symbol .leftParen, ⟨1, 2, 1, 2⟩⟩, ⟨.integer 7, ⟨2, 3, 1, 3⟩⟩]

/-- An end token behind an empty line. -/
def lateEnd : Token :=
  ⟨.endOfScript, ⟨5, 5, 3, 1⟩⟩

/-- A call that is cut off fails alike with and without a token for the end. -/
theorem end_token_is_optional_cutCall :
    (∀ token ∈ cutCall, token.kind ≠ .endOfScript) ∧ lateEnd.kind = .endOfScript ∧
      ∃ error error', statementsOfTokens cutCall = .error error ∧ statementsOfTokens (cutCall ++ [lateEnd]) = .error error' ∧
        error.fault = error'.fault ∧ error.message = error'.message ∧ error.cause? = error'.cause? ∧
        (error.span = error'.span ∨ error.span = (TokenStream.ofTokens cutCall).ending ∧ error'.span = lateEnd.span) := by
  have hopen : ∀ token ∈ cutCall, token.kind ≠ .endOfScript := by simp [cutCall]
  have hending : lateEnd.kind = .endOfScript := rfl
  refine ⟨hopen, hending, ?_⟩
  rcases end_token_is_optional hopen hending with ⟨statements, hread, _⟩ | herror
  · have hfails : (statementsOfTokens cutCall).toOption.isNone := by decide +kernel
    rw [hread] at hfails
    cases hfails
  · exact herror

end TriggerScript
