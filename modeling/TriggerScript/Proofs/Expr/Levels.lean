import TriggerScript.Proofs.Expr.Reading
import TriggerScript.Proofs.Outcome

/-!
# Levels of operators

The parser has a level for every precedence. A level reads the operands of its precedence: from left to right where it
joins them, and from the level above otherwise.
-/

namespace TriggerScript

namespace Parser

/-- The level of the parser that reads operands which bind at least this tightly. -/
def level (nested : Parser Expr) : Nat → Parser Expr
  | 1 => disjunction nested
  | 2 => conjunction nested
  | 3 => negation nested
  | 4 => comparison nested
  | 5 => sum nested
  | 6 => product nested
  | _ => signed nested

/-- The operators of a level that joins operands from left to right. -/
def levelOp? : Nat → TokenKind → Option (Expr → Expr → Expr)
  | 1 => disjunctionOp?
  | 2 => conjunctionOp?
  | 5 => sumOp?
  | 6 => productOp?
  | _ => fun _ => none

/-- Whether a level joins operands from left to right. -/
def isChain : Nat → Bool
  | 1 | 2 | 5 | 6 => true
  | _ => false

/-- A level of operators that chain is a chain of the next level. -/
theorem level_eq_chain (nested : Parser Expr) {least : Nat} (h : isChain least) :
    level nested least = chain (level nested (least + 1)) (levelOp? least) := by
  unfold isChain at h
  split at h
  case h_5 => cases h
  all_goals rfl

/-- Only tokens that bind as tightly as a level are operators of it. -/
theorem levelOp?_eq_none {least : Nat} {kind : TokenKind} (h : kind.binding ≠ least) : levelOp? least kind = none := by
  unfold levelOp?
  split
  · unfold disjunctionOp?
    split
    · exact absurd rfl h
    · rfl
  · unfold conjunctionOp?
    split
    · exact absurd rfl h
    · rfl
  · unfold sumOp?
    split
    · exact absurd rfl h
    · exact absurd rfl h
    · rfl
  · unfold productOp?
    split
    · exact absurd rfl h
    · exact absurd rfl h
    · exact absurd rfl h
    · rfl
  · rfl

/-- Only symbols that bind as comparisons do are comparisons. -/
theorem comparisonOp?_eq_none {kind : TokenKind} (h : kind.binding ≠ 4) : comparisonOp? kind = none := by
  unfold comparisonOp?
  split
  case h_7 => rfl
  all_goals exact absurd rfl h

/-- A comparison is told by its symbol. -/
theorem comparisonOp?_symbol (op : ComparisonOp) : comparisonOp? (.symbol op.symbol) = some op := by
  cases op <;> rfl

theorem binding_symbol (op : ComparisonOp) : (TokenKind.symbol op.symbol).binding = 4 := by
  cases op <;> rfl

/-- A tree joins two operands by the operator of a level. -/
structure IsJoin (e left right : Expr) (sign : Symbol) (join : Expr → Expr → Expr) : Prop where
  left_mem : left ∈ e.children
  left_source : left.isSource
  right_source : right.isSource
  tokens_eq : e.tokens =
    left.operandTokens e.precedence left.tokens ++ .symbol sign :: right.operandTokens (e.precedence + 1) right.tokens
  binding_eq : (TokenKind.symbol sign).binding = e.precedence
  op_eq : levelOp? e.precedence (.symbol sign) = some join
  bare_join : ∀ left' right', left'.bare = left.bare → right'.bare = right.bare → (join left' right').bare = e.bare

/-- A tree at a level of operators that chain joins two operands. -/
theorem exists_isJoin {e : Expr} (he : e.isSource) (h : isChain e.precedence) :
    ∃ left right sign join, IsJoin e left right sign join := by
  cases e with
  | arithmetic mark op left right =>
    simp only [Expr.isSource, Bool.and_eq_true] at he
    cases op
    all_goals
      refine ⟨left, right, _, _, by simp [Expr.children], he.1, he.2, by rw [Expr.tokens], rfl, rfl, ?_⟩
      intro left' right' hleft hright
      simp only [joinAt, Expr.bare, hleft, hright]
  | logical mark op left right =>
    cases op with
    | not => cases h
    | and | or =>
      cases left with
      | none => cases he
      | some left =>
        simp only [Expr.isSource, Bool.and_eq_true] at he
        refine ⟨left, right, _, _, by simp [Expr.children], he.1, he.2, by rw [Expr.tokens]; rfl, rfl, rfl, ?_⟩
        intro left' right' hleft hright
        simp only [joinAt, Expr.bare, Expr.bareOption, hleft, hright]
  | _ => cases h

/-- No tree binds tighter than what needs no parentheses. -/
theorem precedence_le (e : Expr) : e.precedence ≤ 7 := by
  unfold Expr.precedence
  split <;> decide

/-- An operand that does not have the precedence of a level, or keeps its parentheses, is an operand of the level above. -/
theorem operandTokens_succ {e : Expr} {least : Nat} (h : ¬(e.precedence = least ∧ e.isGrouped = false))
    (kinds : List TokenKind) : e.operandTokens least kinds = e.operandTokens (least + 1) kinds := by
  unfold Expr.operandTokens
  cases hgrouped : e.isGrouped with
  | true => rfl
  | false =>
    have hne : e.precedence ≠ least := fun heq => h ⟨heq, hgrouped⟩
    have hiff : e.precedence < least ↔ e.precedence < least + 1 := by omega
    simp only [Bool.false_or, hiff]

/-- An operand that has the precedence of a level stands without parentheses. -/
theorem operandTokens_eq {e : Expr} {least : Nat} (h : e.precedence = least ∧ e.isGrouped = false)
    (kinds : List TokenKind) : e.operandTokens least kinds = kinds := by
  simp [Expr.operandTokens, h.1, h.2]

section Levels

variable (nested : Parser Expr) (size least : Nat) (e : Expr)

/-- A level reads an operand up to what binds less tightly than the level. -/
def ReadsAt : Prop :=
  ∀ following, (nextKind following).binding < least → (e.operandTokens least e.tokens).length ≤ size + 1 →
    ReadsTree (level nested least) (e.operandTokens least e.tokens) e following

/-- A level that joins operands reads an operand up to what binds as tightly as the level, and goes on there. -/
def ContinuesAt : Prop :=
  ∀ following, (nextKind following).binding ≤ least → (e.operandTokens least e.tokens).length ≤ size + 1 →
    Continues (level nested least) (chain.continueChain (level nested (least + 1)) (levelOp? least))
      (e.operandTokens least e.tokens) (fun e' => e'.bare = e.bare) following

end Levels

section Levels

variable {nested : Parser Expr} {size least : Nat}

/-- A level that joins operands goes on behind every operand, if the level above reads all operands. -/
theorem continuesAt_of_readsAt (hchain : isChain least) (habove : ∀ e, e.isSource → ReadsAt nested size (least + 1) e)
    {e : Expr} (he : e.isSource) : ContinuesAt nested size least e := by
  induction e using Expr.children_induction with
  | h e ih =>
    intro following hfollowing hsize
    by_cases hown : e.precedence = least ∧ e.isGrouped = false
    · obtain ⟨left, right, sign, join, hjoin⟩ := exists_isJoin he (hown.1 ▸ hchain)
      rw [operandTokens_eq hown, hjoin.tokens_eq, hown.1] at hsize ⊢
      simp only [List.length_append, List.length_cons] at hsize
      have hleft := ih left hjoin.left_mem hjoin.left_source
      have hright := habove right hjoin.right_source following (by omega) (by omega)
      refine (hleft _ ?_ (by omega)).step fun left' bound hleft' => ?_
      · exact Nat.le_of_eq (hjoin.binding_eq.trans hown.1)
      · have hop : levelOp? least (.symbol sign) = some join := hown.1 ▸ hjoin.op_eq
        exact leads_continueChain hop hright (fun right' hright' => hjoin.bare_join left' right' hleft' hright') bound
    · rw [operandTokens_succ hown] at hsize ⊢
      rw [level_eq_chain nested hchain]
      exact (habove e he following (by omega) hsize).continues _

/-- A level that joins operands reads them, if the level above does. -/
theorem readsAt_chain (hchain : isChain least) (habove : ∀ e, e.isSource → ReadsAt nested size (least + 1) e) {e : Expr}
    (he : e.isSource) : ReadsAt nested size least e := by
  intro following hfollowing hsize
  have hcontinues := continuesAt_of_readsAt hchain habove he following (by omega) hsize
  have hstop : levelOp? least (nextKind following) = none := levelOp?_eq_none (by omega)
  exact hcontinues.reads fun joined bound => reads_continueChain hstop joined bound

/-- What the level above reads is read by a level that joins operands, if no operator of the level follows. -/
theorem Leads.chained {kinds following : List TokenKind} {post : Expr → Prop}
    (h : Reads (level nested (least + 1)) kinds post following) (hchain : isChain least)
    (hfollowing : (nextKind following).binding ≠ least) : Reads (level nested least) kinds post following := by
  rw [level_eq_chain nested hchain]
  exact (h.continues _).reads fun joined bound => reads_continueChain (levelOp?_eq_none hfollowing) joined bound

/-- A sum is read by the level of comparisons, if no comparison follows. -/
theorem Leads.compared {kinds following : List TokenKind} {post : Expr → Prop} (h : Reads (sum nested) kinds post following)
    (hfollowing : (nextKind following).binding ≠ 4) : Reads (comparison nested) kinds post following := by
  unfold comparison
  refine h.finish fun e he => reads_peek.look fun next hnext => ?_
  have hstop : comparisonOp? next = none := comparisonOp?_eq_none (hnext ▸ hfollowing)
  rw [hstop]
  exact reads_pure he

/-- A comparison is read by the level of negations, if it does not begin with one. -/
theorem Leads.negated {kinds following : List TokenKind} {post : Expr → Prop}
    (h : Reads (comparison nested) kinds post following) (hkinds : nextKind (kinds ++ following) ≠ .symbol .bang)
    (bound : Nat) : Reads (negations nested bound) kinds post following := by
  cases bound with
  | zero => exact h
  | succ bound =>
    rw [negations]
    refine reads_current.look fun token htoken => ?_
    rw [if_neg (htoken ▸ hkinds)]
    exact h

/-- Signed operands are read as they stand or in parentheses. -/
theorem readsAt_signed (hnested : ReadsWithin nested size) {e : Expr} (he : e.isSource) : ReadsAt nested size 7 e := by
  intro following hfollowing hsize
  unfold Expr.operandTokens at hsize ⊢
  split at hsize
  case isTrue hgrouped =>
    rw [if_pos hgrouped]
    simp only [List.length_append, List.length_cons] at hsize
    have hbracket : nextKind following ≠ .symbol .leftBracket := fun heq => absurd hfollowing (by rw [heq]; decide)
    exact (reads_grouped hnested he (by omega) following).signed rfl hbracket
  case isFalse hplain =>
    rw [if_neg hplain]
    simp only [Bool.or_eq_true, decide_eq_true_eq, not_or] at hplain
    have hle := precedence_le e
    exact reads_atom hnested he (by omega) hsize hfollowing

/-- Comparisons have sums on both sides. -/
theorem readsAt_comparison (habove : ∀ e, e.isSource → ReadsAt nested size 5 e) {e : Expr} (he : e.isSource) :
    ReadsAt nested size 4 e := by
  intro following hfollowing hsize
  by_cases hown : e.precedence = 4 ∧ e.isGrouped = false
  · rw [operandTokens_eq hown] at hsize ⊢
    cases e with
    | comparison mark op left right =>
      simp only [Expr.isSource, Bool.and_eq_true] at he
      simp only [Expr.tokens, List.length_append, List.length_cons] at hsize
      have hleft := habove left he.1
      have hright := habove right he.2 following (by omega) (by omega)
      rw [Expr.tokens, level, comparison]
      refine (hleft _ ?_ (by omega)).bind fun left' hleft' => ?_
      · exact Nat.lt_of_le_of_lt (Nat.le_of_eq (binding_symbol op)) (by decide)
      refine reads_peek.look fun next hnext => ?_
      have hop : comparisonOp? next = some op := hnext ▸ comparisonOp?_symbol op
      rw [hop]
      refine (reads_advance _).bind fun _ _ => hright.finish fun right' hright' => reads_pure ?_
      simp only [Expr.bare, hleft', hright']
    | arithmetic mark op left right => cases op <;> cases hown.1
    | logical mark op left right => cases op <;> cases hown.1
    | _ => cases hown.1
  · rw [operandTokens_succ hown] at hsize ⊢
    exact (habove e he following (by omega) hsize).compared (by omega)

/-- Negations are read from the left, as many as there are. -/
theorem reads_negations (habove : ∀ e, e.isSource → ReadsAt nested size 4 e) {e : Expr} (he : e.isSource)
    {following : List TokenKind} (hfollowing : (nextKind following).binding < 3)
    (hsize : (e.operandTokens 3 e.tokens).length ≤ size + 1) {bound : Nat}
    (hbound : (e.operandTokens 3 e.tokens).length ≤ bound) :
    ReadsTree (negations nested bound) (e.operandTokens 3 e.tokens) e following := by
  induction e using Expr.children_induction generalizing bound with
  | h e ih =>
    by_cases hown : e.precedence = 3 ∧ e.isGrouped = false
    · rw [operandTokens_eq hown] at hsize hbound ⊢
      cases e with
      | logical mark op left right =>
        cases op with
        | and | or => cases hown.1
        | not =>
          cases left with
          | some left => cases he
          | none =>
            simp only [Expr.tokens, List.length_cons] at hsize hbound
            cases bound with
            | zero => cases hbound
            | succ bound =>
              have hright := ih right (by simp [Expr.children]) he (by omega) (Nat.le_of_succ_le_succ hbound)
              simp only [Expr.tokens, negations]
              refine reads_current.look fun token htoken => ?_
              have hbang : token.kind = .symbol .bang := htoken
              rw [if_pos hbang]
              refine (reads_advance _).bind fun _ _ => hright.finish fun right' hright' => reads_pure ?_
              simp only [Expr.bare, Expr.bareOption, hright']
      | arithmetic mark op left right => cases op <;> cases hown.1
      | _ => cases hown.1
    · rw [operandTokens_succ hown] at hsize ⊢
      have hfirst := (Expr.nextKind_operandTokens 4 (Expr.nextKind_tokens he following)).2
      exact (habove e he following (by omega) hsize).negated (fun hbang => absurd (hfirst hbang) (by decide)) bound

/-- A negation is read at its level if comparisons are at theirs. -/
theorem readsAt_negation (habove : ∀ e, e.isSource → ReadsAt nested size 4 e) {e : Expr} (he : e.isSource) :
    ReadsAt nested size 3 e := by
  intro following hfollowing hsize
  rw [level, negation]
  refine reads_remaining.look fun bound hbound => reads_negations habove he hfollowing hsize ?_
  rw [hbound, List.length_append]
  omega

/-- The first level reads all operands, if what is nested is read. -/
theorem readsAt_disjunction (hnested : ReadsWithin nested size) {e : Expr} (he : e.isSource) : ReadsAt nested size 1 e := by
  have hsigned : ∀ e, e.isSource → ReadsAt nested size 7 e := fun _ he => readsAt_signed hnested he
  have hproduct : ∀ e, e.isSource → ReadsAt nested size 6 e := fun _ he => readsAt_chain rfl hsigned he
  have hsum : ∀ e, e.isSource → ReadsAt nested size 5 e := fun _ he => readsAt_chain rfl hproduct he
  have hcomparison : ∀ e, e.isSource → ReadsAt nested size 4 e := fun _ he => readsAt_comparison hsum he
  have hnegation : ∀ e, e.isSource → ReadsAt nested size 3 e := fun _ he => readsAt_negation hcomparison he
  have hconjunction : ∀ e, e.isSource → ReadsAt nested size 2 e := fun _ he => readsAt_chain rfl hnegation he
  exact readsAt_chain rfl hconjunction he

/-- A result is read by the first level up to what ends an expression. -/
theorem reads_disjunction_returned (hnested : ReadsWithin nested size) {mark : Mark} {value : Expr}
    (hsource : value.isSource) (hvalue : value.isValue) (hsize : value.tokens.length ≤ size) {following : List TokenKind}
    (hfollowing : (nextKind following).binding = 0) :
    ReadsTree (disjunction nested) (Expr.returned mark value).tokens (.returned mark value) following := by
  have hbracket : nextKind following ≠ .symbol .leftBracket := fun heq => absurd hfollowing (by rw [heq]; decide)
  let kinds := (Expr.returned mark value).tokens
  have hprimary : ReadsTree (primary nested) kinds (.returned mark value) following :=
    reads_returned hnested hsource hvalue hsize hfollowing
  have hbang : nextKind (kinds ++ following) ≠ .symbol .bang := by
    intro hbang
    cases hbang
  have hsigned : Reads (level nested 7) kinds _ following := hprimary.signed rfl hbracket
  have hproduct : Reads (level nested 6) kinds _ following := hsigned.chained rfl (by omega)
  have hsum : Reads (level nested 5) kinds _ following := hproduct.chained rfl (by omega)
  have hnegation : Reads (level nested 3) kinds _ following :=
    reads_remaining.look fun bound _ => (hsum.compared (by omega)).negated hbang bound
  have hconjunction : Reads (level nested 2) kinds _ following := hnegation.chained rfl (by omega)
  exact hconjunction.chained rfl (by omega)

/-- The first level reads every tree up to what ends an expression. Parentheses around the whole tree are not printed, so the
mark at its root makes no difference. -/
theorem reads_disjunction (hnested : ReadsWithin nested size) {e : Expr} (he : e.isSource)
    (hsize : e.tokens.length ≤ size + 1) {following : List TokenKind} (hfollowing : (nextKind following).binding = 0) :
    ReadsTree (disjunction nested) e.tokens e following := by
  cases hvalue : e.isValue with
  | false =>
    cases e with
    | returned mark value =>
      simp only [Expr.isSource, Bool.and_eq_true] at he
      exact reads_disjunction_returned hnested he.1 he.2 (Nat.le_of_succ_le_succ hsize) hfollowing
    | _ => cases hvalue
  | true =>
    have htokens := Expr.operandTokens_withMark hvalue
    have hread := readsAt_disjunction hnested ((e.isSource_withMark {}).trans he) following (by omega) (htokens ▸ hsize)
    rw [htokens] at hread
    exact hread.weaken fun e' he' => he'.trans (e.bare_withMark {})

end Levels

/-- Trees with less tokens than the nesting allows are read. -/
theorem readsWithin_expressionWithin (depth : Nat) : ReadsWithin (expressionWithin depth) depth := by
  induction depth with
  | zero =>
    intro e he hsize
    have hfirst := (Expr.nextKind_tokens he []).1
    rw [List.length_eq_zero_iff.mp (Nat.le_zero.mp hsize)] at hfirst
    cases hfirst
  | succ depth ih =>
    intro e he hsize following hfollowing
    exact reads_disjunction ih he hsize hfollowing

/-- A tree is read from its tokens in front of what does not go on with it. -/
theorem reads_expression {e : Expr} (he : e.isSource) {following : List TokenKind}
    (hfollowing : (nextKind following).binding = 0) : ReadsTree expression e.tokens e following := by
  unfold expression
  refine reads_remaining.look fun count hcount => ?_
  refine readsWithin_expressionWithin _ e he ?_ following hfollowing
  rw [hcount, List.length_append]
  omega

end Parser

/-- A text that prints as the tokens of a tree is read as a tree that is the same. -/
theorem Expr.parse_of_printsAs {text : String} {e : Expr} (he : e.isSource) (h : PrintsAs text e.tokens) :
    ∃ e', parse text = .ok e' ∧ e'.same e := by
  obtain ⟨tokens, htokens, hkinds⟩ := h.tokenize
  have hreads : Parser.ReadsTree Parser.expression e.tokens e [.endOfScript] := Parser.reads_expression he rfl
  obtain ⟨e', after, hread, hbare, hafter⟩ := hreads (.ofTokens tokens) hkinds
  refine ⟨e', ?_, same_of_bare_eq hbare⟩
  have hend : after.current.kind = .endOfScript := by rw [after.kind_current, hafter]; rfl
  refine bind_eq_ok.mpr ⟨tokens, mapError_eq_ok.mpr htokens, bind_eq_ok.mpr ⟨(e', after), hread, ?_⟩⟩
  exact if_pos hend

/-- The text that a tree prints as is read as a tree that is the same. -/
theorem Expr.parse_render {e : Expr} (he : e.isSource) : ∃ e', parse e.render = .ok e' ∧ e'.same e :=
  parse_of_printsAs he (printsAs_render he)

end TriggerScript
