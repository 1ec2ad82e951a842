import TriggerScript.Proofs.Expr.Levels
import TriggerScript.Proofs.Token.Lexed

/-!
# Trees that are read

Every tree that is read from a script can be spelled in a script. Each level of the parser keeps this, whatever tokens come:
it puts names, signs and operands only where the printed form has them.
-/

namespace TriggerScript

/-- All tokens ahead can stand in a script. -/
def TokenStream.IsLexed (stream : TokenStream) : Prop :=
  ∀ token ∈ stream.tokens, token.kind.isLexed

/-- The current token of a lexed stream is lexed, also at the end. -/
theorem TokenStream.IsLexed.current {stream : TokenStream} (h : stream.IsLexed) : stream.current.kind.isLexed := by
  unfold IsLexed at h
  unfold TokenStream.current
  cases htokens : stream.tokens with
  | nil => rfl
  | cons token tokens => exact h token (htokens ▸ List.mem_cons_self)

namespace Parser

/-- Whatever tokens of a script come, the results of a parser meet a condition. -/
def Yields {α : Type} (parser : Parser α) (post : α → Prop) : Prop :=
  ∀ ⦃stream : TokenStream⦄ ⦃result : α⦄ ⦃after : TokenStream⦄, stream.IsLexed → parser stream = .ok (result, after) →
    post result ∧ after.IsLexed

section Steps

variable {α β : Type} {post : α → Prop} {post' : β → Prop}

/-- A parser goes on with what the one before it yields. -/
theorem Yields.bind {parser : Parser α} {next : α → Parser β} (h : Yields parser post)
    (hnext : ∀ result, post result → Yields (next result) post') : Yields (parser >>= next) post' := by
  intro stream result after hstream hok
  obtain ⟨⟨first, between⟩, hfirst, hrest⟩ := bind_eq_ok.mp hok
  obtain ⟨hpost, hbetween⟩ := h hstream hfirst
  exact hnext first hpost hbetween hrest

theorem Yields.weaken {parser : Parser α} {weaker : α → Prop} (h : Yields parser post)
    (hpost : ∀ result, post result → weaker result) : Yields parser weaker := by
  intro stream result after hstream hok
  obtain ⟨hresult, hafter⟩ := h hstream hok
  exact ⟨hpost result hresult, hafter⟩

theorem yields_pure {result : α} (h : post result) : Yields (pure result) post := by
  intro stream result' after hstream hok
  obtain ⟨rfl, rfl⟩ := Prod.mk.inj (Except.ok.inj hok)
  exact ⟨h, hstream⟩

/-- The current token is one that lexing makes. -/
theorem yields_current : Yields current (fun token => token.kind.isLexed) := by
  intro stream token after hstream hok
  obtain ⟨rfl, rfl⟩ := Prod.mk.inj (Except.ok.inj hok)
  exact ⟨hstream.current, hstream⟩

/-- The next token is of a kind that lexing makes. -/
theorem yields_peek : Yields peek (fun kind => kind.isLexed) := by
  intro stream kind after hstream hok
  obtain ⟨rfl, rfl⟩ := Prod.mk.inj (Except.ok.inj hok)
  exact ⟨hstream.current, hstream⟩

/-- Passing a token leaves a lexed stream. -/
theorem yields_advance : Yields advance (fun _ => True) := by
  intro stream token after hstream hok
  obtain ⟨rfl, rfl⟩ := Prod.mk.inj (Except.ok.inj hok)
  exact ⟨trivial, fun token htoken => hstream token (List.mem_of_mem_tail htoken)⟩

theorem yields_remaining : Yields remaining (fun _ => True) := by
  intro stream count after hstream hok
  obtain ⟨rfl, rfl⟩ := Prod.mk.inj (Except.ok.inj hok)
  exact ⟨trivial, hstream⟩

/-- A parser that fails yields nothing, so what it yields meets any condition. -/
theorem yields_failExpecting (what : Expectation) (cause? : Option Expr) : Yields (failExpecting what cause?) post :=
  nofun

theorem yields_failUnexpected : Yields failUnexpected post :=
  nofun

theorem yields_fail (fault : ParseFault) (span : Span) (cause? : Option Expr) : Yields (fail fault span cause?) post :=
  nofun

theorem yields_expect (kind : TokenKind) (what : Expectation) : Yields (expect kind what) (fun _ => True) := by
  refine yields_peek.bind fun next _ => ?_
  split
  · exact yields_advance.bind fun _ _ => yields_pure trivial
  · exact yields_failExpecting what none

/-- What has to be a value is one. -/
theorem yields_expectValue {place : Place} {e : Expr} (he : e.isSource) :
    Yields (expectValue place e) (fun e' => e'.isSource ∧ e'.isValue) := by
  unfold expectValue
  split
  case isTrue hvalue => exact yields_pure ⟨he, hvalue⟩
  case isFalse => exact yields_fail _ _ _

end Steps

/-! ## Lists and chains -/

/-- Entries between commas all meet what an entry meets. -/
theorem yields_entriesUntil {α : Type} {post : α → Prop} {closing : Symbol} {unclosed : Expectation} {entry : Parser α}
    (h : Yields entry post) (bound : Nat) :
    Yields (entriesUntil closing unclosed entry bound) (fun results => ∀ result ∈ results, post result) := by
  have hcloses : Yields (entriesUntil.closes closing unclosed) (fun _ => True) := by
    refine yields_peek.bind fun next _ => ?_
    split
    · exact yields_advance.bind fun _ _ => yields_pure trivial
    · split
      · exact yields_failExpecting _ _
      · exact yields_pure trivial
  induction bound with
  | zero => exact yields_failExpecting _ _
  | succ bound ih =>
    refine hcloses.bind fun closed _ => ?_
    cases closed with
    | true => exact yields_pure (List.forall_mem_nil _)
    | false =>
      refine h.bind fun first hfirst => hcloses.bind fun closed _ => ?_
      cases closed with
      | true => exact yields_pure (List.forall_mem_singleton.mpr hfirst)
      | false =>
        refine (yields_expect _ _).bind fun _ _ => ih.bind fun others hothers => yields_pure ?_
        exact List.forall_mem_cons.mpr ⟨hfirst, hothers⟩

/-- Operands that are joined by operators which keep a condition meet it together. -/
theorem yields_chain {post : Expr → Prop} {operand : Parser Expr} {join? : TokenKind → Option (Expr → Expr → Expr)}
    (h : Yields operand post)
    (hjoin : ∀ kind join, join? kind = some join → ∀ left right, post left → post right → post (join left right)) :
    Yields (chain operand join?) post := by
  have hcontinue : ∀ bound joined, post joined → Yields (chain.continueChain operand join? bound joined) post := by
    intro bound
    induction bound with
    | zero => exact fun joined hjoined => yields_pure hjoined
    | succ bound ih =>
      intro joined hjoined
      rw [chain.continueChain]
      refine yields_peek.bind fun next _ => ?_
      split
      case h_1 => exact yields_pure hjoined
      case h_2 join hop =>
        refine yields_advance.bind fun _ _ => h.bind fun operand hoperand => ih _ ?_
        exact hjoin next join hop joined operand hjoined hoperand
  exact h.bind fun first hfirst => yields_remaining.bind fun bound _ => hcontinue bound first hfirst

/-! ## Levels -/

section Levels

variable {nested : Parser Expr} (hnested : Yields nested (fun e => e.isSource))
include hnested

/-- A nested value. -/
theorem yields_nestedValue (place : Place) :
    Yields (do expectValue place (← nested)) (fun e => e.isSource ∧ e.isValue) :=
  hnested.bind fun _ he => yields_expectValue he

/-- Values up to a closing symbol can be written. -/
theorem yields_valuesUntil (closing : Symbol) (unclosed : Expectation) (place : Place) :
    Yields (valuesUntil nested closing unclosed place) (fun es => Expr.allSource es) := by
  refine yields_remaining.bind fun count _ => ?_
  exact (yields_entriesUntil (yields_nestedValue hnested place) _).weaken fun es hes => Expr.allSource_iff.mpr hes

/-- The key and the value of an entry can be written and are values. -/
theorem yields_entry :
    Yields (entry nested) (fun entry => (entry.1.isSource ∧ entry.1.isValue) ∧ entry.2.isSource ∧ entry.2.isValue) := by
  refine hnested.bind fun key hkey => (yields_expectValue hkey).bind fun key hkey => ?_
  refine (yields_expect _ _).bind fun _ _ => ?_
  refine hnested.bind fun value hvalue => (yields_expectValue hvalue).bind fun value hvalue => ?_
  exact yields_pure ⟨hkey, hvalue⟩

/-- A primary expression can be written: a literal, a name, a call, a collection or what is in parentheses. -/
theorem yields_primary : Yields (primary nested) (fun e => e.isSource) := by
  refine yields_current.bind fun token htoken => ?_
  obtain ⟨kind, span⟩ := token
  cases kind with
  | integer value =>
    refine yields_advance.bind fun _ _ => yields_pure (decide_eq_true ?_)
    rintro rfl
    cases htoken
  | text => exact yields_advance.bind fun _ _ => yields_pure rfl
  | name word =>
    refine yields_advance.bind fun _ _ => yields_peek.bind fun next _ => ?_
    split
    · refine yields_advance.bind fun _ _ => (yields_valuesUntil hnested _ _ _).bind fun args hargs => yields_pure ?_
      simp only [Expr.isSource, Bool.and_eq_true]
      exact ⟨htoken, hargs⟩
    · exact yields_pure htoken
  | keyword word =>
    cases word with
    | trueWord | falseWord => exact yields_advance.bind fun _ _ => yields_pure rfl
    | returnWord =>
      refine yields_advance.bind fun _ _ => hnested.bind fun value hvalue => ?_
      refine (yields_expectValue hvalue).bind fun value hvalue => yields_pure ?_
      simp only [Expr.isSource, Bool.and_eq_true]
      exact hvalue
    | _ => exact yields_failUnexpected
  | symbol sign =>
    cases sign with
    | leftParen =>
      refine yields_advance.bind fun _ _ => hnested.bind fun inner hinner => (yields_expect _ _).bind fun _ _ => ?_
      exact yields_pure ((inner.isSource_withMark _).trans hinner)
    | leftBracket =>
      exact yields_advance.bind fun _ _ => (yields_valuesUntil hnested _ _ _).bind fun es hes => yields_pure hes
    | leftBrace =>
      refine yields_advance.bind fun _ _ => yields_remaining.bind fun count _ => ?_
      refine (yields_entriesUntil (yields_entry hnested) _).bind fun es hes => yields_pure ?_
      exact Expr.entriesSource_iff.mpr hes
    | _ => exact yields_failUnexpected
  | endOfScript => exact yields_failUnexpected

/-- Indices behind an expression that can be written give one that can be written. -/
theorem yields_indices (bound : Nat) {base : Expr} (hbase : base.isSource) :
    Yields (indices nested bound base) (fun e => e.isSource) := by
  induction bound generalizing base with
  | zero => exact yields_pure hbase
  | succ bound ih =>
    rw [indices]
    refine yields_peek.bind fun next _ => ?_
    split
    case isFalse => exact yields_pure hbase
    case isTrue =>
      split
      case isFalse => exact yields_failExpecting _ _
      case isTrue hindexable =>
        refine yields_advance.bind fun _ _ => hnested.bind fun index hindex => ?_
        refine (yields_expectValue hindex).bind fun index hindex => (yields_expect _ _).bind fun _ _ => ih ?_
        have hindexBase : base.isIndexBase := by
          unfold isIndexable at hindexable
          split at hindexable
          · rfl
          · rfl
          · cases hindexable
        simp only [Expr.isSource, Bool.and_eq_true]
        exact ⟨⟨⟨hindexBase, hbase⟩, hindex.1⟩, hindex.2⟩

/-- An expression with its indices can be written. -/
theorem yields_indexed : Yields (indexed nested) (fun e => e.isSource) :=
  (yields_primary hnested).bind fun _ hbase => yields_remaining.bind fun bound _ => yields_indices hnested bound hbase

/-- Signs before a literal make it negative, and others are differences from zero. -/
theorem yields_signs (bound : Nat) : Yields (signs nested bound) (fun e => e.isSource) := by
  induction bound with
  | zero => exact yields_indexed hnested
  | succ bound ih =>
    rw [signs]
    refine yields_current.bind fun token _ => ?_
    split
    case isFalse => exact yields_indexed hnested
    case isTrue =>
      refine yields_advance.bind fun _ _ => yields_peek.bind fun next _ => ?_
      split
      case h_1 value =>
        refine yields_advance.bind fun _ _ => ?_
        split
        case isTrue => exact yields_fail _ _ _
        case isFalse hleast => exact yields_pure (decide_eq_true (neg_ne_minValue hleast))
      case h_2 =>
        refine ih.bind fun operand hoperand => yields_pure ?_
        simp only [Expr.isSource, Bool.and_eq_true]
        exact ⟨by decide, hoperand⟩

end Levels

section Operators

variable {nested : Parser Expr}

/-- An operator joins trees that a script can spell to one. -/
theorem isSource_levelOp {least : Nat} {kind : TokenKind} {join : Expr → Expr → Expr} (h : levelOp? least kind = some join)
    {left right : Expr} (hleft : left.isSource) (hright : right.isSource) : (join left right).isSource := by
  have hboth : (left.isSource && right.isSource) = true := by rw [hleft, hright, Bool.and_self]
  unfold levelOp? at h
  split at h
  · unfold disjunctionOp? at h
    split at h <;> cases h
    simpa only [joinAt, Expr.isSource] using hboth
  · unfold conjunctionOp? at h
    split at h <;> cases h
    simpa only [joinAt, Expr.isSource] using hboth
  · unfold sumOp? at h
    split at h <;> cases h
    all_goals simpa only [joinAt, Expr.isSource] using hboth
  · unfold productOp? at h
    split at h <;> cases h
    all_goals simpa only [joinAt, Expr.isSource] using hboth
  · cases h

/-- A chain of operators of one level can be written if its operands can. -/
theorem yields_level {least : Nat} (hchain : isChain least)
    (h : Yields (level nested (least + 1)) (fun e => e.isSource)) : Yields (level nested least) (fun e => e.isSource) := by
  rw [level_eq_chain nested hchain]
  exact yields_chain h fun kind join hop left right hleft hright => isSource_levelOp hop hleft hright

/-- A comparison can be written if its operands can. -/
theorem yields_comparison (h : Yields (sum nested) (fun e => e.isSource)) :
    Yields (comparison nested) (fun e => e.isSource) := by
  refine h.bind fun left hleft => yields_peek.bind fun next _ => ?_
  split
  · exact yields_pure hleft
  · refine yields_advance.bind fun _ _ => h.bind fun right hright => yields_pure ?_
    simp only [Expr.isSource, Bool.and_eq_true]
    exact ⟨hleft, hright⟩

/-- Negations can be written if what is negated can. -/
theorem yields_negations (h : Yields (comparison nested) (fun e => e.isSource)) (bound : Nat) :
    Yields (negations nested bound) (fun e => e.isSource) := by
  induction bound with
  | zero => exact h
  | succ bound ih =>
    rw [negations]
    refine yields_current.bind fun token _ => ?_
    split
    · exact yields_advance.bind fun _ _ => ih.bind fun operand hoperand => yields_pure hoperand
    · exact h

/-- The first level yields trees that a script can spell, if what is nested does. -/
theorem yields_disjunction (hnested : Yields nested (fun e => e.isSource)) :
    Yields (disjunction nested) (fun e => e.isSource) := by
  have hsigned : Yields (level nested 7) (fun e => e.isSource) :=
    yields_remaining.bind fun bound _ => yields_signs hnested bound
  have hsum : Yields (level nested 5) (fun e => e.isSource) := yields_level rfl (yields_level rfl hsigned)
  have hnegation : Yields (level nested 3) (fun e => e.isSource) :=
    yields_remaining.bind fun bound _ => yields_negations (yields_comparison hsum) bound
  have hdisjunction : Yields (level nested 1) (fun e => e.isSource) :=
    yields_level rfl (yields_level rfl hnegation)
  exact hdisjunction

end Operators

/-- An expression, nested as deep as it may be, can be written. -/
theorem yields_expressionWithin (depth : Nat) : Yields (expressionWithin depth) (fun e => e.isSource) := by
  induction depth with
  | zero => exact yields_failUnexpected
  | succ depth ih => exact yields_disjunction ih

/-- What is parsed can be written. -/
theorem yields_expression : Yields expression (fun e => e.isSource) :=
  yields_remaining.bind fun count _ => yields_expressionWithin (count + 1)

end Parser

/-- A tree that is read from a text can be spelled in a script. -/
theorem Expr.isSource_of_parse {source : String} {e : Expr} (h : parse source = .ok e) : e.isSource := by
  unfold parse at h
  obtain ⟨tokens, htokens, h⟩ := bind_eq_ok.mp h
  obtain ⟨⟨read, after⟩, hread, h⟩ := bind_eq_ok.mp h
  have hsource : read.isSource := (Parser.yields_expression (isLexed_tokenize (mapError_eq_ok.mp htokens)) hread).1
  dsimp only at h
  split at h
  · obtain rfl := Except.ok.inj h
    exact hsource
  · cases h

namespace Expr

/-- Parsing inverts printing: every tree that a script can spell, with whatever marks, is read back from its text up to
marks, and so is every tree that was read from any text. -/
theorem parsing_inverts_printing :
    (∀ e : Expr, e.isSource → ∃ e', parse e.render = .ok e' ∧ e'.same e) ∧
      ∀ source e, parse source = .ok e → e.isSource ∧ ∃ e', parse e.render = .ok e' ∧ e'.same e := by
  refine ⟨fun e he => parse_render he, fun source e h => ?_⟩
  have he := isSource_of_parse h
  exact ⟨he, parse_render he⟩

/-- A tree whose operands need parentheses for each of the reasons there are. -/
def crossed : Expr :=
  .logical {} .and (some (.logical { unit := true } .and (some (.var {} "a")) (.logical {} .not none (.var {} "b"))))
    (.comparison {} .less
      (.arithmetic {} .subtract (.integer {} (-3))
        (.arithmetic {} .add (.integer {} (-4)) (.returned {} (.text {} "q\"\n"))))
      (.indexed {} (.indexed {} (.var {} "t") (.integer {} 0))
        (.dictionary {} [(.text {} "k", .call {} "f" [.array {} []])])))

/-- A tree of most kinds of nodes, and a text in which a comment stands between signs. -/
theorem parsing_inverts_printing_crossed :
    crossed.isSource ∧
      crossed.render = "(a && !b) && -3 - (-4 + (return \"q\\\"\\n\")) < t[0][\x7b\"k\": f([])\x7d]" ∧
      (∃ e', parse crossed.render = .ok e' ∧ e'.same crossed) ∧
      ∃ e, parse "x/* */-(- 0x10)" = .ok e ∧ e.render = "x - -16" ∧ ∃ e', parse e.render = .ok e' ∧ e'.same e := by
  have hsource : crossed.isSource := by decide +kernel
  have hread : (parse "x/* */-(- 0x10)").toOption.map render = some "x - -16" := by decide +kernel
  refine ⟨hsource, by decide +kernel, parsing_inverts_printing.1 crossed hsource, ?_⟩
  cases hparse : parse "x/* */-(- 0x10)" with
  | error error =>
    rw [hparse] at hread
    cases hread
  | ok e =>
    rw [hparse] at hread
    exact ⟨e, rfl, Option.some.inj hread, (parsing_inverts_printing.2 _ e hparse).2⟩

end Expr

end TriggerScript
