import TriggerScript.Proofs.Expr.Nodes
import TriggerScript.Proofs.Expr.Source
import TriggerScript.Stmt.Parser

/-!
# Statements that are read

A script can spell names but no reference to a function: such a reference is made only when a name is evaluated. So no
expression of a statement that is read holds one, wherever the expression stands.
-/

namespace TriggerScript

/-- A tree without references to functions. -/
abbrev Expr.IsReferenceFree (e : Expr) : Prop :=
  e.Everywhere (RefersTo fun _ => False)

/-- What can be written holds no references to functions. -/
theorem Expr.isReferenceFree_of_isSource {e : Expr} (h : e.isSource) : e.IsReferenceFree := by
  induction e using Expr.children_induction with
  | h e ih =>
    have hparts : ∀ part ∈ e.children, part.isSource := by
      cases e with
      | array mark entries => exact fun part hpart => (Expr.allSource_iff.mp h part hpart).1
      | call mark name args =>
        simp only [Expr.isSource, Bool.and_eq_true] at h
        exact fun part hpart => (Expr.allSource_iff.mp h.2 part hpart).1
      | dictionary mark entries =>
        rw [Expr.forall_children_dictionary]
        exact fun entry hentry =>
          have hentry := Expr.entriesSource_iff.mp h entry hentry
          ⟨hentry.1.1, hentry.2.1⟩
      | logical mark op left right => cases op <;> cases left <;> simp_all [Expr.isSource, Expr.children]
      | _ => simp_all [Expr.isSource, Expr.children]
    refine Expr.everywhere_iff.mpr ⟨?_, fun part hpart => ih part hpart (hparts part hpart)⟩
    cases e with
    | functionRef => cases h
    | _ => trivial

/-- Every default of parameters meets a condition. -/
def Parameter.DefaultsAll (p : Expr → Prop) (parameters : List Parameter) : Prop :=
  ∀ parameter ∈ parameters, ∀ default, parameter.default? = some default → p default

mutual

/-- Every expression of a statement, of its blocks and of its defaults meets a condition. -/
def Stmt.All (p : Expr → Prop) : Stmt → Prop
  | .assign _ indices value => (∀ index ∈ indices, p index) ∧ p value
  | .define _ parameters body _ => Parameter.DefaultsAll p parameters ∧ Stmt.AllBlock p body
  | .loop _ collection body => p collection ∧ Stmt.AllBlock p body
  | .choose condition yes no => p condition ∧ Stmt.AllBlock p yes ∧ Stmt.AllBlock p no
  | .expression e => p e

/-- Every expression of a block meets a condition. -/
def Stmt.AllBlock (p : Expr → Prop) : List Stmt → Prop
  | [] => True
  | s :: ss => s.All p ∧ Stmt.AllBlock p ss

end

theorem Parameter.DefaultsAll.mono {p q : Expr → Prop} (hpq : ∀ e, p e → q e) {parameters : List Parameter}
    (h : DefaultsAll p parameters) : DefaultsAll q parameters :=
  fun parameter hmem default hdefault => hpq default (h parameter hmem default hdefault)

mutual

theorem Stmt.All.mono {p q : Expr → Prop} (hpq : ∀ e, p e → q e) : ∀ {s : Stmt}, s.All p → s.All q
  | .assign .., h => ⟨fun index hmem => hpq index (h.1 index hmem), hpq _ h.2⟩
  | .define .., h => ⟨h.1.mono hpq, Stmt.AllBlock.mono hpq h.2⟩
  | .loop .., h => ⟨hpq _ h.1, Stmt.AllBlock.mono hpq h.2⟩
  | .choose .., h => ⟨hpq _ h.1, Stmt.AllBlock.mono hpq h.2.1, Stmt.AllBlock.mono hpq h.2.2⟩
  | .expression e, h => hpq e h

theorem Stmt.AllBlock.mono {p q : Expr → Prop} (hpq : ∀ e, p e → q e) :
    ∀ {ss : List Stmt}, Stmt.AllBlock p ss → Stmt.AllBlock q ss
  | [], _ => trivial
  | _ :: _, h => ⟨Stmt.All.mono hpq h.1, Stmt.AllBlock.mono hpq h.2⟩

end

/-- The first statements of a block meet what all its statements meet. -/
theorem Stmt.AllBlock.of_append {p : Expr → Prop} {first others : List Stmt} (h : Stmt.AllBlock p (first ++ others)) :
    Stmt.AllBlock p first := by
  induction first with
  | nil => trivial
  | cons s first ih => exact ⟨h.1, ih h.2⟩

namespace Parser

theorem yields_expectName (what : Expectation) : Yields (expectName what) (fun _ => True) := by
  refine yields_peek.bind fun next _ => ?_
  split
  · exact yields_advance.bind fun _ _ => yields_pure trivial
  · exact yields_failExpecting _ _

/-- An expression that is read holds no references to functions. -/
theorem yields_referenceFree : Yields expression Expr.IsReferenceFree :=
  yields_expression.weaken fun _ => Expr.isReferenceFree_of_isSource

/-- The indices of an assignment are those of the expression it assigns to. -/
theorem isReferenceFree_of_assignTarget? {e : Expr} {name : String} {indices : List Expr} (he : e.IsReferenceFree)
    (h : assignTarget? e = some (name, indices)) : ∀ index ∈ indices, index.IsReferenceFree := by
  fun_induction assignTarget? e generalizing indices with
  | case1 | case4 => cases h
  | case2 =>
    obtain ⟨_, rfl⟩ := Prod.mk.inj (Option.some.inj h)
    exact List.forall_mem_nil _
  | case3 mark base index ih =>
    obtain ⟨⟨name', indices'⟩, htarget, heq⟩ := Option.map_eq_some_iff.mp h
    obtain ⟨rfl, rfl⟩ := Prod.mk.inj heq
    rw [List.forall_mem_append, List.forall_mem_singleton]
    exact ⟨ih (he.part (by simp [Expr.children])) htarget, he.part (by simp [Expr.children])⟩

/-- A default that is read holds no references to functions. -/
theorem yields_default (earlier : List Parameter) (name : String) (span : Span) :
    Yields (parameters.default? earlier name span)
      (fun default? => ∀ default, default? = some default → default.IsReferenceFree) := by
  refine yields_peek.bind fun next _ => ?_
  split
  · refine yields_advance.bind fun _ _ => yields_referenceFree.bind fun e he => yields_pure ?_
    intro default hdefault
    obtain rfl := Option.some.inj hdefault
    exact he
  · split
    · exact yields_fail _ _ _
    · refine yields_pure fun default hdefault => ?_
      cases hdefault

/-- The defaults of parameters that are read hold no references to functions. -/
theorem yields_parameters (bound : Nat) {earlier : List Parameter}
    (hearlier : Parameter.DefaultsAll Expr.IsReferenceFree earlier) :
    Yields (parameters bound earlier) (Parameter.DefaultsAll Expr.IsReferenceFree) := by
  induction bound generalizing earlier with
  | zero => exact yields_failExpecting _ _
  | succ bound ih =>
    rw [parameters]
    refine yields_peek.bind fun next _ => ?_
    split
    · exact yields_advance.bind fun _ _ => yields_pure hearlier
    · refine yields_current.bind fun token _ => (yields_expectName _).bind fun name _ => ?_
      split
      · exact yields_fail _ _ _
      · refine (yields_default earlier name token.span).bind fun default? hdefault => ?_
        have hall : Parameter.DefaultsAll Expr.IsReferenceFree (earlier ++ [⟨name, default?⟩]) :=
          List.forall_mem_append.mpr ⟨hearlier, List.forall_mem_singleton.mpr hdefault⟩
        refine yields_peek.bind fun next _ => ?_
        split
        · exact yields_advance.bind fun _ _ => yields_pure hall
        · exact (yields_expect _ _).bind fun _ _ => ih hall

/-- An assignment or an expression that is read holds no references to functions. -/
theorem yields_simpleStatement : Yields simpleStatement (Stmt.All Expr.IsReferenceFree) := by
  refine yields_referenceFree.bind fun e he => yields_peek.bind fun next _ => ?_
  split
  · cases htarget : assignTarget? e with
    | none => exact yields_fail _ _ _
    | some target =>
      obtain ⟨name, indices⟩ := target
      refine yields_advance.bind fun _ _ => yields_referenceFree.bind fun value hvalue => yields_pure ?_
      exact ⟨isReferenceFree_of_assignTarget? he htarget, hvalue⟩
  · exact yields_pure he

section Blocks

variable {nested : Parser Stmt} (hnested : Yields nested (Stmt.All Expr.IsReferenceFree))
include hnested

/-- The statements of a block hold no references if each statement that is read holds none. -/
theorem yields_statementsUntilBrace (bound : Nat) :
    Yields (statementsUntilBrace nested bound) (Stmt.AllBlock Expr.IsReferenceFree) := by
  induction bound with
  | zero => exact yields_failExpecting _ _
  | succ bound ih =>
    rw [statementsUntilBrace]
    refine yields_peek.bind fun next _ => ?_
    split
    · exact yields_advance.bind fun _ _ => yields_pure trivial
    · split
      · exact yields_failExpecting _ _
      · exact hnested.bind fun first hfirst => ih.bind fun others hothers => yields_pure ⟨hfirst, hothers⟩

/-- A block that is read holds no references to functions. -/
theorem yields_block : Yields (block nested) (Stmt.AllBlock Expr.IsReferenceFree) :=
  (yields_expect _ _).bind fun _ _ => yields_remaining.bind fun _ _ => yields_statementsUntilBrace hnested _

/-- The body of a function holds no references, whether it is a block or one expression. -/
theorem yields_functionBody : Yields (functionBody nested) (Stmt.AllBlock Expr.IsReferenceFree) := by
  refine yields_current.bind fun token _ => ?_
  split
  · refine yields_advance.bind fun _ _ => yields_referenceFree.bind fun e he => yields_pure ⟨?_, trivial⟩
    exact Expr.everywhere_iff.mpr ⟨trivial, List.forall_mem_singleton.mpr he⟩
  · exact yields_block hnested

/-- A definition holds no references, neither in its defaults nor in its body. -/
theorem yields_definition : Yields (definition nested) (Stmt.All Expr.IsReferenceFree) := by
  refine yields_advance.bind fun _ _ => (yields_expectName _).bind fun name _ => (yields_expect _ _).bind fun _ _ => ?_
  refine yields_remaining.bind fun _ _ => (yields_parameters _ (List.forall_mem_nil _)).bind fun params hparams => ?_
  exact (yields_functionBody hnested).bind fun body hbody => yields_pure ⟨hparams, hbody⟩

/-- A loop holds no references, neither in its collection nor in its body. -/
theorem yields_loop : Yields (loop nested) (Stmt.All Expr.IsReferenceFree) := by
  refine yields_advance.bind fun _ _ => (yields_expectName _).bind fun name _ => (yields_expect _ _).bind fun _ _ => ?_
  refine yields_referenceFree.bind fun collection hcollection => ?_
  exact (yields_block hnested).bind fun body hbody => yields_pure ⟨hcollection, hbody⟩

/-- A choice holds no references, neither in its condition nor in its branches. -/
theorem yields_choice : Yields (choice nested) (Stmt.All Expr.IsReferenceFree) := by
  refine yields_advance.bind fun _ _ => yields_referenceFree.bind fun condition hcondition => ?_
  refine (yields_block hnested).bind fun yes hyes => yields_peek.bind fun next _ => ?_
  split
  · refine yields_advance.bind fun _ _ => yields_peek.bind fun next _ => ?_
    split
    · exact hnested.bind fun no hno => yields_pure ⟨hcondition, hyes, hno, trivial⟩
    · exact (yields_block hnested).bind fun no hno => yields_pure ⟨hcondition, hyes, hno⟩
  · exact yields_pure ⟨hcondition, hyes, trivial⟩

end Blocks

/-- A statement, nested as deep as it may be, holds no references to functions. -/
theorem yields_statementWithin (depth : Nat) : Yields (statementWithin depth) (Stmt.All Expr.IsReferenceFree) := by
  induction depth with
  | zero => exact yields_failUnexpected
  | succ depth ih =>
    rw [statementWithin]
    refine yields_peek.bind fun next _ => ?_
    cases next with
    | keyword word =>
      cases word with
      | functionWord => exact yields_definition ih
      | forWord => exact yields_loop ih
      | ifWord => exact yields_choice ih
      | _ => exact yields_simpleStatement
    | _ => exact yields_simpleStatement

/-- Statements one after the other hold no references to functions. -/
theorem yields_statements (bound : Nat) : Yields (statements bound) (Stmt.AllBlock Expr.IsReferenceFree) := by
  induction bound with
  | zero => exact yields_pure trivial
  | succ bound ih =>
    rw [statements]
    refine yields_peek.bind fun next _ => ?_
    split
    · exact yields_pure trivial
    · refine (yields_remaining.bind fun count _ => yields_statementWithin (count + 1)).bind fun first hfirst => ?_
      exact ih.bind fun others hothers => yields_pure ⟨hfirst, hothers⟩

end Parser

/-- The statements of a script hold no references to functions. -/
theorem Stmt.isReferenceFree_of_parseScript {source : String} {statements : List Stmt}
    (h : parseScript source = .ok statements) : Stmt.AllBlock Expr.IsReferenceFree statements := by
  unfold parseScript at h
  obtain ⟨tokens, htokens, h⟩ := bind_eq_ok.mp h
  have hlexed : (TokenStream.ofTokens tokens).IsLexed := isLexed_tokenize (mapError_eq_ok.mp htokens)
  unfold statementsOfTokens StateT.run' at h
  cases hread : Parser.statements (tokens.length + 1) (.ofTokens tokens) with
  | error error =>
    rw [hread] at h
    cases h
  | ok result =>
    rw [hread] at h
    obtain rfl := Except.ok.inj h
    exact (Parser.yields_statements _ hlexed hread).1

end TriggerScript
