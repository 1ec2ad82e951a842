import TriggerScript.Proofs.Lowering.Parts
import TriggerScript.Proofs.Outcome

/-!
# Steps of lowering

What a lowering that succeeds says about its steps: which line a flag or a hit count was put on, which conditions were
lowered on the way, how a trigger is made from the clauses of its condition and the branches of the first disjunction among
them, and how a value is made from the terms of a sum.
-/

namespace TriggerScript

namespace Expr

/-- The clauses of a condition that become the core of its trigger. -/
def coreClauses (e : Expr) : List Expr :=
  (e.parts .and false).eraseP (·.joinsWith .or)

/-- The parts of each branch of the first disjunction among the clauses of a condition. -/
def branches (e : Expr) : List (List Expr) :=
  match (e.parts .and false).find? (·.joinsWith .or) with
  | none => []
  | some disjunction => (disjunction.parts .or false).map (·.parts .and false)

/-- The conditions that the trigger of a condition works through as chains. -/
def chains (e : Expr) : List Expr :=
  e.coreClauses ++ e.branches.flatten

/-- The clauses of a condition are the core, and the first disjunction if there is one. -/
theorem clauses_split (e : Expr) :
    ((e.parts .and false).find? (·.joinsWith .or) = none ∧ e.branches = [] ∧ e.coreClauses = e.parts .and false) ∨
      ∃ before disjunction after, (e.parts .and false).find? (·.joinsWith .or) = some disjunction ∧
        e.parts .and false = before ++ disjunction :: after ∧ e.coreClauses = before ++ after ∧
        e.branches = (disjunction.parts .or false).map (·.parts .and false) := by
  unfold branches coreClauses
  cases hfind : (e.parts .and false).find? (·.joinsWith .or) with
  | none =>
    rw [List.find?_eq_none] at hfind
    exact Or.inl ⟨rfl, rfl, List.eraseP_of_forall_not hfind⟩
  | some disjunction =>
    obtain ⟨hor, before, after, heq, hbefore⟩ := List.find?_eq_some_iff_append.mp hfind
    refine Or.inr ⟨before, disjunction, after, rfl, heq, ?_, rfl⟩
    rw [heq, List.eraseP_append_right _ (fun x hx => by simpa using hbefore x hx), List.eraseP_cons_of_pos hor]

theorem ne_nil_of_mem_branches {e : Expr} {branch : List Expr} (h : branch ∈ e.branches) : branch ≠ [] := by
  rcases clauses_split e with ⟨_, hbranches, _⟩ | ⟨_, disjunction, _, _, _, _, hbranches⟩
  · rw [hbranches] at h
    cases h
  · rw [hbranches] at h
    obtain ⟨e', _, rfl⟩ := List.mem_map.mp h
    exact parts_ne_nil .all false e'

end Expr

namespace Lowering

/-- Flagging a lowered condition flags its last line, which was plain. -/
theorem flagLast_eq_ok {flag : Flag} {e : Expr} {conditions flagged : List Condition}
    (h : flagLast flag e conditions = .ok flagged) :
    ∃ init last, conditions = init ++ [last] ∧ last.flag = .plain ∧ flagged = init ++ [{ last with flag }] := by
  unfold flagLast at h
  split at h
  · cases h
  · rename_i last hlast
    obtain ⟨init, rfl⟩ := List.getLast?_eq_some_iff.mp hlast
    rw [List.dropLast_concat] at h
    split at h
    · rename_i hplain
      exact ⟨init, last, rfl, hplain, (Except.ok.inj h).symm⟩
    · cases h

/-- Counting a lowered condition counts its last line, which was not counted. -/
theorem countLast_eq_ok {hits : UInt32} {e : Expr} {conditions counted : List Condition}
    (h : countLast hits e conditions = .ok counted) :
    ∃ init last, conditions = init ++ [last] ∧ last.hits = 0 ∧ counted = init ++ [{ last with hits }] := by
  unfold countLast at h
  split at h
  · cases h
  · rename_i last hlast
    obtain ⟨init, rfl⟩ := List.getLast?_eq_some_iff.mp hlast
    rw [List.dropLast_concat] at h
    split at h
    · rename_i hzero
      exact ⟨init, last, rfl, hzero, (Except.ok.inj h).symm⟩
    · cases h

/-- Conditions that are lowered in a chain are lowered one by one. -/
theorem chain_eq_ok {lower : Expr → Except Error (List Condition)} {flag : Flag} {es : List Expr}
    {conditions : List Condition} (h : chain lower flag es = .ok conditions) : ∀ e ∈ es, ∃ L, lower e = .ok L := by
  fun_induction chain lower flag es generalizing conditions with
  | case1 =>
    intro e he
    cases he
  | case2 e =>
    intro e' he'
    rw [List.mem_singleton.mp he']
    exact ⟨conditions, h⟩
  | case3 e es _ ih =>
    obtain ⟨first, hfirst, h⟩ := bind_eq_ok.mp h
    obtain ⟨_, _, h⟩ := bind_eq_ok.mp h
    obtain ⟨others, hothers, _⟩ := bind_eq_ok.mp h
    intro e' he'
    rcases List.mem_cons.mp he' with rfl | he'
    · exact ⟨first, hfirst⟩
    · exact ih hothers e' he'

/-- Conditions that are lowered one after the other are lowered one by one. -/
theorem all_eq_ok {lower : Expr → Except Error (List Condition)} {es : List Expr} {conditions : List Condition}
    (h : all lower es = .ok conditions) : ∀ e ∈ es, ∃ L, lower e = .ok L := by
  induction es generalizing conditions with
  | nil =>
    intro e he
    cases he
  | cons e es ih =>
    obtain ⟨first, hfirst, h⟩ := bind_eq_ok.mp h
    obtain ⟨others, hothers, _⟩ := bind_eq_ok.mp h
    intro e' he'
    rcases List.mem_cons.mp he' with rfl | he'
    · exact ⟨first, hfirst⟩
    · exact ih hothers e' he'

/-- The parts of all branches of alternative groups are lowered one by one. -/
theorem alternatives_eq_ok {branches : List Expr} {groups : List (List Condition)}
    (h : alternatives branches = .ok groups) :
    ∀ branch ∈ branches, ∃ group, all clause (branch.parts .and false) = .ok group := by
  induction branches generalizing groups with
  | nil =>
    intro branch hbranch
    cases hbranch
  | cons branch branches ih =>
    obtain ⟨group, hgroup, h⟩ := bind_eq_ok.mp h
    obtain ⟨others, hothers, _⟩ := bind_eq_ok.mp h
    intro branch' hbranch'
    rcases List.mem_cons.mp hbranch' with rfl | hbranch'
    · exact ⟨group, hgroup⟩
    · exact ih hothers branch' hbranch'

end Lowering

open Lowering TriggerScript.Expr

namespace Trigger

/-- How a trigger is made from all clauses of its condition: from those of the core alone, or from them and the branches of
the first disjunction. -/
theorem ofExpr_eq_ok {e : Expr} {trigger : Trigger} (h : ofExpr e = .ok trigger) :
    ∃ core, all clause e.coreClauses = .ok core ∧
      ((e.branches = [] ∧ e.coreClauses = e.parts .and false ∧ trigger = { core }) ∨
        ∃ (before after : List Expr) (disjunction : Expr) (groups : List (List Condition)),
          e.parts .and false = before ++ disjunction :: after ∧ e.coreClauses = before ++ after ∧
          e.branches = (disjunction.parts .or false).map (·.parts .and false) ∧
          Lowering.alternatives (disjunction.parts .or false) = .ok groups ∧
          trigger = { core := if core.isEmpty then [.always] else core, alternatives := groups }) := by
  unfold ofExpr at h
  obtain ⟨core, hcore, h⟩ := bind_eq_ok.mp h
  refine ⟨core, hcore, ?_⟩
  rcases clauses_split e with
    ⟨hfind, hbranches, hclauses⟩ | ⟨before, disjunction, after, hfind, hparts, hclauses, hbranches⟩
  · rw [hfind] at h
    exact Or.inl ⟨hbranches, hclauses, (Except.ok.inj h).symm⟩
  · rw [hfind] at h
    obtain ⟨groups, hgroups, h⟩ := bind_eq_ok.mp h
    exact Or.inr
      ⟨before, after, disjunction, groups, hparts, hclauses, hbranches, hgroups, (Except.ok.inj h).symm⟩

/-- All chains of a condition with a trigger are lowered. -/
theorem chains_eq_ok {e : Expr} {trigger : Trigger} (h : ofExpr e = .ok trigger) :
    ∀ chain ∈ e.chains, ∃ L, clause chain = .ok L := by
  obtain ⟨core, hcore, hrest⟩ := ofExpr_eq_ok h
  intro chain hchain
  rcases List.mem_append.mp hchain with hchain | hchain
  · exact all_eq_ok hcore chain hchain
  · obtain ⟨parts, hparts, hchain⟩ := List.mem_flatten.mp hchain
    rcases hrest with ⟨hbranches, _, _⟩ | ⟨_, _, disjunction, groups, _, _, hbranches, hgroups, _⟩
    · rw [hbranches] at hparts
      cases hparts
    · rw [hbranches] at hparts
      obtain ⟨branch, hbranch, rfl⟩ := List.mem_map.mp hparts
      obtain ⟨group, hgroup⟩ := alternatives_eq_ok hgroups branch hbranch
      exact all_eq_ok hgroup chain hchain

end Trigger

namespace Value

/-- How a value is made from a sum: the terms of its memory reads, and its constant if it is not zero or stands alone. -/
theorem ofExpr_eq_ok {e : Expr} {value : Value} (h : ofExpr e = .ok value) :
    ∃ sum terms, LinearSum.ofExpr e = .ok sum ∧ sum.terms.mapM SumTerm.valueTerm? = some terms ∧
      value.terms = if sum.offset ≠ 0 ∨ terms.isEmpty then terms ++ [.constant sum.offset] else terms := by
  obtain ⟨sum, hsum, h⟩ := bind_eq_ok.mp h
  cases hterms : sum.terms.mapM SumTerm.valueTerm? with
  | none =>
    rw [hterms] at h
    cases h
  | some terms =>
    refine ⟨sum, terms, hsum, hterms, ?_⟩
    rw [hterms] at h
    simp only at h
    split at h
    · rename_i hkept
      rw [if_pos hkept, ← Except.ok.inj h]
    · rename_i hkept
      rw [if_neg hkept, ← Except.ok.inj h]

theorem terms_ne_nil {e : Expr} {value : Value} (h : ofExpr e = .ok value) : value.terms ≠ [] := by
  obtain ⟨sum, terms, _, _, hvalue⟩ := ofExpr_eq_ok h
  rw [hvalue]
  split
  · simp
  · rename_i hkept
    exact fun hnil => hkept (.inr (List.isEmpty_iff.mpr hnil))

end Value

end TriggerScript
