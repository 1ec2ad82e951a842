import TriggerScript.Proofs.Eval.Scopes

/-!
# Nothing is left to work out

A value holds no name, no index and no call, whatever variables are bound to and whatever functions do: a bound expression is
either taken as it is because nothing is left in it, or evaluated. References to functions come from names that are defined,
so the references in values stay among those that the script and its variables have.
-/

namespace TriggerScript

namespace Discipline

/-- Evaluation leaves nothing to work out and refers to allowed functions only, if all bound and written expressions do. -/
def references (table : Bindings Function) (allowed name : String → Prop) : Discipline where
  table
  written := Expr.RefersTo allowed
  held := Expr.RefersTo allowed
  made node := node.isPending = false ∧ node.RefersTo allowed
  operand _ := True
  name
  output _ := True
  exempt _ := False

variable {table : Bindings Function} {allowed name : String → Prop}

/-- The negation of a value is a value: it has no other nodes than connectives, comparisons and those of the value. -/
theorem made_invert_references {e : Expr} (h : (references table allowed name).Made e) :
    (references table allowed name).Made e.invert := by
  have hlogical : ∀ mark op left right, (references table allowed name).made (.logical mark op left right) :=
    fun _ _ _ _ => ⟨rfl, trivial⟩
  induction e using Expr.invert.induct with
  | case1 mark op left right =>
    rw [Expr.invert]
    exact Expr.everywhere_iff.mpr ⟨⟨rfl, trivial⟩, (Expr.everywhere_iff.mp h).2⟩
  | case2 mark left right ihleft ihright | case3 mark left right ihleft ihright =>
    rw [Expr.invert]
    refine Expr.everywhere_iff.mpr ⟨hlogical _ _ _ _, ?_⟩
    have hleft := ihleft (h.part (by simp [Expr.children]))
    have hright := ihright (h.part (by simp [Expr.children]))
    simp [Expr.children, hleft, hright]
  | case4 mark left right =>
    rw [Expr.invert]
    exact h.part (by simp [Expr.children])
  | case5 | case6 | case7 =>
    rw [Expr.invert]
    exact Expr.everywhere_of_children_nil rfl ⟨rfl, trivial⟩
  | case8 e =>
    have hnegate : e.invert = e.negate := by rw [Expr.invert] <;> assumption
    rw [hnegate]
    exact Expr.everywhere_iff.mpr ⟨hlogical _ _ _ _, by simpa [Expr.negate, Expr.children] using h⟩

/-- Evaluation keeps to allowed references if those to defined functions are, and if the functions keep to them. -/
theorem lawful_references (hallowed : ∀ target, (references table allowed name).Defined target → allowed target)
    (hcallable : ∀ target function, table.find? target = some function →
      (references table allowed name).Callable function) : (references table allowed name).Lawful where
  made_of_isMade {e} h := by
    cases e with
    | functionRef mark target => exact ⟨rfl, hallowed target h⟩
    | var | indexed | call => cases h
    | _ => exact ⟨rfl, trivial⟩
  made_reference h := ⟨rfl, h⟩
  made_returned _ := ⟨rfl, trivial⟩
  made_withMark {mark e} h := by
    cases e with
    | functionRef => exact h
    | var | indexed | call => cases h.1
    | _ => exact ⟨rfl, trivial⟩
  held_of_made h := h.2
  made_of_held h hreduced := fun node hnode => ⟨(Expr.isReduced_iff.mp hreduced node hnode).1, h node hnode⟩
  written_of_held h _ := h
  held_dictionary _ _ := trivial
  operand_of_isOperand _ := trivial
  operand_withMark _ := trivial
  made_invert h _ := ⟨made_invert_references h, trivial⟩
  made_logical _ _ _ _ _ := ⟨rfl, trivial⟩
  callable := hcallable _ _
  output_called _ := trivial
  output_apply _ _ := trivial

mutual

/-- Every statement is admissible where every expression may be written and every name bound. -/
theorem admissible_of_forall {d : Discipline} (hwritten : ∀ e, d.Written e) (hname : ∀ name, d.name name) :
    ∀ s : Stmt, d.Admissible s
  | .assign name indices value => ⟨hname name, fun index _ => hwritten index, hwritten value⟩
  | .define .. => trivial
  | .loop name collection body => ⟨hname name, hwritten collection, admissibleBlock_of_forall hwritten hname body⟩
  | .choose condition yes no =>
    ⟨hwritten condition, admissibleBlock_of_forall hwritten hname yes, admissibleBlock_of_forall hwritten hname no⟩
  | .expression e => by
    cases e with
    | returned mark value => exact hwritten value
    | call mark target args => exact fun arg _ => hwritten arg
    | _ => trivial

/-- If everything may be written and bound, every block is admissible. -/
theorem admissibleBlock_of_forall {d : Discipline} (hwritten : ∀ e, d.Written e) (hname : ∀ name, d.name name) :
    ∀ ss : List Stmt, d.AdmissibleBlock ss
  | [] => trivial
  | s :: ss => ⟨admissible_of_forall hwritten hname s, admissibleBlock_of_forall hwritten hname ss⟩

end

end Discipline

namespace Scope

/-- Evaluation leaves no name, no index and no call anywhere in a value, whatever the variables of the scope are bound to and
whatever functions it has. -/
theorem evaluation_leaves_nothing_pending {settings : Settings} {scope : Scope} {e v : Expr} {output output' : Output}
    (h : scope.evaluate settings e output = (.ok v, output')) : ∀ node ∈ v.nodes, node.isPending = false := by
  let d := Discipline.references scope.globalFrame.functions (fun _ => True) fun _ => True
  have hheld : ∀ e : Expr, e.Everywhere (Expr.RefersTo fun _ => True) := by
    intro e node _
    cases node <;> trivial
  have hd : d.Lawful := by
    refine Discipline.lawful_references (fun _ _ => trivial) fun _ function _ => ?_
    exact ⟨fun _ _ => trivial, fun _ _ default _ => hheld default,
      Discipline.admissibleBlock_of_forall hheld (fun _ => trivial) function.body⟩
  have hscope : d.Admits scope.depth scope := ⟨rfl, rfl, fun _ _ _ value _ => ⟨trivial, hheld value⟩⟩
  have hmade : d.Made v := Discipline.made_of_evaluate hd hscope (hheld e) trivial h
  exact fun node hnode => (hmade node hnode).1

/-- A scope with variables that are not evaluated, and a function whose defaults refer to each other and to them. -/
def withLazyVariables : Scope :=
  let x : Expr := .call {} "byte" [.integer {} 16]
  let table : Expr := .dictionary {} [(.integer {} 1, .var {} "x")]
  ((Scope.global.assign "x" x).assign "table" table).define
    { name := "f"
      parameters := [⟨"a", some (.var {} "b")⟩, ⟨"b", some (.indexed {} (.var {} "table") (.integer {} 1))⟩]
      body :=
        [.assign "found" [] (.dictionary {} []),
          .loop "i" (.array {} [.integer {} 1, .integer {} 2])
            [.assign "found" [.var {} "i"] (.call {} "once" [.comparison {} .equal (.var {} "a") (.var {} "i")])],
          .expression (.returned {} (.var {} "found"))]
      span := {} }

/-- A function that works out lazy variables and defaults returns a value in which nothing is left of them. -/
theorem evaluation_leaves_nothing_pending_lazy :
    ∃ v output, withLazyVariables.evaluate {} (.call {} "f" []) {} = (.ok v, output) ∧
      v.render = "\x7b1: once(byte(0x000010) == 1), 2: once(byte(0x000010) == 2)\x7d" ∧
      ∀ node ∈ v.nodes, node.isPending = false := by
  have hvalue : (withLazyVariables.evaluate {} (.call {} "f" []) {}).1.toOption.map Expr.render =
      some "\x7b1: once(byte(0x000010) == 1), 2: once(byte(0x000010) == 2)\x7d" := by decide +kernel
  cases heval : withLazyVariables.evaluate {} (.call {} "f" []) {} with
  | mk result output =>
    rw [heval] at hvalue
    cases result with
    | error error => cases hvalue
    | ok v => exact ⟨v, output, rfl, Option.some.inj hvalue, evaluation_leaves_nothing_pending heval⟩

end Scope

end TriggerScript
