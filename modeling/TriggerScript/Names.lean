import TriggerScript.Stmt

/-!
# Names

Which names an expression or a statement reads, and which names a statement binds.
-/

namespace TriggerScript

namespace Expr

mutual

/-- The names that an expression reads, with repetitions. -/
def dependencies : Expr → List String
  | .var _ name | .functionRef _ name => [name]
  | .call _ name args => name :: listDependencies args
  | .indexed _ base index => base.dependencies ++ index.dependencies
  | .array _ entries | .tally _ _ entries => listDependencies entries
  | .dictionary _ entries => entryDependencies entries
  | .arithmetic _ _ left right | .comparison _ _ left right => left.dependencies ++ right.dependencies
  | .logical _ _ (some left) right => left.dependencies ++ right.dependencies
  | .logical _ _ none right => right.dependencies
  | .returned _ value => value.dependencies
  | .modified _ _ condition => condition.dependencies
  | .presence _ _ _ value => value.dependencies
  | .integer .. | .text .. | .boolean .. | .memory .. | .alwaysTrue .. | .alwaysFalse .. => []

/-- The names that a list of expressions reads. -/
def listDependencies : List Expr → List String
  | [] => []
  | e :: es => e.dependencies ++ listDependencies es

/-- The names that the entries of a dictionary read. -/
def entryDependencies : List (Expr × Expr) → List String
  | [] => []
  | (key, value) :: entries => key.dependencies ++ value.dependencies ++ entryDependencies entries

end

end Expr

namespace Stmt

mutual

/-- The names that a statement binds. -/
def modifications : Stmt → List String
  | .assign name _ _ => [name]
  | .define name _ _ _ => [name]
  | .loop name _ body => name :: blockModifications body
  | .choose _ yes no => blockModifications yes ++ blockModifications no
  | .expression _ => []

/-- The names that the statements of a block bind. -/
def blockModifications : List Stmt → List String
  | [] => []
  | s :: ss => s.modifications ++ blockModifications ss

end

mutual

/-- The names that a statement reads and does not bind itself: a loop binds its variable, and a function its parameters
and whatever its body assigns. The defaults of parameters are read outside of the function. -/
def dependencies : Stmt → List String
  | .assign name indices value =>
    Expr.listDependencies indices ++ value.dependencies ++ (if indices.isEmpty then [] else [name])
  | .define _ parameters body _ =>
    let bound := parameters.map (·.name) ++ blockModifications body
    Expr.listDependencies (parameters.filterMap (·.default?)) ++
      (blockDependencies body).filter fun name => !bound.contains name
  | .loop name collection body => collection.dependencies ++ (blockDependencies body).filter (· != name)
  | .choose condition yes no => condition.dependencies ++ blockDependencies yes ++ blockDependencies no
  | .expression value => value.dependencies

/-- The names that the statements of a block read and do not bind themselves. -/
def blockDependencies : List Stmt → List String
  | [] => []
  | s :: ss => s.dependencies ++ blockDependencies ss

end

end Stmt

/-- A list of names as a set: in code point order, each once. -/
def nameSet (names : List String) : List String :=
  (names.mergeSort (fun a b => a ≤ b)).eraseReps

end TriggerScript
