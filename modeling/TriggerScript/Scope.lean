import TriggerScript.Output
import TriggerScript.Stmt

/-!
# Scopes

Where names have their meaning: a chain of frames from the innermost to the global one. Variables are looked up along the
chain and changed in the innermost frame; functions belong to the global frame.
-/

namespace TriggerScript

/-- Names with what they are bound to; each name is bound once. -/
structure Bindings (α : Type) where
  /-- The bound names. -/
  entries : List (String × α) := []
  deriving Repr

namespace Bindings

variable {α : Type}

/-- What a name is bound to. -/
def find? (name : String) (bindings : Bindings α) : Option α :=
  (bindings.entries.find? (·.1 = name)).map (·.2)

/-- The bindings without a name. -/
def erase (name : String) (bindings : Bindings α) : Bindings α :=
  { entries := bindings.entries.filter (·.1 ≠ name) }

/-- The bindings with a name bound, whatever it was bound to. -/
def insert (name : String) (value : α) (bindings : Bindings α) : Bindings α :=
  { entries := (name, value) :: (bindings.erase name).entries }

end Bindings

/-- One level of a scope. -/
structure Frame where
  /-- What the level is for. -/
  context : Context
  /-- The variables bound here. -/
  locals : Bindings Expr := {}
  /-- The functions defined here. -/
  functions : Bindings Function := {}
  deriving Repr

/-- A chain of frames. -/
structure Scope where
  /-- The innermost frame. -/
  frame : Frame
  /-- The frames around it, the global one last. -/
  outer : List Frame := []
  /-- The number of calls that are open. -/
  depth : Nat := 0
  deriving Repr

namespace Scope

/-- A global scope without names. -/
def global : Scope :=
  { frame := { context := .global } }

/-- The frame of the script as a whole. -/
def globalFrame (scope : Scope) : Frame :=
  scope.outer.getLast?.getD scope.frame

/-- A scope one level further in. -/
def child (context : Context) (scope : Scope) : Scope :=
  { frame := { context }, outer := scope.frame :: scope.outer, depth := scope.depth }

/-- The scope of a function body: it sees the global frame and not its caller. -/
def call (name : String) (span : Span) (scope : Scope) : Scope :=
  { frame := { context := .call name span }, outer := [scope.globalFrame], depth := scope.depth + 1 }

/-- The frames from the innermost outwards. -/
def frames (scope : Scope) : List Frame :=
  scope.frame :: scope.outer

/-- The value of a variable in the innermost frame that binds it. -/
def find? (name : String) (scope : Scope) : Option Expr :=
  scope.frames.findSome? (·.locals.find? name)

/-- The function with a name. -/
def function? (name : String) (scope : Scope) : Option Function :=
  scope.globalFrame.functions.find? name

/-- Binds a variable in the innermost frame. -/
def assign (name : String) (value : Expr) (scope : Scope) : Scope :=
  { scope with frame.locals := scope.frame.locals.insert name value }

/-- The value of a variable that the innermost frame binds. -/
def local? (name : String) (scope : Scope) : Option Expr :=
  scope.frame.locals.find? name

/-- Unbinds a variable in the innermost frame. -/
def erase (name : String) (scope : Scope) : Scope :=
  { scope with frame.locals := scope.frame.locals.erase name }

/-- Gives a variable of the innermost frame back the binding it had, or none. -/
def restore (name : String) (value? : Option Expr) (scope : Scope) : Scope :=
  match value? with
  | some value => scope.assign name value
  | none => scope.erase name

/-- Defines a function in the innermost frame. -/
def define (function : Function) (scope : Scope) : Scope :=
  { scope with frame.functions := scope.frame.functions.insert function.name function }

/-- Whether the value of a variable is being worked out. -/
def isResolving (name : String) (scope : Scope) : Bool :=
  scope.frames.any (·.context = .resolving name)

/-- The number of variables along the chain. -/
def size (scope : Scope) : Nat :=
  (scope.frames.flatMap (·.locals.entries)).length

end Scope

end TriggerScript
