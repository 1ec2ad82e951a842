import TriggerScript.Proofs.Expr.Basic

/-!
# Nodes of trees

A tree is made of nodes: its root and the nodes of its parts. Much of what is said about values is a condition on every
node, which a tree meets if its root does and all its parts do.
-/

namespace TriggerScript

namespace Expr

mutual

/-- The nodes of a tree with all that is below them, the root first. -/
def nodes : Expr → List Expr
  | .indexed mark base index => .indexed mark base index :: (base.nodes ++ index.nodes)
  | .array mark entries => .array mark entries :: listNodes entries
  | .dictionary mark entries => .dictionary mark entries :: entryNodes entries
  | .arithmetic mark op left right => .arithmetic mark op left right :: (left.nodes ++ right.nodes)
  | .logical mark op left right => .logical mark op left right :: (optionNodes left ++ right.nodes)
  | .comparison mark op left right => .comparison mark op left right :: (left.nodes ++ right.nodes)
  | .call mark name args => .call mark name args :: listNodes args
  | .returned mark value => .returned mark value :: value.nodes
  | .modified mark modifier condition => .modified mark modifier condition :: condition.nodes
  | .tally mark target entries => .tally mark target entries :: listNodes entries
  | .presence mark name display value => .presence mark name display value :: value.nodes
  | .integer mark value => [.integer mark value]
  | .text mark value => [.text mark value]
  | .boolean mark value => [.boolean mark value]
  | .var mark name => [.var mark name]
  | .functionRef mark name => [.functionRef mark name]
  | .memory mark read => [.memory mark read]
  | .alwaysTrue mark => [.alwaysTrue mark]
  | .alwaysFalse mark => [.alwaysFalse mark]

/-- The nodes of an operand that may be missing. -/
def optionNodes : Option Expr → List Expr
  | none => []
  | some e => e.nodes

/-- The nodes of a list of trees. -/
def listNodes : List Expr → List Expr
  | [] => []
  | e :: es => e.nodes ++ listNodes es

/-- The nodes of the keys and values of a dictionary. -/
def entryNodes : List (Expr × Expr) → List Expr
  | [] => []
  | (key, value) :: entries => key.nodes ++ value.nodes ++ entryNodes entries

end

theorem listNodes_eq (es : List Expr) : listNodes es = es.flatMap nodes := by
  induction es with
  | nil => rfl
  | cons e es ih => rw [listNodes, ih, List.flatMap_cons]

theorem entryNodes_eq (entries : List (Expr × Expr)) :
    entryNodes entries = (entries.flatMap fun (key, value) => [key, value]).flatMap nodes := by
  induction entries with
  | nil => rfl
  | cons entry entries ih =>
    rw [entryNodes, ih, List.flatMap_cons, List.flatMap_append]
    simp

/-- The nodes of a tree are its root and the nodes of its parts. -/
theorem nodes_eq (e : Expr) : e.nodes = e :: e.children.flatMap nodes := by
  cases e with
  | array mark entries | call mark name entries | tally mark target entries =>
    simp only [nodes, children, listNodes_eq]
  | dictionary mark entries => simp only [nodes, children, entryNodes_eq]
  | logical mark op left right => cases left <;> simp [nodes, children, optionNodes]
  | _ => simp [nodes, children]

/-- The parts of a dictionary are its keys and values. -/
theorem forall_children_dictionary {p : Expr → Prop} {mark : Mark} {entries : List (Expr × Expr)} :
    (∀ part ∈ (dictionary mark entries).children, p part) ↔ ∀ entry ∈ entries, p entry.1 ∧ p entry.2 := by
  simp only [children, List.mem_flatMap]
  constructor
  · intro h entry hentry
    exact ⟨h _ ⟨entry, hentry, List.mem_cons_self⟩, h _ ⟨entry, hentry, List.mem_cons_of_mem _ List.mem_cons_self⟩⟩
  · rintro h part ⟨entry, hentry, hpart⟩
    have hpart : part = entry.1 ∨ part = entry.2 := by simpa using hpart
    rcases hpart with rfl | rfl
    · exact (h entry hentry).1
    · exact (h entry hentry).2

/-- Every node of a tree meets a condition. -/
def Everywhere (p : Expr → Prop) (e : Expr) : Prop :=
  ∀ node ∈ e.nodes, p node

instance (p : Expr → Prop) [DecidablePred p] (e : Expr) : Decidable (e.Everywhere p) :=
  inferInstanceAs (Decidable (∀ node ∈ e.nodes, p node))

section Everywhere

variable {p q : Expr → Prop} {e : Expr}

/-- A condition holds everywhere in a tree if it holds at the root and everywhere in the parts. -/
theorem everywhere_iff : e.Everywhere p ↔ p e ∧ ∀ part ∈ e.children, part.Everywhere p := by
  unfold Everywhere
  rw [nodes_eq, List.forall_mem_cons]
  refine and_congr_right fun _ => ?_
  constructor
  · intro h part hpart node hnode
    exact h node (List.mem_flatMap.mpr ⟨part, hpart, hnode⟩)
  · intro h node hnode
    obtain ⟨part, hpart, hnode⟩ := List.mem_flatMap.mp hnode
    exact h part hpart node hnode

theorem Everywhere.root (h : e.Everywhere p) : p e :=
  (everywhere_iff.mp h).1

theorem Everywhere.part (h : e.Everywhere p) {part : Expr} (hpart : part ∈ e.children) : part.Everywhere p :=
  (everywhere_iff.mp h).2 part hpart

theorem Everywhere.mono (h : e.Everywhere p) (hpq : ∀ node, p node → q node) : e.Everywhere q :=
  fun node hnode => hpq node (h node hnode)

/-- What holds everywhere in a tree holds everywhere below each of its nodes. -/
theorem Everywhere.below (h : e.Everywhere p) {node : Expr} (hnode : node ∈ e.nodes) : node.Everywhere p := by
  induction e using children_induction with
  | h e ih =>
    rw [nodes_eq] at hnode
    rcases List.mem_cons.mp hnode with rfl | hnode
    · exact h
    · obtain ⟨part, hpart, hnode⟩ := List.mem_flatMap.mp hnode
      exact ih part hpart (h.part hpart) hnode

/-- A node without parts is all there is of its tree. -/
theorem everywhere_of_children_nil (hchildren : e.children = []) (h : p e) : e.Everywhere p := by
  rw [everywhere_iff, hchildren]
  exact ⟨h, List.forall_mem_nil _⟩

/-- The mark of the root counts only where the condition looks at it. -/
theorem Everywhere.withMark (h : e.Everywhere p) {mark : Mark} (hroot : p (e.withMark mark)) :
    (e.withMark mark).Everywhere p := by
  refine everywhere_iff.mpr ⟨hroot, fun part hpart => h.part ?_⟩
  cases e <;> exact hpart

end Everywhere

/-- Whether a node still has to be worked out: a name, an entry under an index, or a call. -/
def isPending : Expr → Bool
  | .var .. | .indexed .. | .call .. => true
  | _ => false

/-- If a node is a reference, then to an allowed function. -/
def RefersTo (allowed : String → Prop) : Expr → Prop
  | .functionRef _ name => allowed name
  | _ => True

instance {allowed : String → Prop} [DecidablePred allowed] : DecidablePred (RefersTo allowed)
  | .functionRef _ name => inferInstanceAs (Decidable (allowed name))
  | .integer .. | .text .. | .boolean .. | .var .. | .indexed .. | .array .. | .dictionary .. | .arithmetic .. | .logical ..
  | .comparison .. | .call .. | .returned .. | .memory .. | .modified .. | .tally .. | .alwaysTrue .. | .alwaysFalse ..
  | .presence .. => inferInstanceAs (Decidable True)

theorem RefersTo.mono {allowed allowed' : String → Prop} (hallowed : ∀ name, allowed name → allowed' name) {e : Expr}
    (h : e.RefersTo allowed) : e.RefersTo allowed' := by
  cases e with
  | functionRef mark name => exact hallowed name h
  | _ => trivial

/-- A list is worked out if all trees in it are. -/
theorem allReduced_iff {es : List Expr} : allReduced es = true ↔ ∀ e ∈ es, e.isReduced = true := by
  induction es with
  | nil => simp [allReduced]
  | cons e es ih => simp [allReduced, ih]

/-- Entries are worked out if all their keys and values are. -/
theorem entriesReduced_iff {entries : List (Expr × Expr)} :
    entriesReduced entries = true ↔ ∀ entry ∈ entries, entry.1.isReduced = true ∧ entry.2.isReduced = true := by
  induction entries with
  | nil => simp [entriesReduced]
  | cons entry entries ih => simp [entriesReduced, ih]

/-- A tree is reduced if no node has to be worked out and none ends a function. -/
theorem isReduced_iff {e : Expr} :
    e.isReduced = true ↔ e.Everywhere fun node => node.isPending = false ∧ node.isValue = true := by
  induction e using children_induction with
  | h e ih =>
    rw [everywhere_iff]
    have hparts : (∀ part ∈ e.children, part.Everywhere fun node => node.isPending = false ∧ node.isValue = true) ↔
        ∀ part ∈ e.children, part.isReduced = true :=
      forall₂_congr fun part hpart => (ih part hpart).symm
    rw [hparts]
    cases e with
    | array mark entries | tally mark target entries =>
      simp [isReduced, isPending, isValue, children, allReduced_iff]
    | dictionary mark entries =>
      rw [forall_children_dictionary]
      simp [isReduced, isPending, isValue, entriesReduced_iff]
    | logical mark op left right => cases left <;> simp [isReduced, isPending, isValue, children]
    | _ => simp [isReduced, isPending, isValue, children]

/-! ## Marks -/

/-- Trees that are the same are equal without their marks: the comparison goes through both side by side, and trees of
different kinds are never the same. -/
theorem bare_eq_of_same {e e' : Expr} : e.same e' = true → e.bare = e'.bare := by
  apply same.induct (fun e e' => e.same e' = true → e.bare = e'.bare)
    (fun left left' => optionSame left left' = true → bareOption left = bareOption left')
    (fun es es' => entriesSame es es' = true → bareEntries es = bareEntries es')
    (fun es es' => allSame es es' = true → bareList es = bareList es')
  all_goals
    intros
    simp_all only [same, optionSame, allSame, entriesSame, bare, bareOption, bareList, bareEntries, Bool.and_eq_true,
      beq_iff_eq, Bool.false_eq_true]

/-- Two trees are the same exactly if they are equal without their marks. -/
theorem same_iff {e e' : Expr} : e.same e' = true ↔ e.bare = e'.bare :=
  ⟨bare_eq_of_same, same_of_bare_eq⟩

/-- The parts of a tree without marks are its parts without marks. -/
theorem children_bare (e : Expr) : e.bare.children = e.children.map bare := by
  cases e with
  | array mark entries | call mark name entries | tally mark target entries => simp only [bare, children, bareList_eq]
  | dictionary mark entries =>
    simp only [bare, children, bareEntries_eq, List.flatMap_map, List.map_flatMap, List.map_cons, List.map_nil]
  | logical mark op left right => cases left <;> simp [bare, bareOption, children]
  | _ => simp [bare, children]

theorem bare_bare (e : Expr) : e.bare.bare = e.bare := by
  induction e using children_induction with
  | h e ih =>
    cases e with
    | array mark entries | call mark name entries | tally mark target entries =>
      simpa [bare, bareList_eq, children] using ih
    | dictionary mark entries =>
      rw [forall_children_dictionary] at ih
      simpa [bare, bareEntries_eq] using fun key value hmem => ih (key, value) hmem
    | logical mark op left right =>
      cases left with
      | none => simpa [bare, bareOption, children] using ih
      | some left => simpa [bare, bareOption, children] using ih
    | indexed | arithmetic | comparison | returned | modified | presence => simpa [bare, children] using ih
    | _ => rfl

/-- Whether two trees are the same does not depend on marks. -/
theorem same_bare (e e' : Expr) : e.bare.same e'.bare = e.same e' := by
  rw [Bool.eq_iff_iff, same_iff, same_iff, bare_bare, bare_bare]

theorem readsMemory_bare (e : Expr) : e.bare.readsMemory = e.readsMemory := by
  induction e using children_induction with
  | h e ih =>
    cases e with
    | arithmetic mark op left right =>
      rw [bare, readsMemory, readsMemory, ih left (by simp [children]), ih right (by simp [children])]
    | _ => rfl

theorem isNumeric_bare (e : Expr) : e.bare.isNumeric = e.isNumeric := by
  have h := readsMemory_bare e
  cases e with
  | integer => rfl
  | _ => exact h

theorem isOperand_bare (e : Expr) : e.bare.isOperand = e.isOperand := by
  cases e <;> rfl

theorem truth?_bare (e : Expr) : e.bare.truth? = e.truth? := by
  cases e <;> rfl

/-- A condition that does not depend on marks holds everywhere in all trees that are the same. -/
theorem Everywhere.of_same {p : Expr → Prop} (hp : ∀ node : Expr, p node.bare ↔ p node) {e e' : Expr}
    (h : e.Everywhere p) (hsame : e.same e' = true) : e'.Everywhere p := by
  rw [same_iff] at hsame
  induction e using children_induction generalizing e' with
  | h e ih =>
    refine everywhere_iff.mpr ⟨(hp e').mp (hsame ▸ (hp e).mpr h.root), fun part' hpart' => ?_⟩
    have hchildren : e.children.map bare = e'.children.map bare := by rw [← children_bare, hsame, children_bare]
    have hmem : part'.bare ∈ e.children.map bare := hchildren ▸ List.mem_map_of_mem hpart'
    obtain ⟨part, hpart, heq⟩ := List.mem_map.mp hmem
    exact ih part hpart (h.part hpart) heq

end Expr

end TriggerScript
