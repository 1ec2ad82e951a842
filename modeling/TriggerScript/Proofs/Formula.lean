import TriggerScript.Proofs.Meaning

/-!
# Formulas

A condition without its negations is a formula: a tree of conjunctions and disjunctions over leaves. Linked conditions know
no brackets, so a flat list of them gives a formula the value that reading it from left to right gives. This reading is
the truth of the formula if only the left operands hold connectives of the other kind (`Formula.isLeftNested`), and
in no other shape: `Formula.exists_misread` finds values of the leaves for which the two differ.
-/

namespace TriggerScript

namespace Connective

/-- The value that decides a connective alone. -/
def absorbing : Connective → Bool
  | .all => false
  | .any => true

/-- The connective that takes the place of this one under a negation. -/
def under (negated : Bool) : Connective → Connective
  | .all => if negated then .any else .all
  | .any => if negated then .all else .any

/-- The connective of a script. -/
def op : Connective → LogicalOp
  | .all => .and
  | .any => .or

/-- A connective of a truth with itself is this truth. -/
theorem combine_self (c : Connective) (a : Bool) : c.combine a a = a := by
  cases c <;> simp [combine]

/-- A connective is associative. -/
theorem combine_assoc (c : Connective) (a b d : Bool) :
    c.combine (c.combine a b) d = c.combine a (c.combine b d) := by
  cases c
  · exact Bool.and_assoc a b d
  · exact Bool.or_assoc a b d

/-- The absorbing truth on the left decides. -/
@[simp] theorem combine_absorbing_left (c : Connective) (a : Bool) : c.combine c.absorbing a = c.absorbing := by
  cases c <;> simp [combine, absorbing]

/-- The absorbing truth on the right decides. -/
@[simp] theorem combine_absorbing_right (c : Connective) (a : Bool) : c.combine a c.absorbing = c.absorbing := by
  cases c <;> simp [combine, absorbing]

/-- What decides the other connective leaves this one open. -/
@[simp] theorem combine_not_absorbing (c : Connective) (a : Bool) : c.combine a (!c.absorbing) = a := by
  cases c <;> simp [combine, absorbing]

/-- Different connectives absorb different truths. -/
theorem absorbing_of_ne {c c' : Connective} (h : c' ≠ c) : c'.absorbing = !c.absorbing := by
  cases c with
  | all =>
    cases c' with
    | all => exact absurd rfl h
    | any => rfl
  | any =>
    cases c' with
    | all => rfl
    | any => exact absurd rfl h

end Connective

/-- A tree of connectives over leaves. -/
inductive Formula (α : Type) where
  | leaf (value : α)
  | join (c : Connective) (left right : Formula α)
  deriving DecidableEq, Repr

namespace Formula

variable {α β γ : Type}

/-- The same tree over other leaves. -/
def map (f : α → β) : Formula α → Formula β
  | .leaf value => .leaf (f value)
  | .join c left right => .join c (left.map f) (right.map f)

/-- The leaves from left to right. -/
def leaves : Formula α → List α
  | .leaf value => [value]
  | .join _ left right => left.leaves ++ right.leaves

/-- The truth of a formula. -/
def truth : Formula Bool → Bool
  | .leaf value => value
  | .join c left right => c.combine left.truth right.truth

/-- The value of a formula that is read from left to right, after a chain. -/
def reading (running : Running) : Formula Bool → Bool
  | .leaf value => running.join value
  | .join c left right => right.reading (.linked c (left.reading running))

/-- Whether all connectives of a formula are the same. -/
def isUniform (c : Connective) : Formula α → Bool
  | .leaf _ => true
  | .join c' left right => c' = c && left.isUniform c && right.isUniform c

/-- Whether a connective stands only left of connectives that differ from it. -/
def isLeftNested : Formula α → Bool
  | .leaf _ => true
  | .join c left right => left.isLeftNested && right.isUniform c

/-- The shape of a formula without its leaves. -/
def shape (f : Formula α) : Formula Unit :=
  f.map fun _ => ()

/-- A formula of the same shape with one value at all leaves. -/
def fill (value : Bool) (f : Formula α) : Formula Bool :=
  f.map fun _ => value

theorem map_map (f : α → β) (g : β → γ) (x : Formula α) : (x.map f).map g = x.map (g ∘ f) := by
  induction x with
  | leaf value => rfl
  | join c left right ihl ihr => simp only [map, ihl, ihr]

theorem map_congr {f g : α → β} {x : Formula α} (h : ∀ a ∈ x.leaves, f a = g a) : x.map f = x.map g := by
  induction x with
  | leaf value => simp only [map, h value (by simp [leaves])]
  | join c left right ihl ihr =>
    simp only [leaves, List.mem_append] at h
    simp only [map, ihl fun a ha => h a (Or.inl ha), ihr fun a ha => h a (Or.inr ha)]

@[simp] theorem isUniform_map (c : Connective) (f : α → β) (x : Formula α) : (x.map f).isUniform c = x.isUniform c := by
  induction x with
  | leaf value => rfl
  | join c' left right ihl ihr => simp only [map, isUniform, ihl, ihr]

@[simp] theorem isLeftNested_map (f : α → β) (x : Formula α) : (x.map f).isLeftNested = x.isLeftNested := by
  induction x with
  | leaf value => rfl
  | join c left right ihl _ => simp only [map, isLeftNested, ihl, isUniform_map]

@[simp] theorem shape_fill (value : Bool) (x : Formula α) : (x.fill value).shape = x.shape :=
  map_map _ _ x

theorem shape_join_congr (c : Connective) {l r : Formula α} {l' r' : Formula β} (hl : l.shape = l'.shape)
    (hr : r.shape = r'.shape) : (join c l r).shape = (join c l' r').shape := by
  rw [shape] at hl hr ⊢
  rw [map, hl, hr]
  rfl

/-! ## Where the reading is right -/

/-- After a link, a formula of one connective only adds its truth to the chain. -/
theorem reading_of_isUniform {c : Connective} {f : Formula Bool} (h : f.isUniform c) (value : Bool) :
    f.reading (.linked c value) = c.combine value f.truth := by
  induction f generalizing value with
  | leaf v => rfl
  | join c' left right ihl ihr =>
    simp only [isUniform, Bool.and_eq_true, decide_eq_true_eq] at h
    obtain ⟨⟨rfl, hl⟩, hr⟩ := h
    rw [reading, ihl hl, ihr hr, truth, Connective.combine_assoc]

/-- A formula with connectives of the other kind only on the left is read as it is meant. -/
theorem reading_of_isLeftNested {f : Formula Bool} (h : f.isLeftNested) : f.reading .start = f.truth := by
  induction f with
  | leaf value => rfl
  | join c left right ihl _ =>
    simp only [isLeftNested, Bool.and_eq_true] at h
    rw [reading, ihl h.1, reading_of_isUniform h.2, truth]

/-! ## Where the reading is wrong -/

/-- A formula with one value at all leaves has this value. -/
@[simp] theorem truth_fill (value : Bool) (f : Formula α) : (f.fill value).truth = value := by
  induction f with
  | leaf _ => rfl
  | join c left right ihl ihr =>
    rw [fill] at ihl ihr ⊢
    rw [map, truth, ihl, ihr, Connective.combine_self]

/-- One value at all leaves does not change a chain that has it already. -/
theorem reading_fill_linked (c : Connective) (value : Bool) (f : Formula α) :
    (f.fill value).reading (.linked c value) = value := by
  induction f generalizing c with
  | leaf _ => exact Connective.combine_self c value
  | join c' left right ihl ihr =>
    rw [fill] at ihl ihr ⊢
    rw [map, reading, ihl, ihr]

/-- One value at all leaves is also what is read. -/
@[simp] theorem reading_fill_start (value : Bool) (f : Formula α) : (f.fill value).reading .start = value := by
  induction f with
  | leaf _ => rfl
  | join c left right ihl _ =>
    rw [fill] at ihl ⊢
    rw [map, reading, ihl]
    exact reading_fill_linked c value right

/-- The deciding value at all leaves decides a chain. -/
theorem reading_fill_absorbing (c : Connective) (value : Bool) (f : Formula α) :
    (f.fill c.absorbing).reading (.linked c value) = c.absorbing := by
  induction f with
  | leaf _ => exact c.combine_absorbing_right value
  | join c' left right ihl _ =>
    rw [fill] at ihl ⊢
    rw [map, reading, ihl]
    exact reading_fill_linked c' _ right

/-- Behind a link whose chain is decided, a formula with another connective can still overturn the chain: the other
connective is decided by the other value, whatever came before it. -/
theorem exists_overturn {c : Connective} {f : Formula α} (h : f.isUniform c = false) :
    ∃ g : Formula Bool, g.shape = f.shape ∧ g.reading (.linked c c.absorbing) = !c.absorbing := by
  induction f with
  | leaf _ => cases h
  | join c' left right ihl ihr =>
    by_cases hc : c' = c
    · subst hc
      cases hr : right.isUniform c' with
      | false =>
        obtain ⟨g, hg, hread⟩ := ihr hr
        refine ⟨.join c' (left.fill c'.absorbing) g, shape_join_congr _ (shape_fill _ left) hg, ?_⟩
        rw [reading, reading_fill_linked, hread]
      | true =>
        have hl : left.isUniform c' = false := by simpa [isUniform, hr] using h
        obtain ⟨g, hg, hread⟩ := ihl hl
        refine ⟨.join c' g (right.fill !c'.absorbing), shape_join_congr _ hg (shape_fill _ right), ?_⟩
        rw [reading, hread, reading_fill_linked]
    · refine ⟨.join c' (left.fill c.absorbing) (right.fill c'.absorbing),
        shape_join_congr _ (shape_fill _ left) (shape_fill _ right), ?_⟩
      rw [reading, reading_fill_absorbing, Connective.absorbing_of_ne hc]

/-- A formula of any other shape is misread for some values of its leaves. -/
theorem exists_misread {f : Formula α} (h : f.isLeftNested = false) :
    ∃ g : Formula Bool, g.shape = f.shape ∧ g.reading .start ≠ g.truth := by
  induction f with
  | leaf _ => cases h
  | join c left right ihl _ =>
    cases hr : right.isUniform c with
    | false =>
      obtain ⟨g, hg, hread⟩ := exists_overturn hr
      refine ⟨.join c (left.fill c.absorbing) g, shape_join_congr _ (shape_fill _ left) hg, ?_⟩
      rw [reading, reading_fill_start, hread, truth, truth_fill, Connective.combine_absorbing_left]
      cases c.absorbing <;> simp
    | true =>
      have hl : left.isLeftNested = false := by simpa [isLeftNested, hr] using h
      obtain ⟨g, hg, hread⟩ := ihl hl
      refine ⟨.join c g (right.fill !c.absorbing), shape_join_congr _ hg (shape_fill _ right), ?_⟩
      have hu : (right.fill !c.absorbing).isUniform c := by rw [fill, isUniform_map, hr]
      rw [reading, reading_of_isUniform hu, truth_fill, Connective.combine_not_absorbing, truth, truth_fill,
        Connective.combine_not_absorbing]
      exact hread

/-- Any values at the leaves of a formula come from a valuation, if no leaf stands twice. -/
theorem exists_valuation {f : Formula α} (hf : f.leaves.Nodup) {g : Formula Bool} (hg : g.shape = f.shape) :
    ∃ ν : α → Bool, f.map ν = g := by
  classical
  induction f generalizing g with
  | leaf a =>
    cases g with
    | leaf value => exact ⟨fun _ => value, rfl⟩
    | join c left right => cases hg
  | join c left right ihl ihr =>
    cases g with
    | leaf value => cases hg
    | join c' left' right' =>
      obtain ⟨rfl, hl, hr⟩ := Formula.join.inj hg
      obtain ⟨hnl, hnr, hdisjoint⟩ := List.nodup_append.mp hf
      obtain ⟨νl, hνl⟩ := ihl hnl hl
      obtain ⟨νr, hνr⟩ := ihr hnr hr
      refine ⟨fun a => if a ∈ left.leaves then νl a else νr a, ?_⟩
      have hleft : left.map (fun a => if a ∈ left.leaves then νl a else νr a) = left' := by
        rw [← hνl]
        exact map_congr fun a ha => if_pos ha
      have hright : right.map (fun a => if a ∈ left.leaves then νl a else νr a) = right' := by
        rw [← hνr]
        exact map_congr fun a ha => if_neg fun ha' => hdisjoint a ha' a ha rfl
      rw [map, hleft, hright]

end Formula

end TriggerScript
