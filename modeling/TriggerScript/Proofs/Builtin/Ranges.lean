import TriggerScript.Eval.Call
import TriggerScript.Proofs.Number

/-!
# Ranges of integers

A range is walked from its start: a value that has not passed the end is taken, and the next one lies a step further, if that
fits into 64 bits. Every walk whose step is not zero ends, and it takes the integers that exact arithmetic gives: between
the start and the end every sum fits, so a sum that does not fit has passed the end, in either direction.
-/

namespace TriggerScript

/-- A value lies behind the end, seen in the direction of the step. -/
def IsPast (stop step value : Int) : Prop :=
  0 < step ∧ stop < value ∨ step < 0 ∧ value < stop

/-- The walk through a range from a value, or from nowhere if the sum that leads there does not fit, takes these values. -/
inductive RangeWalk (stop step : Int64) : Option Int64 → List Int64 → Prop where
  | outside : RangeWalk stop step none []
  | past {value : Int64} (h : IsPast stop.toInt step.toInt value.toInt) : RangeWalk stop step (some value) []
  | taken {value : Int64} {values : List Int64} (h : ¬ IsPast stop.toInt step.toInt value.toInt)
    (hrest : RangeWalk stop step (int64? (value.toInt + step.toInt)) values) :
    RangeWalk stop step (some value) (value :: values)

/-- A walk takes the same values each time. -/
theorem RangeWalk.unique {stop step : Int64} {current : Option Int64} {values values' : List Int64}
    (h : RangeWalk stop step current values) (h' : RangeWalk stop step current values') : values = values' := by
  induction h generalizing values' with
  | outside =>
    cases h'
    rfl
  | past hpast =>
    cases h' with
    | past => rfl
    | taken hnot => exact absurd hpast hnot
  | taken hnot _ ih =>
    cases h' with
    | past hpast => exact absurd hpast hnot
    | taken _ hrest => rw [ih hrest]

/-- The values are start + k * step for all k = 0, 1, 2, … that do not lead past the end, in this order and each once. -/
structure IsRange (start stop step : Int) (values : List Int64) : Prop where
  exact_values : values.map (·.toInt) = (List.range values.length).map fun (k : Nat) => start + k * step
  lt_length_iff : ∀ k : Nat, k < values.length ↔ ¬ IsPast stop step (start + k * step)
  nodup : values.Nodup

namespace IsRange

variable {start stop step : Int} {value : Int64} {values : List Int64}

/-- The first value of a range is its start. -/
theorem head (h : IsRange start stop step (value :: values)) : value.toInt = start := by
  have hvalues := h.exact_values
  rw [List.length_cons, List.range_succ_eq_map, List.map_cons, List.map_cons] at hvalues
  simpa using (List.cons.inj hvalues).1

/-- The values behind the first one are the range from the next value. -/
theorem tail (h : IsRange start stop step (value :: values)) : IsRange (start + step) stop step values := by
  have hshift : ∀ k : Nat, start + step + k * step = start + (k + 1 : Nat) * step := by
    intro k
    rw [Int.natCast_succ, Int.add_mul, Int.one_mul]
    omega
  refine ⟨?_, fun k => ?_, (List.nodup_cons.mp h.nodup).2⟩
  · have hvalues := h.exact_values
    rw [List.length_cons, List.range_succ_eq_map, List.map_cons, List.map_cons, List.map_map] at hvalues
    rw [(List.cons.inj hvalues).2]
    exact List.map_congr_left fun k _ => (hshift k).symm
  · rw [hshift, ← h.lt_length_iff, List.length_cons]
    omega

/-- The walk from the start of a range takes its values: a second value is the next sum, which then fits. -/
theorem walk {start stop step : Int64} {values : List Int64} (h : IsRange start.toInt stop.toInt step.toInt values) :
    RangeWalk stop step (some start) values := by
  induction values generalizing start with
  | nil =>
    have hpast := h.lt_length_iff 0
    simp only [List.length_nil, Nat.lt_irrefl, false_iff, Classical.not_not] at hpast
    exact .past (by simpa using hpast)
  | cons value values ih =>
    obtain rfl : value = start := Int64.toInt_inj.mp h.head
    have hopen := (h.lt_length_iff 0).mp (Nat.succ_pos _)
    refine .taken (by simpa using hopen) ?_
    cases hnext : int64? (value.toInt + step.toInt) with
    | some next => exact ih (int64?_eq_some_iff.mp hnext ▸ h.tail)
    | none =>
      cases values with
      | nil => exact .outside
      | cons second values =>
        rw [int64?_eq_some_iff.mpr h.tail.head] at hnext
        cases hnext

end IsRange

/-! ## The values of a range -/

/-- A quotient counts the steps from the first number that do not lead beyond the last one. -/
theorem lt_steps_iff {first last step : Int} (hstep : 0 < step) (k : Nat) :
    k < (if last < first then 0 else ((last - first) / step).toNat + 1) ↔ first + k * step ≤ last := by
  have hnonneg : 0 ≤ (k : Int) * step := Int.mul_nonneg (Int.natCast_nonneg k) (Int.le_of_lt hstep)
  split
  · omega
  · have hquotient : 0 ≤ (last - first) / step := Int.ediv_nonneg (by omega) (Int.le_of_lt hstep)
    have hle : (k : Int) ≤ (last - first) / step ↔ k * step ≤ last - first := Int.le_ediv_iff_mul_le hstep
    omega

/-- A place is within the length of a range exactly if the value there is not past the end. -/
theorem lt_rangeLength_iff {start stop step : Int} (hstep : step ≠ 0) (k : Nat) :
    k < rangeLength start stop step ↔ ¬ IsPast stop step (start + k * step) := by
  unfold rangeLength IsPast
  split
  · rw [lt_steps_iff ‹_›]
    omega
  · rw [lt_steps_iff (by omega), Int.mul_neg]
    omega

/-- What has not passed the end lies between the start and the end, so it fits. -/
theorem toInt_ofInt_of_not_isPast {start stop step : Int64} (hstep : step ≠ 0) {k : Nat}
    (h : ¬ IsPast stop.toInt step.toInt (start.toInt + k * step.toInt)) :
    (Int64.ofInt (start.toInt + k * step.toInt)).toInt = start.toInt + k * step.toInt := by
  have hstart := And.intro start.le_toInt start.toInt_lt
  have hstop := And.intro stop.le_toInt stop.toInt_lt
  have hne : step.toInt ≠ 0 := fun hzero => hstep (Int64.toInt_inj.mp hzero)
  unfold IsPast at h
  rcases Int.lt_or_gt_of_ne hne with hneg | hpos
  · have hle : (k : Int) * step.toInt ≤ 0 := Int.mul_nonpos_of_nonneg_of_nonpos (Int.natCast_nonneg k) (Int.le_of_lt hneg)
    exact Int64.toInt_ofInt_of_le (by omega) (by omega)
  · have hle : 0 ≤ (k : Int) * step.toInt := Int.mul_nonneg (Int.natCast_nonneg k) (Int.le_of_lt hpos)
    exact Int64.toInt_ofInt_of_le (by omega) (by omega)

/-- Steps that are not zero lead to different values. -/
theorem nodup_of_exact_values {start step : Int} (hstep : step ≠ 0) {values : List Int64}
    (h : values.map (·.toInt) = (List.range values.length).map fun (k : Nat) => start + k * step) : values.Nodup := by
  have hdistinct : (values.map (·.toInt)).Nodup := by
    rw [h]
    refine List.pairwise_map.mpr (List.pairwise_lt_range.imp fun {k k'} hlt heq => ?_)
    have hproduct : (k : Int) * step = k' * step := by omega
    have hsame := Int.eq_of_mul_eq_mul_right hstep hproduct
    omega
  exact (List.pairwise_map.mp hdistinct).imp fun hvalue heq => hvalue (congrArg _ heq)

/-- The values of a range are a range. -/
theorem isRange_rangeValues {start stop step : Int64} (hstep : step ≠ 0) :
    IsRange start.toInt stop.toInt step.toInt (rangeValues start stop step) := by
  have hne : step.toInt ≠ 0 := fun hzero => hstep (Int64.toInt_inj.mp hzero)
  have hlength : (rangeValues start stop step).length = rangeLength start.toInt stop.toInt step.toInt := by
    rw [rangeValues, List.length_map, List.length_range]
  have hexact : (rangeValues start stop step).map (·.toInt) =
      (List.range (rangeValues start stop step).length).map fun (k : Nat) => start.toInt + k * step.toInt := by
    rw [hlength, rangeValues, List.map_map]
    refine List.map_congr_left fun k hk => ?_
    exact toInt_ofInt_of_not_isPast hstep ((lt_rangeLength_iff hne k).mp (List.mem_range.mp hk))
  refine ⟨hexact, fun k => ?_, nodup_of_exact_values hne hexact⟩
  rw [hlength]
  exact lt_rangeLength_iff hne k

/-! ## Calls -/

/-- The arguments of a call for a range; the step is one if it is left out. -/
inductive AsksRange : List Expr → Int64 → Int64 → Int64 → Prop where
  | stepped (mark mark' mark'' : Mark) (start stop step : Int64) :
    AsksRange [.integer mark start, .integer mark' stop, .integer mark'' step] start stop step
  | unstepped (mark mark' : Mark) (start stop : Int64) : AsksRange [.integer mark start, .integer mark' stop] start stop 1

/-- Arguments that ask for a range with a step get its values. -/
theorem rangeArray_eq_ok {args : Arguments} {start stop step : Int64} (hargs : AsksRange args.values start stop step)
    (hstep : step ≠ 0) :
    args.rangeArray = .ok (.array args.mark ((rangeValues start stop step).map (.integer args.mark))) := by
  obtain ⟨function, values, span⟩ := args
  cases hargs with
  | stepped => exact if_neg hstep
  | unstepped => rfl

/-- A call for a range whose step is not zero ends without a change of the output. Its values are exactly those that the
integers give, and the walk that adds the step as long as the sum fits ends with these values and no others. -/
theorem range_is_exact {args : Arguments} {start stop step : Int64} (hargs : AsksRange args.values start stop step)
    (hstep : step ≠ 0) :
    ∃ values : List Int64,
      (∀ defaultBadge call output, Builtin.apply defaultBadge call .range args output =
        (.ok (some (.array args.mark (values.map (.integer args.mark)))), output)) ∧
      IsRange start.toInt stop.toInt step.toInt values ∧
      ∀ values', RangeWalk stop step (some start) values' ↔ values' = values := by
  have hrange : IsRange start.toInt stop.toInt step.toInt (rangeValues start stop step) := isRange_rangeValues hstep
  refine ⟨rangeValues start stop step, fun defaultBadge call output => ?_, hrange, fun values' => ?_⟩
  · rw [Builtin.apply, rangeArray_eq_ok hargs hstep]
    rfl
  · constructor
    · exact fun hwalk => hwalk.unique hrange.walk
    · rintro rfl
      exact hrange.walk

/-- A call for a range whose step is the least integer; a second step would leave the 64 bits. -/
def leastStep : Arguments :=
  ⟨"range", [.integer {} 5, .integer {} Int64.minValue, .integer {} Int64.minValue], {}⟩

/-- A step of the least number leads to one more value and then past the end. -/
theorem range_is_exact_leastStep :
    AsksRange leastStep.values 5 Int64.minValue Int64.minValue ∧ Int64.minValue ≠ 0 ∧
      leastStep.rangeArray.toOption.map Expr.render = some "[5, -9223372036854775803]" ∧
      ∃ values : List Int64,
        (∀ defaultBadge call output, Builtin.apply defaultBadge call .range leastStep output =
          (.ok (some (.array leastStep.mark (values.map (.integer leastStep.mark)))), output)) ∧
        IsRange (5 : Int64).toInt Int64.minValue.toInt Int64.minValue.toInt values ∧
        ∀ values', RangeWalk Int64.minValue Int64.minValue (some 5) values' ↔ values' = values := by
  have hargs : AsksRange leastStep.values 5 Int64.minValue Int64.minValue := .stepped {} {} {} _ _ _
  exact ⟨hargs, by decide, by decide +kernel, range_is_exact hargs (by decide)⟩

end TriggerScript
