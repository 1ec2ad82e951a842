import TriggerScript.Proofs.Token.Scanning

/-!
# What stands between tokens

Between two tokens stand blanks and whole comments. `IsGap` says so without reference to how they are skipped: a comment
that ends with its line holds no line break, and one between stars ends with the first star that a slash follows. A gap that
is skipped is of this form, and goes as far as it can.
-/

namespace TriggerScript

/-- Blanks and whole comments in front of the rest of a text. -/
inductive IsGap (rest : List Char) : List Char → Prop
  /-- Nothing. -/
  | nil : IsGap rest []
  /-- A blank. -/
  | blank {c : Char} {gap : List Char} (hblank : Text.isBlank c) (hgap : IsGap rest gap) : IsGap rest (c :: gap)
  /-- A comment up to the end of its line, or of the text. -/
  | line {body gap : List Char} (hbody : '\n' ∉ body) (hend : ∀ c ∈ (gap ++ rest).head?, c = '\n')
    (hgap : IsGap rest gap) : IsGap rest ('/' :: '/' :: (body ++ gap))
  /-- A comment up to the first star with a slash behind it. -/
  | block {body gap : List Char} (hbody : ¬ ['*', '/'] <:+: body) (hgap : IsGap rest gap) :
    IsGap rest ('/' :: '*' :: (body ++ '*' :: '/' :: gap))

/-- Whether neither a blank nor a comment begins a text. -/
def endsGap : List Char → Bool
  | [] => true
  | c :: rest => !Text.isBlank c && !(c = '/' && rest.head?.any fun next => next = '/' || next = '*')

/-- Nothing is skipped in front of a text that neither a blank nor a comment begins. -/
theorem gapFrom_of_endsGap {cs : List Char} (h : endsGap cs) (passed : Nat) :
    gapFrom .outside passed cs = .closed passed := by
  cases cs with
  | nil => rfl
  | cons c rest =>
    simp only [endsGap, Bool.and_eq_true, Bool.not_eq_true'] at h
    obtain ⟨hblank, hcomment⟩ := h
    rw [gapFrom.eq_def]
    split <;> simp_all

/-- A front of a text that begins with neither a blank nor a comment does not either. -/
theorem endsGap_of_append {front rest : List Char} (h : endsGap (front ++ rest)) : endsGap front := by
  cases front with
  | nil => rfl
  | cons c front =>
    cases front with
    | nil =>
      simp only [List.cons_append, endsGap, Bool.and_eq_true] at h
      simp [endsGap, h.1]
    | cons c' front => exact h

/-- What a scan that stands in a gap skips up to the rest of a text. -/
def GapState.Skips (rest : List Char) : GapState → List Char → Prop
  | .outside, text => IsGap rest text
  | .line, text =>
    ∃ body gap, text = body ++ gap ∧ '\n' ∉ body ∧ (∀ c ∈ (gap ++ rest).head?, c = '\n') ∧ IsGap rest gap
  | .block _, text => ∃ body gap, text = body ++ '*' :: '/' :: gap ∧ ¬ ['*', '/'] <:+: body ∧ IsGap rest gap

/-- A closed gap is skipped as far as it goes. The line break that ends a comment is itself a blank of the gap. -/
theorem gapFrom_closed {state : GapState} {passed length : Nat} {cs : List Char}
    (h : gapFrom state passed cs = .closed length) :
    ∃ text rest, cs = text ++ rest ∧ length = passed + text.length ∧ state.Skips rest text ∧ endsGap rest := by
  induction state, passed, cs using gapFrom.induct with
  | case1 passed rest ih =>
    rw [gapFrom] at h
    obtain ⟨_, rest, rfl, rfl, ⟨body, gap, rfl, hbody, hend, hgap⟩, hrest⟩ := ih h
    refine ⟨'/' :: '/' :: (body ++ gap), rest, rfl, ?_, .line hbody hend hgap, hrest⟩
    simp only [List.length_cons]
    omega
  | case2 passed rest ih =>
    rw [gapFrom] at h
    obtain ⟨_, rest, rfl, rfl, ⟨body, gap, rfl, hbody, hgap⟩, hrest⟩ := ih h
    refine ⟨'/' :: '*' :: (body ++ '*' :: '/' :: gap), rest, rfl, ?_, .block hbody hgap, hrest⟩
    simp only [List.length_cons]
    omega
  | case3 passed c rest hline hblock hblank ih =>
    rw [gapFrom.eq_3 _ _ _ hline hblock, if_pos hblank] at h
    obtain ⟨gap, rest, rfl, rfl, hgap, hrest⟩ := ih h
    exact ⟨c :: gap, rest, rfl, by rw [List.length_cons]; omega, .blank hblank hgap, hrest⟩
  | case4 passed c rest hline hblock hblank =>
    rw [gapFrom.eq_3 _ _ _ hline hblock, if_neg hblank] at h
    obtain rfl : passed = length := Gap.closed.inj h
    refine ⟨[], c :: rest, rfl, rfl, .nil, ?_⟩
    cases rest with
    | nil => simp [endsGap, hblank]
    | cons next rest =>
      have hslash : c = '/' → next ≠ '/' ∧ next ≠ '*' := fun hc =>
        ⟨fun hnext => hline rest hc (by rw [hnext]), fun hnext => hblock rest hc (by rw [hnext])⟩
      by_cases hc : c = '/'
      · simp [endsGap, hblank, hslash hc]
      · simp [endsGap, hblank, hc]
  | case5 passed c rest ih =>
    rw [gapFrom] at h
    obtain ⟨text, rest, rfl, rfl, hskips, hrest⟩ := ih h
    refine ⟨c :: text, rest, rfl, by rw [List.length_cons]; omega, ?_, hrest⟩
    split at hskips
    · rename_i hc
      subst hc
      exact ⟨[], '\n' :: text, rfl, by simp, by simp, .blank (by decide) hskips⟩
    · rename_i hc
      obtain ⟨body, gap, rfl, hbody, hend, hgap⟩ := hskips
      exact ⟨c :: body, gap, rfl, by simp [hbody, Ne.symm hc], hend, hgap⟩
  | case6 start passed rest ih =>
    rw [gapFrom] at h
    obtain ⟨gap, rest, rfl, rfl, hgap, hrest⟩ := ih h
    exact ⟨'*' :: '/' :: gap, rest, rfl, by simp only [List.length_cons]; omega, ⟨[], gap, rfl, by simp, hgap⟩, hrest⟩
  | case7 start passed c rest hstar ih =>
    rw [gapFrom.eq_6 _ _ _ _ hstar] at h
    obtain ⟨_, rest, rfl, rfl, ⟨body, gap, rfl, hbody, hgap⟩, hrest⟩ := ih h
    refine ⟨c :: (body ++ '*' :: '/' :: gap), rest, rfl, by rw [List.length_cons]; omega,
      ⟨c :: body, gap, rfl, ?_, hgap⟩, hrest⟩
    rw [List.infix_cons_iff, not_or]
    refine ⟨?_, hbody⟩
    rintro ⟨others, hothers⟩
    obtain ⟨rfl, hslash⟩ := List.cons.inj hothers
    rw [← hslash] at hstar
    exact hstar _ rfl rfl
  | case8 start passed => cases h
  | case9 state passed hstate =>
    cases state with
    | outside => exact ⟨[], [], rfl, (Gap.closed.inj h).symm, .nil, rfl⟩
    | line => exact ⟨[], [], rfl, (Gap.closed.inj h).symm, ⟨[], [], rfl, by simp, by simp, .nil⟩, rfl⟩
    | block start => exact absurd rfl (hstate start)

end TriggerScript
