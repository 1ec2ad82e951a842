import TriggerScript.RichPresence

/-!
# Rich presence scripts grow

A rich presence script is made by requests, each of which makes it longer, finds it as it should be, or is refused. No
request takes anything back, none lets two formats, two lookups or a format and a lookup share a name, and one that is
refused changes nothing.
-/

namespace TriggerScript.RichPresence

/-- The names of the formats. -/
def formatNames (presence : RichPresence) : List String :=
  presence.formats.map (·.1)

/-- The names of the lookups. -/
def lookupNames (presence : RichPresence) : List String :=
  presence.lookups.map (·.name)

/-- Every name belongs to one format or to one lookup. -/
structure IsConsistent (presence : RichPresence) : Prop where
  formats : presence.formatNames.Nodup
  lookups : presence.lookupNames.Nodup
  disjoint : ∀ name ∈ presence.formatNames, name ∉ presence.lookupNames

/-- Without registrations, no names clash. -/
theorem isConsistent_empty : IsConsistent {} :=
  ⟨.nil, .nil, List.forall_mem_nil _⟩

/-- What is registered in a script is registered in another one, in the same order and before all else. -/
structure Extends (before after : RichPresence) : Prop where
  formats : before.formats <+: after.formats
  lookups : before.lookups <+: after.lookups
  conditionals : before.conditionals <+: after.conditionals
  display : ∀ text, before.display? = some text → after.display? = some text

namespace Extends

theorem refl (presence : RichPresence) : presence.Extends presence :=
  ⟨List.prefix_refl _, List.prefix_refl _, List.prefix_refl _, fun _ h => h⟩

theorem trans {first second third : RichPresence} (h : first.Extends second) (h' : second.Extends third) :
    first.Extends third :=
  ⟨h.formats.trans h'.formats, h.lookups.trans h'.lookups, h.conditionals.trans h'.conditionals,
    fun text htext => h'.display text (h.display text htext)⟩

end Extends

/-- What a rich presence script can be asked for. -/
inductive Request where
  /-- To show the values with a name in a format. -/
  | format (name : String) (format : ValueFormat)
  /-- To show the values with a name by a lookup. -/
  | lookup (lookup : Lookup)
  /-- To show a line when no condition holds. -/
  | display (text : String)
  /-- To show a line under a condition. -/
  | conditional (trigger : Trigger) (text : String)

/-- What comes of a request: whether it is granted, and the script behind it. -/
def Request.answer : Request → RichPresence → Except PresenceFault Unit × RichPresence
  | .format name shown => addFormat name shown
  | .lookup table => addLookup table
  | .display text => setDisplay text
  | .conditional trigger text => fun presence => (.ok (), presence.addConditional trigger text)

variable {presence presence' : RichPresence}

/-- What a request that is granted may add to a script: something under a new name, the first line for the other cases, or
a line under a condition. -/
inductive Grows (presence : RichPresence) : RichPresence → Prop
  | format {name : String} {format : ValueFormat} (hformats : name ∉ presence.formatNames)
    (hlookups : name ∉ presence.lookupNames) :
    Grows presence { presence with formats := presence.formats ++ [(name, format)] }
  | lookup {lookup : Lookup} (hlookups : lookup.name ∉ presence.lookupNames)
    (hformats : lookup.name ∉ presence.formatNames) :
    Grows presence { presence with lookups := presence.lookups ++ [lookup] }
  | display {text : String} (hnone : presence.display? = none) : Grows presence { presence with display? := some text }
  | conditional (trigger : Trigger) (text : String) : Grows presence (presence.addConditional trigger text)

/-- A format is refused or registered already and changes nothing, or its name is new. -/
theorem addFormat_cases (name : String) (format : ValueFormat) (presence : RichPresence) :
    (presence.addFormat name format).2 = presence ∨
      (presence.addFormat name format).1 = .ok () ∧ presence.Grows (presence.addFormat name format).2 := by
  unfold addFormat
  split
  · split <;> exact .inl rfl
  · rename_i hnew
    split
    · exact .inl rfl
    · rename_i hlookup
      refine .inr ⟨rfl, .format ?_ ?_⟩
      · intro hmem
        obtain ⟨entry, hentry, rfl⟩ := List.mem_map.mp hmem
        exact List.find?_eq_none.mp hnew entry hentry (decide_eq_true rfl)
      · simpa [lookupNames] using hlookup

/-- A lookup is refused or registered already and changes nothing, or its name is new. -/
theorem addLookup_cases (lookup : Lookup) (presence : RichPresence) :
    (presence.addLookup lookup).2 = presence ∨
      (presence.addLookup lookup).1 = .ok () ∧ presence.Grows (presence.addLookup lookup).2 := by
  unfold addLookup
  split
  · split <;> exact .inl rfl
  · rename_i hnew
    split
    · exact .inl rfl
    · rename_i hformat
      refine .inr ⟨rfl, .lookup ?_ ?_⟩
      · simpa [lookupNames] using hnew
      · simpa [formatNames] using hformat

/-- The line for the other cases is refused and changes nothing, or is the first one. -/
theorem setDisplay_cases (text : String) (presence : RichPresence) :
    (presence.setDisplay text).2 = presence ∨
      (presence.setDisplay text).1 = .ok () ∧ presence.Grows (presence.setDisplay text).2 := by
  unfold setDisplay
  split
  · exact .inl rfl
  · rename_i hnone
    exact .inr ⟨rfl, .display hnone⟩

/-- Nothing is taken back from a script that grows. -/
theorem Grows.extends (h : presence.Grows presence') : presence.Extends presence' := by
  have hrefl := Extends.refl presence
  cases h with
  | format => exact { hrefl with formats := List.prefix_append _ _ }
  | lookup => exact { hrefl with lookups := List.prefix_append _ _ }
  | display hnone =>
    refine { hrefl with display := ?_ }
    intro before hbefore
    rw [hnone] at hbefore
    cases hbefore
  | conditional => exact { hrefl with conditionals := List.prefix_append _ _ }

/-- No name belongs to two things in a script that grows. -/
theorem Grows.isConsistent (h : presence.Grows presence') (hpresence : presence.IsConsistent) : presence'.IsConsistent := by
  have hnodup : ∀ {names : List String} {name : String}, names.Nodup → name ∉ names → (names ++ [name]).Nodup := by
    intro names name hnames hname
    rw [List.nodup_append]
    refine ⟨hnames, by simp, ?_⟩
    rintro other hother last hlast rfl
    rw [List.mem_singleton.mp hlast] at hother
    exact hname hother
  cases h with
  | @format name format hformats hlookups =>
    have hnames : ({ presence with formats := presence.formats ++ [(name, format)] } : RichPresence).formatNames =
        presence.formatNames ++ [name] := by simp [formatNames]
    refine ⟨hnames ▸ hnodup hpresence.formats hformats, hpresence.lookups, ?_⟩
    rw [hnames, List.forall_mem_append, List.forall_mem_singleton]
    exact ⟨hpresence.disjoint, hlookups⟩
  | @lookup lookup hlookups hformats =>
    have hnames : ({ presence with lookups := presence.lookups ++ [lookup] } : RichPresence).lookupNames =
        presence.lookupNames ++ [lookup.name] := by simp [lookupNames]
    refine ⟨hpresence.formats, hnames ▸ hnodup hpresence.lookups hlookups, ?_⟩
    intro name hmem
    rw [hnames, List.mem_append, List.mem_singleton]
    rintro (hold | rfl)
    · exact hpresence.disjoint name hmem hold
    · exact hformats hmem
  | display | conditional => exact ⟨hpresence.formats, hpresence.lookups, hpresence.disjoint⟩

namespace Request

/-- A request changes nothing, or it is granted and the script grows. -/
theorem answer_cases (request : Request) (presence : RichPresence) :
    (request.answer presence).2 = presence ∨
      (request.answer presence).1 = .ok () ∧ presence.Grows (request.answer presence).2 := by
  cases request with
  | format name format => exact addFormat_cases name format presence
  | lookup lookup => exact addLookup_cases lookup presence
  | display text => exact setDisplay_cases text presence
  | conditional trigger text => exact .inr ⟨rfl, .conditional trigger text⟩

/-- A request that is refused changes nothing. -/
theorem refused {request : Request} {fault : PresenceFault} (h : request.answer presence = (.error fault, presence')) :
    presence' = presence := by
  have hcases := request.answer_cases presence
  rw [h] at hcases
  rcases hcases with hsame | ⟨hok, _⟩
  · exact hsame
  · cases hok

/-- No request takes anything back. -/
theorem extends_answer (request : Request) (presence : RichPresence) : presence.Extends (request.answer presence).2 := by
  rcases request.answer_cases presence with hsame | ⟨_, hgrows⟩
  · rw [hsame]
    exact .refl presence
  · exact hgrows.extends

/-- No request lets a name belong to two things. -/
theorem isConsistent_answer (request : Request) (hpresence : presence.IsConsistent) :
    (request.answer presence).2.IsConsistent := by
  rcases request.answer_cases presence with hsame | ⟨_, hgrows⟩
  · rwa [hsame]
  · exact hgrows.isConsistent hpresence

end Request

end TriggerScript.RichPresence
