import TriggerScript.Leaderboard
import TriggerScript.Proofs.Wire.Colons

/-!
# Leaderboards are read back

The text of a leaderboard is cut at every double colon, from left to right. A section that is written keeps its colons
apart, so the cuts fall between the sections, in whatever order they stand. The trigger without conditions is the exception:
it is written as nothing, the colon behind the name of its section joins the two behind it, and the cut falls too early.
-/

namespace TriggerScript

namespace Leaderboard

/-! ## Cutting -/

section Cutting

variable {current text : List Char}

/-- A character goes to the section in the making, unless a double colon begins with it. -/
theorem sectionsFrom_cons {c : Char} (h : c = ':' → text.head? ≠ some ':') :
    sectionsFrom current (c :: text) = sectionsFrom (c :: current) text := by
  rw [sectionsFrom]
  rintro rest rfl rfl
  exact h rfl rfl

/-- A text that keeps its colons apart is cut at the double colon behind it and not before. -/
theorem sectionsFrom_append (h : Text.colonsApart text) (rest : List Char) :
    sectionsFrom current (text ++ ':' :: ':' :: rest) = (current.reverse ++ text) :: sectionsFrom [] rest := by
  induction text generalizing current with
  | nil => rw [List.nil_append, sectionsFrom, List.append_nil]
  | cons c text ih =>
    obtain ⟨hc, htext⟩ := Text.colonsApart_cons.mp h
    have hnext : c = ':' → (text ++ ':' :: ':' :: rest).head? ≠ some ':' := by
      intro heq
      obtain ⟨next, tail, rfl, hnext⟩ := hc heq
      simpa using hnext
    rw [List.cons_append, sectionsFrom_cons hnext, ih htext]
    simp

/-- At the end it is one section. -/
theorem sectionsFrom_of_colonsApart (h : Text.colonsApart text) : sectionsFrom current text = [current.reverse ++ text] := by
  induction text generalizing current with
  | nil => rw [sectionsFrom, List.append_nil]
  | cons c text ih =>
    obtain ⟨hc, htext⟩ := Text.colonsApart_cons.mp h
    have hnext : c = ':' → text.head? ≠ some ':' := by
      intro heq
      obtain ⟨next, tail, rfl, hnext⟩ := hc heq
      simpa using hnext
    rw [sectionsFrom_cons hnext, ih htext]
    simp

/-- A text has at least one section. -/
theorem sectionsFrom_ne_nil (current text : List Char) : sectionsFrom current text ≠ [] := by
  induction current, text using sectionsFrom.induct with
  | case1 => simp [sectionsFrom]
  | case2 => simp [sectionsFrom]
  | case3 current c rest hcolons ih =>
    rw [sectionsFrom]
    · exact ih
    · exact hcolons

/-- Only the last section can end in a colon, and then the text does: a colon in front of a double colon is cut off with
the first colon of it. -/
theorem getLast?_of_mem_sectionsFrom (hcurrent : current.head? = some ':' → text.head? ≠ some ':') {part : List Char}
    (hpart : part ∈ sectionsFrom current text) (hcolon : part.getLast? = some ':') :
    (current.reverse ++ text).getLast? = some ':' := by
  induction current, text using sectionsFrom.induct with
  | case1 current =>
    rw [sectionsFrom, List.mem_singleton] at hpart
    rwa [List.append_nil, ← hpart]
  | case2 current rest ih =>
    rw [sectionsFrom, List.mem_cons] at hpart
    rcases hpart with rfl | hpart
    · rw [List.getLast?_reverse] at hcolon
      exact absurd rfl (hcurrent hcolon)
    · have hrest : rest.getLast? = some ':' := ih (by simp) hpart
      have htext : current.reverse ++ ':' :: ':' :: rest = (current.reverse ++ [':', ':']) ++ rest := by simp
      rw [htext, List.getLast?_append, hrest]
      rfl
  | case3 current c rest hcolons ih =>
    have hnext : c = ':' → rest.head? ≠ some ':' := by
      rintro rfl hhead
      obtain ⟨tail, rfl⟩ := List.head?_eq_some_iff.mp hhead
      exact hcolons tail rfl rfl
    rw [sectionsFrom_cons hnext] at hpart
    have hends := ih (by simpa using hnext) hpart
    rwa [List.reverse_cons, List.append_assoc, List.singleton_append] at hends

/-- If the text ends in a colon, its last section is empty or ends in a colon. -/
theorem getLast?_of_getLast?_sectionsFrom {part : List Char} (hpart : (sectionsFrom current text).getLast? = some part)
    (hcolon : (current.reverse ++ text).getLast? = some ':') : part = [] ∨ part.getLast? = some ':' := by
  induction current, text using sectionsFrom.induct with
  | case1 current =>
    rw [sectionsFrom, List.getLast?_singleton] at hpart
    rw [List.append_nil, Option.some.inj hpart] at hcolon
    exact .inr hcolon
  | case2 current rest ih =>
    have hlast : (sectionsFrom [] rest).getLast? = some part := by
      obtain ⟨first, others, hsections⟩ := List.exists_cons_of_ne_nil (sectionsFrom_ne_nil [] rest)
      rw [sectionsFrom, hsections, List.getLast?_cons_cons] at hpart
      rwa [hsections]
    cases rest with
    | nil =>
      rw [sectionsFrom] at hlast
      exact .inl (Option.some.inj hlast).symm
    | cons c rest =>
      refine ih hlast ?_
      rw [List.getLast?_append, List.getLast?_cons_cons, List.getLast?_cons_cons] at hcolon
      simpa [List.getLast?_cons] using hcolon
  | case3 current c rest hcolons ih =>
    rw [sectionsFrom] at hpart
    · refine ih hpart ?_
      rwa [List.reverse_cons, List.append_assoc, List.singleton_append]
    · exact hcolons

end Cutting

/-! ## Sections -/

/-- The text of a section with a name and a body. -/
def sectionText (part : String × String) : List Char :=
  part.1.toList ++ ':' :: part.2.toList

/-- Sections between double colons. -/
def joinSections (parts : List (String × String)) : String :=
  "::".intercalate (parts.map fun part => part.1 ++ ":" ++ part.2)

/-- The sections of a leaderboard in the order in which they are written. -/
def parts (board : Leaderboard) : List (String × String) :=
  [("STA", board.start.wire), ("CAN", board.cancel.wire), ("SUB", board.submit.wire), ("VAL", board.value.wire)]

/-- A name in capital letters. -/
def inCapitals (name : String) : String :=
  String.ofList (name.toList.map Char.toUpper)

/-- A leaderboard is written as its parts between double colons. -/
theorem wire_eq_joinSections (board : Leaderboard) : board.wire = joinSections board.parts := by
  refine String.toList_injective ?_
  simp [wire, joinSections, parts]

/-- The names of the sections are written in capital letters. -/
theorem map_inCapitals_parts (board : Leaderboard) :
    (board.parts.map fun part => (inCapitals part.1, part.2)) = board.parts := by
  have hnames : ∀ name ∈ ["STA", "CAN", "SUB", "VAL"], inCapitals name = name := by
    simp [inCapitals]
  simp only [List.forall_mem_cons] at hnames
  simp only [parts, List.map_cons, List.map_nil, hnames.1, hnames.2.1, hnames.2.2.1, hnames.2.2.2.1]

/-- A part of a leaderboard is a part under its name in capital letters. -/
theorem inCapitals_mem_parts {board : Leaderboard} {part : String × String} (h : part ∈ board.parts) :
    (inCapitals part.1, part.2) ∈ board.parts := by
  rw [← map_inCapitals_parts]
  exact List.mem_map_of_mem h

theorem toList_joinSections_cons_cons (part next : String × String) (parts : List (String × String)) :
    (joinSections (part :: next :: parts)).toList =
      sectionText part ++ ':' :: ':' :: (joinSections (next :: parts)).toList := by
  simp [joinSections, sectionText]

/-- Sections that keep their colons apart are cut where they were joined. -/
theorem sections_joinSections {parts : List (String × String)} (hne : parts ≠ [])
    (h : ∀ part ∈ parts, Text.colonsApart (sectionText part)) : sections (joinSections parts) = parts.map sectionText := by
  unfold sections
  induction parts with
  | nil => exact absurd rfl hne
  | cons part parts ih =>
    rw [List.forall_mem_cons] at h
    cases parts with
    | nil =>
      have htext : (joinSections [part]).toList = sectionText part := by simp [joinSections, sectionText]
      rw [htext, sectionsFrom_of_colonsApart h.1]
      rfl
    | cons next parts =>
      rw [toList_joinSections_cons_cons, sectionsFrom_append h.1, ih (List.cons_ne_nil _ _) h.2]
      rfl

/-! ## Reading sections -/

/-- The name of a section ends at its first colon. -/
theorem takeWhile_name {name rest : List Char} (h : ':' ∉ name) (hrest : rest.takeWhile (· ≠ ':') = []) :
    (name ++ rest).takeWhile (· ≠ ':') = name := by
  rw [List.takeWhile_append_of_pos, hrest, List.append_nil]
  intro c hc
  exact decide_eq_true fun heq => h (heq ▸ hc)

/-- A name in capital letters has the colons of the name. -/
theorem colon_notMem_of_inCapitals {name : String} (h : ':' ∉ (inCapitals name).toList) : ':' ∉ name.toList := by
  intro hmem
  refine h ?_
  rw [inCapitals, String.toList_ofList]
  exact List.mem_map.mpr ⟨':', hmem, rfl⟩

/-- The names of sections have no colons. -/
theorem colon_notMem_of_mem_parts {board : Leaderboard} {part : String × String}
    (h : (inCapitals part.1, part.2) ∈ board.parts) : ':' ∉ part.1.toList := by
  refine colon_notMem_of_inCapitals ?_
  have hname : inCapitals part.1 ∈ ["STA", "CAN", "SUB", "VAL"] := List.mem_map_of_mem (f := Prod.fst) h
  revert hname
  generalize inCapitals part.1 = name
  revert name
  decide

/-- Every part of a leaderboard is read back from what it is written as. -/
structure ReadsParts (board : Leaderboard) : Prop where
  start : Trigger.ofWire board.start.wire = .ok board.start
  cancel : Trigger.ofWire board.cancel.wire = .ok board.cancel
  submit : Trigger.ofWire board.submit.wire = .ok board.submit
  value : Value.ofWire board.value.wire = .ok board.value

/-- The parts of a leaderboard under some names have been found. -/
structure Found (board : Leaderboard) (names : List String) (found : LeaderboardSections) : Prop where
  start : "STA" ∈ names → found.start? = some board.start
  cancel : "CAN" ∈ names → found.cancel? = some board.cancel
  submit : "SUB" ∈ names → found.submit? = some board.submit
  value : "VAL" ∈ names → found.value? = some board.value

theorem found_nil (board : Leaderboard) : board.Found [] {} :=
  ⟨by simp, by simp, by simp, by simp⟩

section Reading

variable {board : Leaderboard} {found : LeaderboardSections} {names : List String}

/-- A section of the leaderboard, with its name in either case, adds its part. -/
theorem readSection_part (hboard : board.ReadsParts) {part : String × String}
    (hpart : (inCapitals part.1, part.2) ∈ board.parts) (hfound : board.Found names found) :
    ∃ found', readSection found (sectionText part) = .ok found' ∧ board.Found (inCapitals part.1 :: names) found' := by
  have hname := colon_notMem_of_mem_parts hpart
  obtain ⟨name, body⟩ := part
  simp only [parts, List.mem_cons, Prod.mk.injEq, List.not_mem_nil, or_false] at hpart
  unfold readSection sectionText
  have hbody : (':' :: body.toList).takeWhile (· ≠ ':') = [] := List.takeWhile_cons_of_neg (by decide)
  simp only [takeWhile_name hname hbody, List.drop_left, String.ofList_toList]
  have hother : ∀ {known : String}, known ≠ inCapitals name → known ∈ inCapitals name :: names → known ∈ names :=
    fun hne hmem => List.mem_of_ne_of_mem hne hmem
  rcases hpart with ⟨heq, rfl⟩ | ⟨heq, rfl⟩ | ⟨heq, rfl⟩ | ⟨heq, rfl⟩
  all_goals
    rw [heq] at hother ⊢
    unfold inCapitals at heq
    rw [heq]
  · rw [hboard.start]
    refine ⟨_, rfl, fun _ => rfl, fun h => hfound.cancel ?_, fun h => hfound.submit ?_, fun h => hfound.value ?_⟩
    all_goals exact hother (by decide) h
  · rw [hboard.cancel]
    refine ⟨_, rfl, fun h => hfound.start ?_, fun _ => rfl, fun h => hfound.submit ?_, fun h => hfound.value ?_⟩
    all_goals exact hother (by decide) h
  · rw [hboard.submit]
    refine ⟨_, rfl, fun h => hfound.start ?_, fun h => hfound.cancel ?_, fun _ => rfl, fun h => hfound.value ?_⟩
    all_goals exact hother (by decide) h
  · rw [hboard.value]
    refine ⟨_, rfl, fun h => hfound.start ?_, fun h => hfound.cancel ?_, fun h => hfound.submit ?_, fun _ => rfl⟩
    all_goals exact hother (by decide) h

/-- Sections of the leaderboard add all their parts. -/
theorem foldlM_readSection (hboard : board.ReadsParts) {sections : List (String × String)}
    (hsections : ∀ part ∈ sections, (inCapitals part.1, part.2) ∈ board.parts) (hfound : board.Found names found) :
    ∃ found', (sections.map sectionText).foldlM readSection found = .ok found' ∧
      board.Found ((sections.map fun part => inCapitals part.1).reverse ++ names) found' := by
  induction sections generalizing found names with
  | nil => exact ⟨found, rfl, hfound⟩
  | cons part sections ih =>
    rw [List.forall_mem_cons] at hsections
    obtain ⟨next, hnext, hfound⟩ := readSection_part hboard hsections.1 hfound
    obtain ⟨found', hfold, hfound⟩ := ih hsections.2 hfound
    refine ⟨found', ?_, by simpa using hfound⟩
    rw [List.map_cons, List.foldlM_cons, hnext]
    exact hfold

/-- A leaderboard is read if the parts under all four names have been found. -/
theorem ofWire_of_found {text : String} (hfold : (sections text).foldlM readSection {} = .ok found)
    (hfound : board.Found names found) (hnames : ["STA", "CAN", "SUB", "VAL"] ⊆ names) :
    ofWire board.title board.description board.format text = .ok board := by
  simp only [List.cons_subset] at hnames
  unfold ofWire
  rw [hfold]
  simp only [bind, Except.bind, hfound.start hnames.1, hfound.cancel hnames.2.1, hfound.submit hnames.2.2.1,
    hfound.value hnames.2.2.2.1, required]
  rfl

end Reading

/-- The triggers of a leaderboard. -/
def triggers (board : Leaderboard) : List Trigger :=
  [board.start, board.cancel, board.submit]

/-- Leaderboards with well-formed triggers and with a value that is read back. -/
structure IsWellFormed (board : Leaderboard) : Prop where
  triggers : ∀ trigger ∈ board.triggers, trigger.isWellFormed
  terms : board.value.terms ≠ []
  numbers : ∀ term ∈ board.value.terms, term.number ≠ Int64.minValue

namespace IsWellFormed

variable {board : Leaderboard} (h : board.IsWellFormed)
include h

/-- The parts of a well-formed leaderboard are read back. -/
theorem readsParts : board.ReadsParts := by
  have htriggers := h.triggers
  simp only [Leaderboard.triggers, List.forall_mem_cons] at htriggers
  exact ⟨Trigger.ofWire_wire htriggers.1, Trigger.ofWire_wire htriggers.2.1, Trigger.ofWire_wire htriggers.2.2.1,
    Value.ofWire_wire h.terms h.numbers⟩

/-- The value of a well-formed leaderboard is not written as an empty text. -/
theorem value_ne_empty : board.value.wire ≠ "" := by
  intro hwire
  have hread := h.readsParts.value
  rw [hwire] at hread
  cases hread

/-- The sections that are empty are those of empty triggers. -/
theorem exists_part_empty : (∃ part ∈ board.parts, part.2 = "") ↔ {} ∈ board.triggers := by
  have htrigger : ∀ trigger ∈ board.triggers, trigger.wire = "" ↔ {} = trigger := by
    intro trigger hmem
    refine ⟨fun hwire => ?_, fun heq => heq ▸ by decide⟩
    have hread := Trigger.ofWire_wire (h.triggers trigger hmem)
    rw [hwire] at hread
    exact Except.ok.inj hread
  simp only [Leaderboard.triggers, List.forall_mem_cons] at htrigger
  simp [parts, Leaderboard.triggers, htrigger, h.value_ne_empty]

/-- What is not empty may stand behind a colon. -/
theorem colonsApart_body : ∀ part ∈ board.parts, part.2 ≠ "" → Text.colonsApart (':' :: part.2.toList) := by
  have htrigger : ∀ trigger ∈ board.triggers, trigger.wire ≠ "" → Text.colonsApart (':' :: trigger.wire.toList) := by
    intro trigger hmem hwire
    refine (Trigger.spelled_wire (h.triggers trigger hmem)).colonsApart ?_
    rintro rfl
    exact hwire (by decide)
  simp only [Leaderboard.triggers, List.forall_mem_cons] at htrigger
  simp only [parts, List.forall_mem_cons, List.not_mem_nil, false_implies, implies_true, and_true]
  exact ⟨htrigger.1, htrigger.2.1, htrigger.2.2.1, fun _ => Value.colonsApart_wire h.terms⟩

/-- A section that is not empty keeps its colons apart. -/
theorem colonsApart_sectionText {part : String × String} (hpart : (inCapitals part.1, part.2) ∈ board.parts)
    (hne : part.2 ≠ "") : Text.colonsApart (sectionText part) :=
  Text.colonsApart_append (Text.colonsApart_of_notMem (colon_notMem_of_mem_parts hpart))
    (h.colonsApart_body (inCapitals part.1, part.2) hpart hne)

/-- Sections in any order and in either case are read as the leaderboard if none of them is empty. -/
theorem ofWire_joinSections (hne : {} ∉ board.triggers) {sections : List (String × String)}
    (hsections : (sections.map fun part => (inCapitals part.1, part.2)).Perm board.parts) :
    ofWire board.title board.description board.format (joinSections sections) = .ok board := by
  have hmem : ∀ part ∈ sections, (inCapitals part.1, part.2) ∈ board.parts :=
    fun part hpart => hsections.mem_iff.mp (List.mem_map_of_mem hpart)
  have hapart : ∀ part ∈ sections, Text.colonsApart (sectionText part) := by
    intro part hpart
    refine h.colonsApart_sectionText (hmem part hpart) fun hempty => hne ?_
    exact h.exists_part_empty.mp ⟨_, hmem part hpart, hempty⟩
  have hnil : sections ≠ [] := by
    rintro rfl
    exact absurd hsections.length_eq (by simp [parts])
  obtain ⟨found, hfold, hfound⟩ := foldlM_readSection h.readsParts hmem (found_nil board)
  rw [← sections_joinSections hnil hapart] at hfold
  refine ofWire_of_found hfold hfound ?_
  intro name hname
  have hnames : (sections.map fun part => inCapitals part.1).Perm ["STA", "CAN", "SUB", "VAL"] := by
    simpa [parts, Function.comp_def] using hsections.map Prod.fst
  rw [List.append_nil, List.mem_reverse]
  exact hnames.mem_iff.mpr hname

/-- A well-formed leaderboard without empty triggers is read back. -/
theorem ofWire_wire (hne : {} ∉ board.triggers) :
    ofWire board.title board.description board.format board.wire = .ok board := by
  rw [wire_eq_joinSections]
  refine h.ofWire_joinSections hne ?_
  rw [map_inCapitals_parts]

end IsWellFormed

/-- A leaderboard with conditions in all of its triggers is read back from its sections in every order, with their names in
every mixture of small and capital letters. In particular it is read back from what it is written as. -/
theorem reads_sections_in_any_order {board : Leaderboard} (h : board.IsWellFormed) (hne : {} ∉ board.triggers) :
    (∀ sections : List (String × String), (sections.map fun part => (inCapitals part.1, part.2)).Perm board.parts →
      ofWire board.title board.description board.format (joinSections sections) = .ok board) ∧
    ofWire board.title board.description board.format board.wire = .ok board :=
  ⟨fun _ hsections => h.ofWire_joinSections hne hsections, h.ofWire_wire hne⟩

/-- A leaderboard whose triggers have flags, counted conditions and, for the start, no core. -/
def sample : Leaderboard :=
  { title := "Speed run", description := "Fewest frames", format := .frames, start := .sample,
    cancel := { core := [{ Condition.never with flag := .resetIf }, { Condition.always with flag := .pauseIf, hits := 3 }] },
    submit := { core := [.always] },
    value := { terms := [.scaled (.memory (.ofSize .byte 0x1f)) (-2), .constant 7] } }

/-- Sections out of order, with names in either case, are read as the leaderboard. -/
theorem reads_sections_in_any_order_sample :
    ofWire "Speed run" "Fewest frames" .frames
      ("val:0xH00001f*-2_v7::Sta:$B:b0x abcdef01*3_M:0xS000000<=4294967295.10.$0!=d0xH00001f::SUB:1=1::" ++
        "cAN:R:0=1_P:1=1.3.") = .ok sample ∧
    ofWire "Speed run" "Fewest frames" .frames sample.wire = .ok sample := by
  have hformed : sample.IsWellFormed := ⟨by decide, by decide, by decide⟩
  have hread := reads_sections_in_any_order hformed (by decide)
  have hsections :
      ([("val", sample.value.wire), ("Sta", sample.start.wire), ("SUB", sample.submit.wire), ("cAN", sample.cancel.wire)].map
        fun part => (inCapitals part.1, part.2)).Perm sample.parts := by
    decide +kernel
  refine ⟨?_, hread.2⟩
  have hall := hread.1 _ hsections
  rw [← hall]
  rfl

/-! ## Texts that are accepted -/

section Accepted

variable {found found' : LeaderboardSections} {text title description : String} {format : ValueFormat} {board : Leaderboard}

/-- What is not part of the name of a section begins with a colon. -/
theorem eq_append_of_drop_takeWhile {part body : List Char} {c : Char}
    (h : part.drop (part.takeWhile (· ≠ ':')).length = c :: body) : part = part.takeWhile (· ≠ ':') ++ ':' :: body := by
  have hdrop : part.dropWhile (· ≠ ':') = c :: body := by
    rw [← h]
    conv => rhs; arg 2; rw [← List.takeWhile_append_dropWhile (p := (· ≠ ':')) (l := part)]
    exact List.drop_left.symm
  obtain rfl : c = ':' := by
    have hhead := List.head?_dropWhile_not (· ≠ ':') part
    rw [hdrop] at hhead
    simpa using hhead
  rw [← hdrop, List.takeWhile_append_dropWhile]

/-- What the body of a section adds to what has been read. -/
inductive Adds (found : LeaderboardSections) (body : String) : LeaderboardSections → Prop
  | start {trigger : Trigger} (h : Trigger.ofWire body = .ok trigger) :
    Adds found body { found with start? := some trigger }
  | cancel {trigger : Trigger} (h : Trigger.ofWire body = .ok trigger) :
    Adds found body { found with cancel? := some trigger }
  | submit {trigger : Trigger} (h : Trigger.ofWire body = .ok trigger) :
    Adds found body { found with submit? := some trigger }
  | value {value : Value} (h : Value.ofWire body = .ok value) :
    Adds found body { found with value? := some value }

/-- A section that is read has a body behind a colon, and adds it. -/
theorem adds_of_readSection {part : List Char} (h : readSection found part = .ok found') :
    ∃ name body, part = name ++ ':' :: body ∧ Adds found (String.ofList body) found' := by
  unfold readSection at h
  simp only at h
  split at h
  · cases h
  · rename_i c body hdrop
    refine ⟨_, body, eq_append_of_drop_takeWhile hdrop, ?_⟩
    split at h
    case h_5 => cases h
    all_goals
      obtain ⟨_, hbody, h⟩ := bind_eq_ok.mp h
      obtain rfl := Except.ok.inj h
      constructor
      exact hbody

/-- The triggers of the sections that have been read, as far as there are any. -/
def foundTriggers (found : LeaderboardSections) : List (Option Trigger) :=
  [found.start?, found.cancel?, found.submit?]

namespace Adds

variable {body : String} (h : Adds found body found')
include h

/-- A trigger that is found behind a section was found before, or is read from it. -/
theorem trigger_or_ofWire {trigger : Trigger} (htrigger : some trigger ∈ foundTriggers found') :
    some trigger ∈ foundTriggers found ∨ Trigger.ofWire body = .ok trigger := by
  simp only [foundTriggers, List.mem_cons, List.not_mem_nil, or_false] at htrigger ⊢
  cases h with
  | start h =>
    rcases htrigger with heq | hother | hother
    · exact .inr (Option.some.inj heq ▸ h)
    · exact .inl (.inr (.inl hother))
    · exact .inl (.inr (.inr hother))
  | cancel h =>
    rcases htrigger with hother | heq | hother
    · exact .inl (.inl hother)
    · exact .inr (Option.some.inj heq ▸ h)
    · exact .inl (.inr (.inr hother))
  | submit h =>
    rcases htrigger with hother | hother | heq
    · exact .inl (.inl hother)
    · exact .inl (.inr (.inl hother))
    · exact .inr (Option.some.inj heq ▸ h)
  | value h => exact .inl htrigger

/-- A value that is found behind a section was found before, or is read from it. -/
theorem value_or_ofWire {value : Value} (hvalue : found'.value? = some value) :
    found.value? = some value ∨ Value.ofWire body = .ok value := by
  cases h with
  | start h | cancel h | submit h => exact .inl hvalue
  | value h => exact .inr (Option.some.inj hvalue ▸ h)

/-- A section whose body is empty or ends in a colon is empty, and its trigger is. -/
theorem empty_trigger (hbody : body.toList = [] ∨ body.toList.getLast? = some ':') : some {} ∈ foundTriggers found' := by
  have htrigger : ∀ {trigger}, Trigger.ofWire body = .ok trigger → {} = trigger := by
    intro trigger h
    rcases hbody with hempty | hcolon
    · rw [String.toList_eq_nil_iff.mp hempty] at h
      exact Except.ok.inj h
    · exact absurd hcolon (Trigger.getLast?_ne_colon h)
  cases h with
  | start h | cancel h | submit h => simp [foundTriggers, htrigger h]
  | value h =>
    rcases hbody with hempty | hcolon
    · rw [String.toList_eq_nil_iff.mp hempty] at h
      cases h
    · exact absurd hcolon (Value.getLast?_ne_colon h)

end Adds

/-- The sections that the parts of a leaderboard are read from. -/
structure ReadFrom (parts : List (List Char)) (found : LeaderboardSections) : Prop where
  trigger : ∀ trigger, some trigger ∈ foundTriggers found →
    ∃ name body, name ++ ':' :: body ∈ parts ∧ Trigger.ofWire (String.ofList body) = .ok trigger
  value : ∀ value, found.value? = some value → ∃ text, Value.ofWire text = .ok value

/-- What is found in sections is read from them. -/
theorem readFrom_of_foldlM {parts : List (List Char)} (h : parts.foldlM readSection {} = .ok found) :
    ReadFrom parts found := by
  refine foldlM_induction (motive := ReadFrom parts) (fun part hpart found found' hfound hread => ?_) h
    ⟨by simp [foundTriggers], by simp⟩
  obtain ⟨name, body, rfl, hadds⟩ := adds_of_readSection hread
  constructor
  · intro trigger htrigger
    rcases hadds.trigger_or_ofWire htrigger with hold | hbody
    · exact hfound.trigger trigger hold
    · exact ⟨name, body, hpart, hbody⟩
  · intro value hvalue
    rcases hadds.value_or_ofWire hvalue with hold | hbody
    · exact hfound.value value hold
    · exact ⟨_, hbody⟩

/-- A part that is required has been found. -/
theorem required_eq_ok {α : Type} {name : String} {part? : Option α} {part : α} (h : required name part? = .ok part) :
    part? = some part := by
  cases part? with
  | none => cases h
  | some part' => exact congrArg some (Except.ok.inj h)

/-- A leaderboard that is read is what its sections define, under the title, the description and the format given. -/
theorem foldlM_of_ofWire (h : ofWire title description format text = .ok board) :
    (sections text).foldlM readSection {} =
        .ok { start? := some board.start, cancel? := some board.cancel, submit? := some board.submit,
              value? := some board.value } ∧
      board.title = title ∧ board.description = description ∧ board.format = format := by
  obtain ⟨found, hfold, h⟩ := bind_eq_ok.mp h
  obtain ⟨start, hstart, h⟩ := bind_eq_ok.mp h
  obtain ⟨cancel, hcancel, h⟩ := bind_eq_ok.mp h
  obtain ⟨submit, hsubmit, h⟩ := bind_eq_ok.mp h
  obtain ⟨value, hvalue, h⟩ := bind_eq_ok.mp h
  obtain rfl := Except.ok.inj h
  refine ⟨?_, rfl, rfl, rfl⟩
  rw [hfold, ← required_eq_ok hstart, ← required_eq_ok hcancel, ← required_eq_ok hsubmit, ← required_eq_ok hvalue]

/-- A leaderboard that is read is well-formed. -/
theorem isWellFormed_of_ofWire (h : ofWire title description format text = .ok board) : board.IsWellFormed := by
  have hread := readFrom_of_foldlM (foldlM_of_ofWire h).1
  obtain ⟨valueText, hvalue⟩ := hread.value board.value rfl
  refine ⟨fun trigger hmem => ?_, (Value.terms_of_ofWire hvalue).1, (Value.terms_of_ofWire hvalue).2⟩
  obtain ⟨name, body, _, hbody⟩ := hread.trigger trigger (List.mem_map_of_mem (f := some) hmem)
  exact Trigger.isWellFormed_of_ofWire hbody

/-- One of its triggers is empty if and only if the text ends in a colon: the section of such a trigger can only be the
last one, since its colon would be cut off with the next section otherwise. -/
theorem empty_mem_triggers_iff (h : ofWire title description format text = .ok board) :
    {} ∈ board.triggers ↔ text.toList.getLast? = some ':' := by
  have hfold := (foldlM_of_ofWire h).1
  constructor
  · intro hmem
    obtain ⟨name, body, hpart, hbody⟩ :=
      (readFrom_of_foldlM hfold).trigger {} (List.mem_map_of_mem (f := some) hmem)
    have hempty := Trigger.toList_eq_nil_of_ofWire hbody
    rw [String.toList_ofList] at hempty
    subst hempty
    simpa using getLast?_of_mem_sectionsFrom (by simp) hpart (by simp)
  · intro hcolon
    obtain ⟨front, last, hsections⟩ := (List.eq_nil_or_concat _).resolve_left (sectionsFrom_ne_nil [] text.toList)
    have hlast : last = [] ∨ last.getLast? = some ':' :=
      getLast?_of_getLast?_sectionsFrom (by rw [hsections]; simp) hcolon
    rw [sections, hsections, List.concat_eq_append, List.foldlM_append] at hfold
    obtain ⟨found, _, hfold⟩ := bind_eq_ok.mp hfold
    rw [List.foldlM_cons] at hfold
    obtain ⟨found', hread, hfold⟩ := bind_eq_ok.mp hfold
    obtain rfl := Except.ok.inj hfold
    obtain ⟨name, body, rfl, hadds⟩ := adds_of_readSection hread
    have hbody : body = [] ∨ body.getLast? = some ':' := by
      cases body with
      | nil => exact .inl rfl
      | cons c body =>
        refine .inr (hlast.resolve_left (by simp) ▸ ?_)
        simp [List.getLast?_append, List.getLast?_cons]
    have hempty := hadds.empty_trigger (by simpa using hbody)
    simpa [foundTriggers, triggers] using hempty

/-- The colon behind the name of an empty section is taken for one of the two that end it. -/
theorem sections_of_empty {before : List (String × String)} {name : String}
    (hbefore : ∀ part ∈ before, Text.colonsApart (sectionText part)) (hname : ':' ∉ name.toList) (next : String × String)
    (after : List (String × String)) :
    ∃ rest, sections (joinSections (before ++ (name, "") :: next :: after)) =
      before.map sectionText ++ name.toList :: rest := by
  unfold sections
  induction before with
  | nil =>
    have htext : (joinSections ((name, "") :: next :: after)).toList =
        name.toList ++ ':' :: ':' :: ':' :: (joinSections (next :: after)).toList := by
      simp [toList_joinSections_cons_cons, sectionText]
    rw [List.nil_append, htext, sectionsFrom_append (Text.colonsApart_of_notMem hname)]
    exact ⟨_, rfl⟩
  | cons part before ih =>
    rw [List.forall_mem_cons] at hbefore
    obtain ⟨rest, hrest⟩ := ih hbefore.2
    refine ⟨rest, ?_⟩
    obtain ⟨first, others, hcons⟩ : ∃ first others, before ++ (name, "") :: next :: after = first :: others :=
      List.exists_cons_of_ne_nil (by simp)
    rw [List.cons_append, hcons, toList_joinSections_cons_cons, sectionsFrom_append hbefore.1, ← hcons, hrest]
    rfl

/-- A section without a colon is refused, whatever it says. -/
theorem readSection_bare {name : List Char} (hname : ':' ∉ name) :
    readSection found name = .error (.unknownSection (String.ofList name)) := by
  have hall : name.takeWhile (· ≠ ':') = name := by
    simpa using takeWhile_name hname (List.takeWhile_nil (p := (· ≠ ':')))
  unfold readSection
  simp only [hall, List.drop_length]

/-- The first section that is written empty is refused when it is read back. The value is the last section and never empty,
so another one follows. -/
theorem ofWire_wire_of_empty (h : board.IsWellFormed) {part : String × String}
    (hpart : board.parts.find? (·.2 = "") = some part) :
    ofWire title description format board.wire = .error (.unknownSection part.1) := by
  obtain ⟨hempty, before, after, hparts, hbefore⟩ := List.find?_eq_some_iff_append.mp hpart
  obtain ⟨name, body⟩ := part
  obtain rfl : body = "" := of_decide_eq_true hempty
  obtain ⟨next, after, rfl⟩ : ∃ next rest, after = next :: rest := by
    refine List.exists_cons_of_ne_nil ?_
    rintro rfl
    have hlast := congrArg List.getLast? hparts
    rw [List.getLast?_concat] at hlast
    exact h.value_ne_empty (congrArg Prod.snd (Option.some.inj hlast))
  have hmem : ∀ part ∈ before, (inCapitals part.1, part.2) ∈ board.parts :=
    fun part hpart => inCapitals_mem_parts (hparts ▸ List.mem_append_left _ hpart)
  have hname : ':' ∉ name.toList :=
    colon_notMem_of_mem_parts (inCapitals_mem_parts (List.mem_of_find?_eq_some hpart))
  have hapart : ∀ part ∈ before, Text.colonsApart (sectionText part) :=
    fun part hpart => h.colonsApart_sectionText (hmem part hpart) (by simpa using hbefore part hpart)
  obtain ⟨rest, hsections⟩ := sections_of_empty hapart hname next after
  obtain ⟨found, hfold, _⟩ := foldlM_readSection h.readsParts hmem (found_nil board)
  unfold ofWire
  rw [wire_eq_joinSections, hparts, hsections, List.foldlM_append, hfold]
  simp only [bind, Except.bind, List.foldlM_cons, readSection_bare hname, String.ofList_toList]

/-- A leaderboard that is read is read back from what it is written as if and only if none of its triggers is empty, that is,
if and only if the text did not end in a colon. Otherwise the first section that is empty is refused. -/
theorem accepted_text_reads_back_iff (h : ofWire title description format text = .ok board) :
    (ofWire title description format board.wire = .ok board ↔
      board.start ≠ {} ∧ board.cancel ≠ {} ∧ board.submit ≠ {}) ∧
    (ofWire title description format board.wire = .ok board ↔ text.toList.getLast? ≠ some ':') ∧
    ∀ part, board.parts.find? (·.2 = "") = some part →
      ofWire title description format board.wire = .error (.unknownSection part.1) := by
  have hformed := isWellFormed_of_ofWire h
  have hread : ofWire title description format board.wire = .ok board ↔ {} ∉ board.triggers := by
    constructor
    · intro hread hmem
      obtain ⟨part, hpart, hempty⟩ := hformed.exists_part_empty.mpr hmem
      obtain ⟨first, hfirst⟩ : ∃ first, board.parts.find? (·.2 = "") = some first := by
        refine Option.isSome_iff_exists.mp (List.find?_isSome.mpr ⟨part, hpart, decide_eq_true hempty⟩)
      rw [ofWire_wire_of_empty hformed hfirst] at hread
      cases hread
    · obtain ⟨_, rfl, rfl, rfl⟩ := foldlM_of_ofWire h
      exact hformed.ofWire_wire
  have htriggers : {} ∉ board.triggers ↔ board.start ≠ {} ∧ board.cancel ≠ {} ∧ board.submit ≠ {} := by
    simp [triggers, eq_comm]
  refine ⟨hread.trans htriggers, ?_, fun part hpart => ofWire_wire_of_empty hformed hpart⟩
  rw [hread, empty_mem_triggers_iff h]

end Accepted

/-- Sections out of order, in small letters and twice, a hexadecimal number and an `S` before a group are accepted. -/
theorem accepted_text_reads_back_iff_sample :
    ∃ board, ofWire "Speed run" "Fewest frames" .frames "val:V7::sta:1=1::can:R:h1F=1::sub:1=1S0=1::Sta:S0=1" = .ok board ∧
      board.wire = "STA:$0=1::CAN:R:31=1::SUB:1=1$0=1::VAL:v7" ∧
      ofWire "Speed run" "Fewest frames" .frames board.wire = .ok board := by
  refine ⟨_, rfl, by decide, ?_⟩
  exact (@accepted_text_reads_back_iff "val:V7::sta:1=1::can:R:h1F=1::sub:1=1S0=1::Sta:S0=1" _ _ _ _ rfl).2.1.mpr (by decide)

/-- A start without conditions is accepted behind the other sections; written first it is refused. -/
theorem empty_section_is_refused :
    ∃ board, ofWire "t" "d" .value "CAN:0xH000002=1::SUB:0xH000003=1::VAL:v1::STA:" = .ok board ∧
      board.wire = "STA:::CAN:0xH000002=1::SUB:0xH000003=1::VAL:v1" ∧
      ofWire "t" "d" .value board.wire = .error (.unknownSection "STA") :=
  ⟨_, rfl, by decide, rfl⟩

end Leaderboard

end TriggerScript
