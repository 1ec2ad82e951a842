import Mathlib.Logic.Relation
import TriggerScript.Proofs.Eval.Scripts
import TriggerScript.Proofs.RichPresence

/-!
# Registration only appends

All that a script does to its output is made of a few steps, each of which adds something behind what is there. So whatever
is executed, in whatever scope and with whatever end, the output before is kept, and whatever single steps keep is kept.
-/

namespace TriggerScript

namespace Output

/-- What is registered in an output is registered in another one, in the same order and before all else. -/
structure Extends (before after : Output) : Prop where
  achievements : before.achievements.toList <+: after.achievements.toList
  leaderboards : before.leaderboards.toList <+: after.leaderboards.toList
  presence : before.presence.Extends after.presence
  journal : before.journal.toList <+: after.journal.toList

namespace Extends

theorem refl (output : Output) : output.Extends output :=
  ⟨List.prefix_refl _, List.prefix_refl _, .refl _, List.prefix_refl _⟩

theorem trans {first second third : Output} (h : first.Extends second) (h' : second.Extends third) : first.Extends third :=
  ⟨h.achievements.trans h'.achievements, h.leaderboards.trans h'.leaderboards, h.presence.trans h'.presence,
    h.journal.trans h'.journal⟩

end Extends

/-- What can be done to an output at once. -/
inductive Step : Output → Output → Prop
  | record (output : Output) (event : Event) : Step output (output.record event)
  | achievement (output : Output) (achievement : Achievement) : Step output (output.addAchievement achievement)
  | leaderboard (output : Output) (board : Leaderboard) : Step output (output.addLeaderboard board)
  | presence {output : Output} {request : RichPresence.Request} {presence : RichPresence}
    (h : request.answer output.presence = (.ok (), presence)) : Step output { output with presence }
  | header (output : Output) (isFirst : Bool) (comment : List Char) :
    Step output (Header.readComment isFirst comment output)

/-- One output is made from another one by steps. -/
abbrev Steps : Output → Output → Prop :=
  Relation.ReflTransGen Step

/-- An event in the journal registers nothing. -/
theorem extends_record (output : Output) (event : Event) : output.Extends (output.record event) :=
  { Extends.refl output with journal := by simp [record] }

variable {output output' : Output}

/-- A step only appends to what is registered. -/
theorem Step.extends (h : Step output output') : output.Extends output' := by
  have hrefl := Extends.refl output
  cases h with
  | record event => exact extends_record output event
  | achievement achievement => exact { hrefl with achievements := by simp [addAchievement] }
  | leaderboard board => exact { hrefl with leaderboards := by simp [addLeaderboard] }
  | @presence request presence h =>
    have hextends := request.extends_answer output.presence
    rw [h] at hextends
    exact { hrefl with presence := hextends }
  | header isFirst comment =>
    unfold Header.readComment
    split
    · split
      · exact { hrefl with }
      · exact extends_record output _
    · split
      · exact { hrefl with }
      · exact hrefl

/-- Comments do not touch the rich presence. -/
theorem presence_readComment (isFirst : Bool) (comment : List Char) (output : Output) :
    (Header.readComment isFirst comment output).presence = output.presence := by
  unfold Header.readComment
  split
  · split <;> rfl
  · split <;> rfl

/-- A step keeps names of value formats and lookups apart. -/
theorem Step.isConsistent (h : Step output output') (houtput : output.presence.IsConsistent) :
    output'.presence.IsConsistent := by
  cases h with
  | record | achievement | leaderboard => exact houtput
  | @presence request presence h =>
    have hconsistent := request.isConsistent_answer houtput
    rw [h] at hconsistent
    exact hconsistent
  | header isFirst comment =>
    rw [presence_readComment]
    exact houtput

end Output

/-! ## What runs do -/

section Registering

variable {inv : Output → Prop} (hinv : ∀ {output output' : Output}, output.Step output' → inv output → inv output')
include hinv

/-- A change of the rich presence script is a step, or is refused and changes nothing. -/
theorem Eval.keeps_changePresence (span : Span) (request : RichPresence.Request) {output : Output} (houtput : inv output) :
    inv (Eval.changePresence span request.answer output).2 := by
  unfold Eval.changePresence
  split
  · rename_i hanswer
    exact hinv (.presence hanswer) houtput
  · rename_i hanswer
    rw [RichPresence.Request.refused hanswer]
    exact houtput

/-- To keep what single steps keep is kept where runs follow one another. -/
theorem Eval.isRegisteringCongruence_keeps :
    Eval.IsRegisteringCongruence fun _ run _ => ∀ output, inv output → inv (run output).2 where
  full :=
    { admits _ := trivial
      ofExcept _ _ houtput := houtput
      bind {_ _ run _ next _} hrun hnext output houtput := by
        have hfirst := hrun output houtput
        change inv (Run.bind run next output).2
        unfold Run.bind
        generalize heq : run output = outcome at hfirst
        obtain ⟨result, between⟩ := outcome
        cases result with
        | ok a => exact hnext a ⟨output, between, heq⟩ between hfirst
        | error error => exact hfirst }
  record event output houtput := hinv (.record output event) houtput
  addAchievement achievement output houtput := hinv (.achievement _ achievement) (hinv (.record output _) houtput)
  addLeaderboard board output houtput := hinv (.leaderboard _ board) (hinv (.record output _) houtput)
  changePresence span request _ houtput := Eval.keeps_changePresence hinv span request houtput

/-- What single steps keep, records and built-in functions keep. -/
theorem Output.isKept_of_step : Output.IsKept inv where
  record event houtput := hinv (.record _ event) houtput
  apply {badge apply builtin args output} hjoin houtput := by
    have happly : builtin.apply badge apply args = builtin.apply badge (fun _ _ => pure none) args := by
      cases builtin with
      | join joiner => exact absurd rfl (hjoin joiner)
      | _ => rfl
    rw [happly]
    exact @Builtin.related_apply _ (Eval.isRegisteringCongruence_keeps hinv) badge builtin args (fun _ _ => pure none)
      (fun _ _ => pure none) (fun _ _ _ _ _ houtput => houtput) output houtput

/-- The header of a script is taken in by steps. -/
theorem Header.keeps_readLines {isFirst : Bool} {lines : List (List Char)} {output : Output} (houtput : inv output) :
    inv (readLines isFirst lines output) := by
  induction lines generalizing isFirst output with
  | nil => exact houtput
  | cons line lines ih =>
    rw [readLines]
    split
    · exact ih (hinv (.header output isFirst _) houtput)
    · exact houtput

end Registering

/-! ## Whatever is executed -/

/-- What can be executed under settings in a scope. -/
inductive Execution where
  /-- An expression, for its value. -/
  | evaluate (e : Expr)
  /-- An expression, for what it becomes when its names are resolved. -/
  | replace (e : Expr)
  /-- A condition, for its truth. -/
  | test (e : Expr)
  /-- A call of a function with values. -/
  | call (name : String) (values : List Expr) (span : Span)
  /-- A statement of a function. -/
  | statement (s : Stmt)
  /-- A block of a function. -/
  | block (ss : List Stmt)
  /-- Statements of a script, which may define functions. -/
  | statements (ss : List Stmt)
  /-- A whole script; it has a global scope of its own. -/
  | program (ss : List Stmt)
  /-- A whole script as it is written. -/
  | source (text : String)

namespace Execution

/-- The output that an execution leaves behind, whether it ends well or fails. -/
def outputAfter (settings : Settings) (scope : Scope) (output : Output) : Execution → Output
  | .evaluate e => (scope.evaluate settings e output).2
  | .replace e => (scope.replace settings e output).2
  | .test e => (scope.isTrue settings e output).2
  | .call name values span => ((scope.envUnder settings).call name values span output).2
  | .statement s => (s.exec (Scope.envUnder settings) { scope, output }).2.output
  | .block ss => (Stmt.execBlock (Scope.envUnder settings) ss { scope, output }).2.output
  | .statements ss => (Script.runStatements (Scope.envUnder settings) ss { scope, output }).2.output
  | .program ss => (Script.run settings ss output).2
  | .source text => (Script.compile settings text output).2

/-- What single steps keep, every execution keeps. -/
theorem keeps {inv : Output → Prop} (hinv : ∀ {output output' : Output}, output.Step output' → inv output → inv output')
    (settings : Settings) (scope : Scope) (execution : Execution) {output : Output} (houtput : inv output) :
    inv (execution.outputAfter settings scope output) := by
  have hkept : Output.IsKept inv := Output.isKept_of_step hinv
  have henv : Scope.EnvsAgree (fun _ => False) inv (Scope.envUnder settings) (Scope.envUnder settings) :=
    Settings.envsAgree hkept rfl (Nat.le_refl _) fun hne => absurd rfl hne
  have hd : (Discipline.unrestricted scope.globalFrame.functions inv fun _ => False).Lawful :=
    Discipline.lawful_unrestricted hkept
  cases execution with
  | evaluate e => exact (Discipline.agree_evaluate hd (henv scope) e.everywhere_true output houtput).1
  | replace e => exact (Discipline.agree_replace hd (henv scope) e.everywhere_true output houtput).1
  | test e => exact (Discipline.agree_isTrue hd (henv scope) e.everywhere_true output houtput).1
  | call name values span =>
    exact ((henv scope).call name values span (fun value _ => value.everywhere_true) output houtput).1
  | statement s => exact (Script.agree_exec hkept henv s { scope, output } houtput).1
  | block ss => exact (Script.agree_execBlock hkept henv ss { scope, output } houtput).1
  | statements ss => exact (Script.agree_runStatements hkept henv ss { scope, output } houtput).1
  | program ss => exact (Script.agree_run hkept henv ss output houtput).1
  | source text =>
    have hheader : ∀ output, inv output → inv (Header.read text output) :=
      fun output houtput => Header.keeps_readLines hinv houtput
    exact (Script.agree_compile hkept henv hheader output houtput).1

end Execution

/-- Registration only appends. Whatever is executed in whatever scope, the output afterwards is made from the output before
by steps and extends it; no output that is made by steps lets two formats, two lookups or a format and a lookup share a name;
and a request to a rich presence script that is refused changes nothing. -/
theorem registration_only_appends :
    (∀ (execution : Execution) (settings : Settings) (scope : Scope) (output : Output),
      output.Extends (execution.outputAfter settings scope output) ∧
        output.Steps (execution.outputAfter settings scope output)) ∧
    (∀ output, Output.Steps {} output → output.presence.IsConsistent) ∧
    (∀ (request : RichPresence.Request) (presence : RichPresence) (fault : PresenceFault),
      (request.answer presence).1 = .error fault → (request.answer presence).2 = presence) ∧
    ∀ (request : RichPresence.Request) (span : Span) (output : Output) (error : Error),
      (Eval.changePresence span request.answer output).1 = .error error →
        (Eval.changePresence span request.answer output).2 = output := by
  refine ⟨fun execution settings scope output => ⟨?_, ?_⟩, fun output hsteps => ?_, fun request presence fault h => ?_,
    fun request span output error h => ?_⟩
  · exact execution.keeps (fun hstep hextends => hextends.trans hstep.extends) settings scope (.refl output)
  · exact execution.keeps (fun hstep hsteps => hsteps.tail hstep) settings scope .refl
  · induction hsteps with
    | refl => exact RichPresence.isConsistent_empty
    | tail _ hstep ih => exact hstep.isConsistent ih
  · exact RichPresence.Request.refused (Prod.ext h rfl)
  · unfold Eval.changePresence at h ⊢
    split
    · rename_i hanswer
      rw [hanswer] at h
      cases h
    · rename_i hanswer
      rw [RichPresence.Request.refused hanswer]

/-- A script that shows a number. -/
def showNumber : Execution :=
  .source "rich_presence_display(\"\x7b0\x7d\", rich_presence_value(\"v\", byte(1)))"

/-- A script that shows a text. -/
def showText : Execution :=
  .source "rich_presence_display(\"\x7b0\x7d\", rich_presence_lookup(\"k\", byte(2), \x7b\x7d))"

/-- The second script fails behind the lookup that it registers, and what the first one registered stays. -/
theorem registration_only_appends_showText :
    ∃ before after, showNumber.outputAfter {} .global {} = before ∧ showText.outputAfter {} .global before = after ∧
      before.presence.display? = some "@v(0xH000001)" ∧ after.presence.display? = some "@v(0xH000001)" ∧
      after.presence.formatNames = ["v"] ∧ after.presence.lookupNames = ["k"] ∧ after.presence.IsConsistent := by
  have hdisplay : (showNumber.outputAfter {} .global {}).presence.display? = some "@v(0xH000001)" := by decide +kernel
  have hfirst := registration_only_appends.1 showNumber {} .global {}
  have hsecond := registration_only_appends.1 showText {} .global (showNumber.outputAfter {} .global {})
  refine ⟨_, _, rfl, rfl, hdisplay, hsecond.1.presence.display _ hdisplay, by decide +kernel, by decide +kernel, ?_⟩
  exact registration_only_appends.2.1 _ (hfirst.2.trans hsecond.2)

end TriggerScript
