import TriggerScript.Proofs.Outcome
import TriggerScript.Proofs.Text.Bytes
import TriggerScript.Proofs.Token.Words

/-!
# Tokens tile their script

A cursor always knows the offset, the line and the column of the text behind it (`Cursor.IsAt`), whatever it passes. So each
step finds a token at its place, behind a gap, and the tokens of a script cover everything in it but gaps (`Tiled`). From
this follows what `Tiles` says about the spans of the tokens alone: in what order they stand, what they cut out of the
script, what stands between them and which lines and columns they name.
-/

namespace TriggerScript

/-! ## Lines and columns -/

namespace Text

/-- The line of what follows a text. -/
def lineAfter (before : List Char) : Nat :=
  1 + before.count '\n'

/-- The column of what follows a text. -/
def columnAfter (before : List Char) : Nat :=
  1 + (before.reverse.takeWhile (· ≠ '\n')).length

/-- A line break ends a line, and no other character does. -/
theorem lineAfter_concat (before : List Char) (c : Char) :
    lineAfter (before ++ [c]) = if c = '\n' then lineAfter before + 1 else lineAfter before := by
  rw [lineAfter, lineAfter, List.count_append, List.count_singleton]
  by_cases hc : c = '\n' <;> simp [hc, Nat.add_assoc]

/-- A line break leads to the first column, and every other character to the next one. -/
theorem columnAfter_concat (before : List Char) (c : Char) :
    columnAfter (before ++ [c]) = if c = '\n' then 1 else columnAfter before + 1 := by
  rw [columnAfter, columnAfter, List.reverse_concat, List.takeWhile_cons]
  by_cases hc : c = '\n' <;> simp [hc, Nat.add_assoc]

end Text

namespace Span

/-- The span of a word behind the first characters of a script. -/
def ofWord (before word : List Char) : Span :=
  { start := Text.byteSize before
    stop := Text.byteSize before + Text.byteSize word
    line := Text.lineAfter before
    column := Text.columnAfter before }

/-- A span begins between two characters of a script, and names the line and the column there. -/
def IsPlaced (source : String) (span : Span) : Prop :=
  ∃ before, Text.takeBytes? span.start source.toList = some before ∧
    span.line = Text.lineAfter before ∧ span.column = Text.columnAfter before

end Span

namespace Cursor

/-- A cursor stands behind the first characters of a script. -/
structure IsAt (script before : List Char) (cursor : Cursor) : Prop where
  /-- It has the rest of the script ahead. -/
  text : script = before ++ cursor.rest
  /-- It counts the bytes behind it. -/
  offset : cursor.offset = Text.byteSize before
  /-- It knows its line. -/
  line : cursor.line = Text.lineAfter before
  /-- It knows its column. -/
  column : cursor.column = Text.columnAfter before

/-- A cursor starts at the beginning of the script. -/
theorem isAt_atStart (source : String) : (atStart source).IsAt source.toList [] :=
  ⟨rfl, rfl, rfl, rfl⟩

variable {script before : List Char} {cursor : Cursor}

/-- Passing a character keeps all of this. -/
theorem IsAt.advance (h : cursor.IsAt script before) : cursor.advance.IsAt script (before ++ cursor.rest.take 1) := by
  unfold Cursor.advance
  split
  · rename_i hrest
    rw [hrest, List.take_nil, List.append_nil]
    exact h
  · rename_i c rest hrest
    rw [hrest]
    refine ⟨?_, ?_, ?_, ?_⟩
    · rw [h.text, hrest]
      simp
    · simp [h.offset]
    · simp [h.line, Text.lineAfter_concat]
    · simp [h.column, Text.columnAfter_concat]

/-- Skipping characters passes them. -/
theorem IsAt.skip (h : cursor.IsAt script before) (n : Nat) :
    (cursor.skip n).IsAt script (before ++ cursor.rest.take n) := by
  induction n generalizing before cursor with
  | zero =>
    rw [List.take_zero, List.append_nil]
    exact h
  | succ n ih =>
    rw [Cursor.skip]
    have hstep := ih h.advance
    have hrest : cursor.advance.rest = cursor.rest.drop 1 := rest_skip 1 cursor
    rwa [hrest, List.append_assoc, ← List.take_add, Nat.add_comm] at hstep

/-- Skipping a text that stands ahead leaves what stands behind it. -/
theorem IsAt.skip_append (h : cursor.IsAt script before) {text rest : List Char} (hrest : cursor.rest = text ++ rest) :
    (cursor.skip text.length).IsAt script (before ++ text) ∧ (cursor.skip text.length).rest = rest := by
  refine ⟨?_, by rw [rest_skip, hrest, List.drop_left]⟩
  have hskip := h.skip text.length
  rwa [hrest, List.take_left] at hskip

/-- A span that begins where a cursor stands is placed in the source. -/
theorem IsAt.isPlaced {source : String} {before : List Char} {first : Cursor} (h : first.IsAt source.toList before)
    (last : Cursor) : (first.spanTo last).IsPlaced source := by
  refine ⟨before, ?_, h.line, h.column⟩
  rw [spanTo, h.offset, h.text, Text.takeBytes?_append]

/-- The span between two cursors is that of the word between them. -/
theorem spanTo_eq_ofWord {word : List Char} {first last : Cursor} (hfirst : first.IsAt script before)
    (hlast : last.IsAt script (before ++ word)) : first.spanTo last = .ofWord before word := by
  rw [spanTo, hfirst.offset, hfirst.line, hfirst.column, hlast.offset, Text.byteSize_append]
  rfl

/-- Whatever a step finds, the cursor behind it knows its place. -/
theorem IsAt.next (h : cursor.IsAt script before) : ∃ before', cursor.next.2.IsAt script before' := by
  have hstep := cursor.step_next
  generalize cursor.next.1 = item, cursor.next.2 = after at hstep
  cases hstep with
  | comment _ => exact ⟨_, h.skip _⟩
  | ending hfirst _ | unexpected _ hfirst _ =>
    subst hfirst
    exact ⟨_, h.skip _⟩
  | word _ hfirst _ _ _ | fault _ hfirst _ _ =>
    subst hfirst
    exact ⟨_, (h.skip _).skip _⟩

/-- The place of a fault is one in the script. -/
theorem isPlaced_of_next {source : String} {before : List Char} {cursor after : Cursor} {error : LexError}
    (h : cursor.IsAt source.toList before) (hnext : cursor.next = (.error error, after)) : error.span.IsPlaced source := by
  cases step_of_next hnext with
  | comment _ => exact (h.skip _).isPlaced _
  | fault _ hfirst _ _ =>
    subst hfirst
    exact ((h.skip _).skip _).isPlaced _
  | unexpected _ hfirst _ =>
    subst hfirst
    exact (h.skip _).isPlaced _

end Cursor

/-! ## Tilings -/

/-- Tokens behind the first characters of a script that cover the rest of it, but for gaps: each is cut out by its span and
is the same token alone. -/
inductive Tiled : List Char → List Char → List Token → Prop
  /-- The end of the script behind a gap. -/
  | ending {before gap : List Char} (hgap : IsGap [] gap) :
    Tiled before gap [{ kind := .endOfScript, span := .ofWord (before ++ gap) [] }]
  /-- A word behind a gap, and what follows it. -/
  | word {before gap word rest : List Char} {kind : TokenKind} {tokens : List Token} (hgap : IsGap (word ++ rest) gap)
    (hword : IsWord word [] kind) (hkind : kind ≠ .endOfScript) (hrest : Tiled (before ++ gap ++ word) rest tokens) :
    Tiled before (gap ++ (word ++ rest)) ({ kind, span := .ofWord (before ++ gap) word } :: tokens)

namespace Cursor

/-- The tokens behind a cursor tile the rest of the script. -/
theorem tiled_tokens {script before : List Char} {cursor : Cursor} (h : cursor.IsAt script before) {bound : Nat}
    (hbound : cursor.rest.length < bound) {tokens : List Token} (htokens : cursor.tokens bound = .ok tokens) :
    Tiled before cursor.rest tokens := by
  induction bound generalizing cursor before tokens with
  | zero => omega
  | succ bound ih =>
    unfold Cursor.tokens at htokens
    split at htokens
    case h_2 => cases htokens
    case h_1 token after hnext =>
      cases step_of_next hnext with
      | @ending _ hfirst hgap =>
        obtain rfl := Except.ok.inj htokens
        obtain ⟨hplace, _⟩ := h.skip_append (List.append_nil cursor.rest).symm
        rw [← hfirst] at hplace
        rw [spanTo_eq_ofWord hplace (by rwa [List.append_nil])]
        exact .ending hgap
      | @word gap word rest kind first hrest hfirst hgap hword hkind =>
        rw [if_neg hkind] at htokens
        obtain ⟨others, hothers, rfl⟩ := map_eq_ok.mp htokens
        obtain ⟨hplace, hafter⟩ := h.skip_append hrest
        rw [← hfirst] at hplace hafter
        obtain ⟨hlast, hlastRest⟩ := hplace.skip_append hafter
        rw [spanTo_eq_ofWord hplace hlast, hrest]
        refine .word hgap hword hkind ?_
        have hshorter : rest.length < bound := by
          have hpos := List.length_pos_iff.mpr hword.ne_nil
          rw [hrest, List.length_append, List.length_append] at hbound
          omega
        have htiled := ih hlast (by rwa [hlastRest]) hothers
        rwa [hlastRest] at htiled

/-- The first fault behind a cursor has its place in the script. -/
theorem isPlaced_of_tokens {source : String} {before : List Char} {cursor : Cursor} (h : cursor.IsAt source.toList before)
    {bound : Nat} {error : LexError} (htokens : cursor.tokens bound = .error error) : error.span.IsPlaced source := by
  induction bound generalizing cursor before with
  | zero => cases htokens
  | succ bound ih =>
    unfold Cursor.tokens at htokens
    obtain ⟨before', hafter⟩ := h.next
    split at htokens
    case h_1 token after hnext =>
      rw [hnext] at hafter
      split at htokens
      · cases htokens
      · cases hothers : after.tokens bound with
        | ok others =>
          rw [hothers] at htokens
          cases htokens
        | error error' =>
          rw [hothers] at htokens
          obtain rfl : error' = error := Except.error.inj htokens
          exact ih hafter hothers
    case h_2 error' after hnext =>
      obtain rfl : error' = error := Except.error.inj htokens
      exact isPlaced_of_next h hnext

/-- All faults behind a cursor have their places in the script. -/
theorem isPlaced_of_items {source : String} {before : List Char} {cursor : Cursor} (h : cursor.IsAt source.toList before)
    {limit : Nat} {error : LexError} (hitems : .error error ∈ cursor.items limit) : error.span.IsPlaced source := by
  induction limit generalizing cursor before with
  | zero => cases hitems
  | succ limit ih =>
    unfold Cursor.items at hitems
    obtain ⟨before', hafter⟩ := h.next
    split at hitems
    case h_1 token after hnext =>
      rw [hnext] at hafter
      rcases List.mem_cons.mp hitems with hitem | hitems
      · cases hitem
      · split at hitems
        · cases hitems
        · exact ih hafter hitems
    case h_2 error' after hnext =>
      rw [hnext] at hafter
      rcases List.mem_cons.mp hitems with hitem | hitems
      · obtain rfl : error = error' := Except.error.inj hitem
        exact isPlaced_of_next h hnext
      · exact ih hafter hitems

end Cursor

/-! ## What spans say -/

/-- Where the last of some tokens ends, or a place if there is none. -/
def lastStop : Nat → List Token → Nat
  | start, [] => start
  | _, token :: tokens => lastStop token.span.stop tokens

/-- Tokens tile a script: their spans cover it in order, but for gaps, and each span gives its token. -/
structure Tiles (source : String) (tokens : List Token) : Prop where
  /-- No token ends behind the beginning of a later one. -/
  ordered : tokens.Pairwise fun token later => token.span.stop ≤ later.span.start
  /-- The last token and no other is the end of the script, and it stands at the end of the text. -/
  ending : ∃ words span, tokens = words ++ [{ kind := .endOfScript, span }] ∧
    (∀ token ∈ words, token.kind ≠ .endOfScript) ∧
    span.start = source.utf8ByteSize ∧ span.stop = source.utf8ByteSize
  /-- Between a token, or the beginning of the text, and the next token stands a gap. -/
  gaps : ∀ front token others, tokens = front ++ token :: others →
    ∃ gap rest, Text.slice? (lastStop 0 front) token.span.start source.toList = some gap ∧
      Text.dropBytes? token.span.start source.toList = some rest ∧ IsGap rest gap
  /-- The text of every other token is a token of this kind alone. -/
  words : ∀ token ∈ tokens, token.kind ≠ .endOfScript →
    ∃ word alone, Text.slice? token.span.start token.span.stop source.toList = some word ∧ word ≠ [] ∧
      tokenize (String.ofList word) = .ok alone ∧ alone.map (·.kind) = [token.kind, .endOfScript]
  /-- Every token names the line and the column where it begins. -/
  places : ∀ token ∈ tokens, token.span.IsPlaced source

namespace Tiled

variable {before rest : List Char} {tokens : List Token}

/-- Every token stands behind a gap that follows what stands before it. -/
theorem split (h : Tiled before rest tokens) {front others : List Token} {token : Token}
    (htokens : tokens = front ++ token :: others) :
    ∃ passed gap word after, before ++ rest = passed ++ (gap ++ (word ++ after)) ∧
      Text.byteSize passed = lastStop (Text.byteSize before) front ∧ IsGap (word ++ after) gap ∧
      token.span = .ofWord (passed ++ gap) word ∧ (token.kind ≠ .endOfScript → IsWord word [] token.kind) := by
  induction h generalizing front with
  | @ending before gap hgap =>
    cases front with
    | nil =>
      obtain ⟨rfl, _⟩ := List.cons.inj htokens
      exact ⟨before, gap, [], [], by simp, rfl, hgap, rfl, fun hkind => absurd rfl hkind⟩
    | cons first front => simp at htokens
  | @word before gap word rest kind tokens hgap hword hkind hrest ih =>
    cases front with
    | nil =>
      obtain ⟨rfl, _⟩ := List.cons.inj htokens
      exact ⟨before, gap, word, rest, rfl, rfl, hgap, rfl, fun _ => hword⟩
    | cons first front =>
      obtain ⟨rfl, hothers⟩ := List.cons.inj htokens
      obtain ⟨passed, gap', word', after, htext, hpassed, hgap', hspan, hword'⟩ := ih hothers
      refine ⟨passed, gap', word', after, ?_, ?_, hgap', hspan, hword'⟩
      · rw [← htext]
        simp
      · rw [hpassed, lastStop, Span.ofWord, ← Text.byteSize_append]

/-- No token starts before those that are tiled. -/
theorem start_le (h : Tiled before rest tokens) : ∀ token ∈ tokens, Text.byteSize before ≤ token.span.start := by
  induction h with
  | ending _ => simp [Span.ofWord]
  | word _ _ _ _ ih =>
    refine List.forall_mem_cons.mpr ⟨by simp [Span.ofWord], fun token htoken => ?_⟩
    have hle := ih token htoken
    simp only [Text.byteSize_append] at hle
    omega

/-- Tokens do not overlap. -/
theorem pairwise (h : Tiled before rest tokens) :
    tokens.Pairwise fun token later => token.span.stop ≤ later.span.start := by
  induction h with
  | ending _ => exact List.pairwise_singleton _ _
  | word _ _ _ hrest ih =>
    refine List.pairwise_cons.mpr ⟨fun later hlater => ?_, ih⟩
    have hle := hrest.start_le later hlater
    rwa [Text.byteSize_append] at hle

/-- The last token is the only end. -/
theorem exists_ending (h : Tiled before rest tokens) :
    ∃ words span, tokens = words ++ [{ kind := .endOfScript, span }] ∧ (∀ token ∈ words, token.kind ≠ .endOfScript) ∧
      span.start = Text.byteSize (before ++ rest) ∧ span.stop = Text.byteSize (before ++ rest) := by
  induction h with
  | ending _ => exact ⟨[], _, rfl, List.forall_mem_nil _, rfl, rfl⟩
  | @word before gap word rest kind tokens _ _ hkind _ ih =>
    obtain ⟨words, span, rfl, hwords, hstart, hstop⟩ := ih
    rw [List.append_assoc, List.append_assoc] at hstart hstop
    exact ⟨_ :: words, span, rfl, List.forall_mem_cons.mpr ⟨hkind, hwords⟩, hstart, hstop⟩

/-- What covers a script tiles it. -/
theorem tiles {source : String} (h : Tiled [] source.toList tokens) : Tiles source tokens where
  ordered := h.pairwise
  ending := by
    have hending := h.exists_ending
    rwa [List.nil_append, Text.byteSize_toList] at hending
  gaps := by
    intro front token others htokens
    obtain ⟨passed, gap, word, after, htext, hpassed, hgap, hspan, _⟩ := h.split htokens
    rw [List.nil_append] at htext
    rw [Text.byteSize_nil] at hpassed
    refine ⟨gap, word ++ after, ?_, ?_, hgap⟩
    · rw [hspan, htext, ← hpassed, Span.ofWord, Text.byteSize_append, Text.slice?_append]
    · rw [hspan, htext, Span.ofWord, ← List.append_assoc, Text.dropBytes?_append]
  words := by
    intro token htoken hkind
    obtain ⟨front, others, htokens⟩ := List.append_of_mem htoken
    obtain ⟨passed, gap, word, after, htext, _, _, hspan, hword⟩ := h.split htokens
    have hscans : Scans (String.ofList word).toList [token.kind, .endOfScript] := by
      have hone := (Scans.done (List.forall_mem_nil _)).cons (hword hkind) hkind
      rwa [List.append_nil, ← @String.toList_ofList word] at hone
    obtain ⟨alone, halone, hkinds⟩ := tokenize_of_scans hscans
    refine ⟨word, alone, ?_, (hword hkind).ne_nil, halone, hkinds⟩
    rw [List.nil_append, ← List.append_assoc] at htext
    rw [hspan, htext, Span.ofWord, Text.slice?_append]
  places := by
    intro token htoken
    obtain ⟨front, others, htokens⟩ := List.append_of_mem htoken
    obtain ⟨passed, gap, word, after, htext, _, _, hspan, _⟩ := h.split htokens
    rw [List.nil_append, ← List.append_assoc] at htext
    refine ⟨passed ++ gap, ?_, ?_, ?_⟩ <;> rw [hspan, Span.ofWord]
    rw [htext, Text.takeBytes?_append]

end Tiled

/-- The tokens of every script that has some tile it. Every fault, whether it ends the reading of a script or stands among
its items, names the line and the column where it begins. -/
theorem tokens_tile_source (source : String) :
    (∀ tokens, tokenize source = .ok tokens → Tiles source tokens) ∧
      (∀ error, tokenize source = .error error → error.span.IsPlaced source) ∧
      ∀ limit error, .error error ∈ tokenItems limit source → error.span.IsPlaced source := by
  have hstart := Cursor.isAt_atStart source
  refine ⟨fun tokens htokens => ?_, fun error herror => Cursor.isPlaced_of_tokens hstart herror,
    fun limit error hitem => Cursor.isPlaced_of_items hstart hitem⟩
  have hbound : (Cursor.atStart source).rest.length < source.length + 1 := by
    rw [Cursor.atStart, String.length_toList]
    exact Nat.lt_succ_self _
  exact (Cursor.tiled_tokens hstart hbound htokens).tiles

/-- A name of two bytes, comments of both kinds with a line break in the first, and a literal with an escape. -/
def commentedScript : String := "é/* *\n*/=>\"\\\"😀\"// x"

/-- The tokens of this script. -/
def commentedTokens : List Token :=
  [{ kind := .name "é", span := { start := 0, stop := 2, line := 1, column := 1 } },
   { kind := .symbol .arrow, span := { start := 9, stop := 11, line := 2, column := 3 } },
   { kind := .text "\"😀", span := { start := 11, stop := 19, line := 2, column := 5 } },
   { kind := .endOfScript, span := { start := 23, stop := 23, line := 2, column := 14 } }]

/-- A script with comments is tiled, and a wrong escape behind a character of two bytes is placed. -/
theorem tokens_tile_source_sample :
    (tokenize commentedScript = .ok commentedTokens ∧ Tiles commentedScript commentedTokens) ∧
      ∃ error, error.fault = .invalidEscape 'q' ∧ tokenize "x\n\t\"é\\q" = .error error ∧
        .error error ∈ tokenItems 2 "x\n\t\"é\\q" ∧ error.span.IsPlaced "x\n\t\"é\\q" := by
  have htokens : tokenize commentedScript = .ok commentedTokens := rfl
  have herror : tokenize "x\n\t\"é\\q" =
      .error { fault := .invalidEscape 'q', span := { start := 6, stop := 7, line := 2, column := 4 } } := rfl
  have hitem : .error { fault := .invalidEscape 'q', span := { start := 6, stop := 7, line := 2, column := 4 } } ∈
      tokenItems 2 "x\n\t\"é\\q" := .tail _ (.head _)
  exact ⟨⟨htokens, (tokens_tile_source commentedScript).1 _ htokens⟩, _, rfl, herror, hitem,
    (tokens_tile_source "x\n\t\"é\\q").2.2 2 _ hitem⟩

end TriggerScript
