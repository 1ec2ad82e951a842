import TriggerScript.Proofs.Number
import TriggerScript.Expr.Printer
import TriggerScript.Token.Lexer

/-!
# Texts that scan into tokens

A text scans into tokens if it is cut into words with blanks between them, each of which is read as its token in front of
the rest. This is what tokenizing finds, wherever the text stands. Names, literals and symbols are such words as long as
nothing follows that would make them longer.
-/

namespace TriggerScript

/-! ## Character classes -/

namespace Text

/-- Whether no range of a set meets a range of another set. -/
def CodeRanges.isDisjoint (set set' : CodeRanges) : Bool :=
  set.ranges.all fun (first, last) => set'.ranges.all fun (first', last') => last < first' || last' < first

/-- A character of one of two disjoint sets is not in the other. -/
theorem CodeRanges.contains_of_isDisjoint {set set' : CodeRanges} (h : set.isDisjoint set') {c : Char}
    (hc : set.contains c) : set'.contains c = false := by
  obtain ⟨⟨first, last⟩, hrange, hin⟩ := List.any_eq_true.mp hc
  have hall := List.all_eq_true.mp (List.all_eq_true.mp h (first, last) hrange)
  refine List.any_eq_false.mpr fun (first', last') hrange' => ?_
  have hapart := hall (first', last') hrange'
  simp only [Bool.and_eq_true, Bool.or_eq_true, decide_eq_true_eq] at hin hapart ⊢
  omega

/-- No letter is a blank. -/
theorem isBlank_of_isLetter {c : Char} (h : isLetter c) : isBlank c = false := by
  unfold isLetter at h
  split at h
  · rename_i hascii
    exact forall_ascii (P := fun c => c.isAlpha → isBlank c = false) (by decide) hascii h
  · have hdisjoint : letterRanges.isDisjoint blankRanges := by decide +kernel
    exact CodeRanges.contains_of_isDisjoint hdisjoint h

end Text

/-- What begins a name is not blank. -/
theorem isBlank_of_beginsName {c : Char} (h : beginsName c) : Text.isBlank c = false := by
  rcases Bool.or_eq_true_iff.mp h with hletter | hunderscore
  · exact Text.isBlank_of_isLetter hletter
  · rw [of_decide_eq_true hunderscore]
    decide

/-- What begins a name continues one. -/
theorem continuesName_of_beginsName {c : Char} (h : beginsName c) : continuesName c := by
  unfold beginsName at h
  unfold continuesName
  rcases Bool.or_eq_true_iff.mp h with h | h <;> simp [h]

/-! ## Scanning -/

/-- A word that is read as one token in front of the rest of a text. -/
structure IsWord (word rest : List Char) (kind : TokenKind) : Prop where
  /-- There is a word. -/
  ne_nil : word ≠ []
  /-- It begins with neither a blank nor a comment. -/
  gap_eq : ∀ passed, gapFrom .outside passed (word ++ rest) = .closed passed
  /-- It is read to its end. -/
  lexeme_eq : lexeme (word ++ rest) = { length := word.length, result := .ok kind }

/-- The tokens of a text, the end of the script included. -/
inductive Scans : List Char → List TokenKind → Prop
  /-- Nothing but blanks is left. -/
  | done {blanks : List Char} (hblanks : ∀ c ∈ blanks, Text.isBlank c) : Scans blanks [.endOfScript]
  /-- A word behind blanks, and what follows it. -/
  | word {blanks word rest : List Char} {kind : TokenKind} {kinds : List TokenKind}
    (hblanks : ∀ c ∈ blanks, Text.isBlank c) (hword : IsWord word rest kind) (hkind : kind ≠ .endOfScript)
    (hrest : Scans rest kinds) : Scans (blanks ++ (word ++ rest)) (kind :: kinds)

/-- Blanks in front of a text are passed over. -/
theorem gapFrom_blanks {blanks rest : List Char} (hblanks : ∀ c ∈ blanks, Text.isBlank c)
    (hrest : ∀ passed, gapFrom .outside passed rest = .closed passed) (passed : Nat) :
    gapFrom .outside passed (blanks ++ rest) = .closed (passed + blanks.length) := by
  induction blanks generalizing passed with
  | nil => exact hrest passed
  | cons c blanks ih =>
    have hc := hblanks c List.mem_cons_self
    have hslash : c ≠ '/' := by
      rintro rfl
      exact absurd hc (by decide)
    have hstep : gapFrom .outside passed (c :: (blanks ++ rest)) = gapFrom .outside (passed + 1) (blanks ++ rest) := by
      rw [gapFrom.eq_def]
      split <;> simp_all
    rw [List.cons_append, hstep, ih fun c hc => hblanks c (List.mem_cons_of_mem _ hc), List.length_cons]
    congr 1
    omega

/-- A space in front makes no difference to the tokens. -/
theorem Scans.space {text : List Char} {kinds : List TokenKind} (h : Scans text kinds) : Scans (' ' :: text) kinds := by
  have hspace : Text.isBlank ' ' := by decide
  cases h with
  | done hblanks => exact .done (List.forall_mem_cons.mpr ⟨hspace, hblanks⟩)
  | word hblanks hword hkind hrest =>
    exact .word (List.forall_mem_cons.mpr ⟨hspace, hblanks⟩) hword hkind hrest

/-- A word in front of a text that scans. -/
theorem Scans.cons {word rest : List Char} {kind : TokenKind} {kinds : List TokenKind} (hrest : Scans rest kinds)
    (hword : IsWord word rest kind) (hkind : kind ≠ .endOfScript) : Scans (word ++ rest) (kind :: kinds) :=
  .word (List.forall_mem_nil _) hword hkind hrest

/-- There are at most as many tokens as characters, and the end of the script. -/
theorem Scans.length_le {text : List Char} {kinds : List TokenKind} (h : Scans text kinds) :
    kinds.length ≤ text.length + 1 := by
  induction h with
  | done _ => simp
  | word _ hword _ _ ih =>
    have := List.length_pos_iff.mpr hword.ne_nil
    simp only [List.length_cons, List.length_append]
    omega

namespace Cursor

theorem rest_skip (n : Nat) (cursor : Cursor) : (cursor.skip n).rest = cursor.rest.drop n := by
  induction n generalizing cursor with
  | zero => rfl
  | succ n ih =>
    rw [skip, ih]
    unfold advance
    split
    · rename_i hrest
      rw [hrest]
      simp
    · rename_i hrest
      rw [hrest]
      rfl

/-- One step reads the token behind the blanks. -/
theorem next_of_lexeme {cursor : Cursor} {blanks text : List Char} {length : Nat} {kind : TokenKind}
    (hcursor : cursor.rest = blanks ++ text) (hblanks : ∀ c ∈ blanks, Text.isBlank c)
    (hgap : ∀ passed, gapFrom .outside passed text = .closed passed)
    (hlexeme : lexeme text = { length, result := .ok kind }) :
    ∃ span after, cursor.next = (.ok { kind, span }, after) ∧ after.rest = text.drop length := by
  have hgap' : gap cursor.rest = .closed blanks.length := by
    rw [gap, hcursor, gapFrom_blanks hblanks hgap, Nat.zero_add]
  let first := cursor.skip blanks.length
  have hfirst : first.rest = text := by
    rw [rest_skip, hcursor, List.drop_left]
  refine ⟨first.spanTo (first.skip length), first.skip length, ?_, by rw [rest_skip, hfirst]⟩
  simp only [next, hgap']
  rw [hfirst, hlexeme]

/-- Tokenizing finds what a text scans into. -/
theorem tokens_of_scans {text : List Char} {kinds : List TokenKind} (h : Scans text kinds) {cursor : Cursor}
    (hcursor : cursor.rest = text) {n : Nat} (hn : kinds.length ≤ n) :
    ∃ tokens, cursor.tokens n = .ok tokens ∧ tokens.map (·.kind) = kinds := by
  induction h generalizing cursor n with
  | @done blanks hblanks =>
    obtain ⟨n, rfl⟩ : ∃ m, n = m + 1 := ⟨n - 1, by simp at hn; omega⟩
    rw [← List.append_nil blanks] at hcursor
    obtain ⟨span, after, hnext, _⟩ := next_of_lexeme hcursor hblanks (fun _ => rfl) rfl
    exact ⟨[{ kind := .endOfScript, span }], by simp [tokens, hnext], rfl⟩
  | @word blanks word rest kind kinds hblanks hword hkind hrest ih =>
    obtain ⟨n, rfl⟩ : ∃ m, n = m + 1 := ⟨n - 1, by simp at hn; omega⟩
    obtain ⟨span, after, hnext, hafter⟩ := next_of_lexeme hcursor hblanks hword.gap_eq hword.lexeme_eq
    rw [List.drop_left] at hafter
    obtain ⟨tokens, htokens, hkinds⟩ := ih hafter (Nat.le_of_succ_le_succ hn)
    refine ⟨{ kind, span } :: tokens, ?_, by rw [List.map_cons, hkinds]⟩
    simp only [Cursor.tokens, hnext, if_neg hkind, htokens]
    rfl

end Cursor

/-- Tokenizing a text finds what it scans into. -/
theorem tokenize_of_scans {source : String} {kinds : List TokenKind} (h : Scans source.toList kinds) :
    ∃ tokens, tokenize source = .ok tokens ∧ tokens.map (·.kind) = kinds := by
  refine Cursor.tokens_of_scans h rfl ?_
  rw [← String.length_toList]
  exact h.length_le

/-! ## Words -/

/-- What may follow a name or a number. -/
def EndsWord (rest : List Char) : Prop :=
  ∀ c ∈ rest.head?, continuesName c = false

/-- A character that is neither a blank nor a slash ends a gap. -/
theorem gapFrom_of_ne {c : Char} (hblank : Text.isBlank c = false) (hslash : c ≠ '/') (rest : List Char) (passed : Nat) :
    gapFrom .outside passed (c :: rest) = .closed passed := by
  rw [gapFrom.eq_def]
  split <;> simp_all

/-- Letters are one word, a name or a keyword. -/
theorem isWord_letters {c : Char} {cs rest : List Char} (hc : beginsName c) (hcs : ∀ c ∈ cs, continuesName c)
    (hrest : EndsWord rest) : IsWord (c :: cs) rest (.ofWord (String.ofList (c :: cs))) := by
  have hquote : c ≠ '"' := by
    rintro rfl
    exact absurd hc (by decide)
  have hslash : c ≠ '/' := by
    rintro rfl
    exact absurd hc (by decide)
  have hall : ∀ x ∈ c :: cs, continuesName x :=
    List.forall_mem_cons.mpr ⟨continuesName_of_beginsName hc, hcs⟩
  refine ⟨by simp, fun passed => gapFrom_of_ne (isBlank_of_beginsName hc) hslash _ passed, ?_⟩
  have hlexeme : lexeme (c :: (cs ++ rest)) = nameLexeme (c :: (cs ++ rest)) := by
    unfold lexeme
    simp only [if_neg hquote, if_pos hc]
  rw [List.cons_append, hlexeme, nameLexeme, ← List.cons_append, Text.takeWhile_append_of_head hall hrest]

/-- Whether a text is a name of a script: letters, numerals and underscores that begin with no numeral, and no keyword. -/
def isName (name : String) : Bool :=
  name.toList.head?.any beginsName && name.toList.all continuesName && (Keyword.ofSpelling? name).isNone

/-- A name is a word where one ends behind it. -/
theorem isWord_name {name : String} (hname : isName name) {rest : List Char} (hrest : EndsWord rest) :
    IsWord name.toList rest (.name name) := by
  simp only [isName, Bool.and_eq_true, Option.any_eq_true, List.all_eq_true, Option.isNone_iff_eq_none] at hname
  obtain ⟨⟨⟨c, hhead, hc⟩, hall⟩, hkeyword⟩ := hname
  obtain ⟨cs, hcs⟩ := List.head?_eq_some_iff.mp hhead
  rw [hcs] at hall
  have hword := isWord_letters hc (fun x hx => hall x (List.mem_cons_of_mem _ hx)) hrest
  rw [← hcs, String.ofList_toList, TokenKind.ofWord, hkeyword] at hword
  exact hword

/-- A keyword is a word where one ends behind it. -/
theorem isWord_keyword (keyword : Keyword) {rest : List Char} (hrest : EndsWord rest) :
    IsWord keyword.spelling.toList rest (.keyword keyword) := by
  cases keyword <;> exact isWord_letters (by decide) (List.all_eq_true.mp rfl) hrest

/-- A digit continues a name. -/
theorem continuesName_of_isDigit {base : Nat} (hbase : base ≤ 16) {c : Char} (h : Text.isDigit base c) : continuesName c :=
  Text.forall_isDigit (P := fun c => continuesName c) (by decide) (Text.isDigit_mono hbase h)

/-- A literal is read to the end of its digits, in front of anything that ends a word. -/
theorem integerLexeme_of_spells {base n : Nat} (hbase : base ≤ 16) {digits rest : List Char}
    (hdigits : Text.Spells base digits n) (hn : n ≤ Text.maxInt64) (hrest : EndsWord rest) (mark : List Char) :
    integerLexeme base mark (digits ++ rest) =
      { length := (mark ++ digits).length, result := .ok (.integer (Int64.ofNat n)) } := by
  have hend : ∀ c ∈ rest.head?, Text.isDigit base c = false := by
    intro c hc
    rw [← Bool.not_eq_true]
    intro hdigit
    have := continuesName_of_isDigit hbase hdigit
    rw [hrest c hc] at this
    cases this
  have hread : Text.readInt64? base digits = some (Int64.ofNat n) := by
    rw [Text.readInt64?, hdigits.readNat? hn, Option.map_some]
  rw [integerLexeme, hdigits.takeWhile_append hend]
  simp only [List.drop_left]
  cases rest with
  | nil => simp only [integerLexeme.finish, hread]
  | cons x rest => simp only [hrest x rfl, Bool.false_eq_true, if_false, integerLexeme.finish, hread]

/-- A decimal digit begins a literal in decimal digits, unless it is a zero with an `x` behind it. -/
theorem lexeme_digit {c : Char} (hc : Text.isDigit 10 c) {cs : List Char}
    (hcs : c = '0' → ∀ x ∈ cs.head?, x ≠ 'x' ∧ x ≠ 'X') : lexeme (c :: cs) = integerLexeme 10 [] (c :: cs) := by
  have hclass := Text.forall_isDigit (P := fun c => c ≠ '"' ∧ beginsName c = false) (by decide) hc
  obtain ⟨hquote, hname⟩ := hclass
  unfold lexeme
  simp only [if_neg hquote, hname, Bool.false_eq_true, if_false, hc, if_true]
  split <;> simp_all

/-- Decimal digits are one word, the number that they spell. -/
theorem isWord_digits {digits rest : List Char} {n : Nat} (hdigits : Text.Spells 10 digits n) (hn : n ≤ Text.maxInt64)
    (hrest : EndsWord rest) : IsWord digits rest (.integer (Int64.ofNat n)) := by
  obtain ⟨c, cs, rfl⟩ := List.exists_cons_of_ne_nil hdigits.1
  have hc := hdigits.all_digits c List.mem_cons_self
  have hclass := Text.forall_isDigit (P := fun c => c ≠ '/' ∧ Text.isBlank c = false) (by decide) hc
  obtain ⟨hslash, hblank⟩ := hclass
  have hhex : ∀ x ∈ (cs ++ rest).head?, x ≠ 'x' ∧ x ≠ 'X' := by
    intro x hx
    cases cs with
    | nil =>
      have := hrest x hx
      constructor <;> rintro rfl <;> exact absurd this (by decide)
    | cons x' cs =>
      rw [← Option.mem_some.mp hx]
      exact Text.forall_isDigit (P := fun x => x ≠ 'x' ∧ x ≠ 'X') (by decide) (hdigits.all_digits x' (by simp))
  refine ⟨by simp, gapFrom_of_ne hblank hslash _, ?_⟩
  rw [List.cons_append, lexeme_digit hc fun _ => hhex, ← List.cons_append,
    integerLexeme_of_spells (by decide) hdigits hn hrest, List.nil_append]

/-- Hexadecimal digits behind their mark are one word. -/
theorem isWord_hexDigits {digits rest : List Char} {n : Nat} (hdigits : Text.Spells 16 digits n) (hn : n ≤ Text.maxInt64)
    (hrest : EndsWord rest) : IsWord ('0' :: 'x' :: digits) rest (.integer (Int64.ofNat n)) := by
  have hlexeme : lexeme ('0' :: 'x' :: (digits ++ rest)) = integerLexeme 16 ['0', 'x'] (digits ++ rest) := rfl
  refine ⟨by simp, gapFrom_of_ne (by decide) (by decide) _, ?_⟩
  rw [List.cons_append, List.cons_append, hlexeme, integerLexeme_of_spells (by decide) hdigits hn hrest]
  rfl

/-- The rest of a string literal is read to its quotation mark, with every escape resolved. -/
theorem textFrom_literal (value rest : List Char) (passed : Nat) (before : List Char) :
    textFrom passed before (value.flatMap literalChar ++ '"' :: rest) =
      { length := passed + (value.flatMap literalChar).length + 1
        result := .ok (.text (String.ofList (before.reverse ++ value))) } := by
  induction value generalizing passed before with
  | nil => simp [textFrom]
  | cons c value ih =>
    have hescaped : ∀ mark, literalChar c = ['\\', mark] → escaped? mark = some c →
        textFrom passed before (literalChar c ++ (value.flatMap literalChar ++ '"' :: rest)) =
          textFrom (passed + 2) (c :: before) (value.flatMap literalChar ++ '"' :: rest) := by
      intro mark hliteral hmark
      rw [hliteral]
      simp only [List.cons_append, List.nil_append, textFrom, hmark]
    have hstep : textFrom passed before (literalChar c ++ (value.flatMap literalChar ++ '"' :: rest)) =
        textFrom (passed + (literalChar c).length) (c :: before) (value.flatMap literalChar ++ '"' :: rest) := by
      by_cases hquote : c = '"'
      · subst hquote
        exact hescaped '"' rfl rfl
      by_cases hslash : c = '\\'
      · subst hslash
        exact hescaped '\\' rfl rfl
      by_cases hline : c = '\n'
      · subst hline
        exact hescaped 'n' rfl rfl
      by_cases htab : c = '\t'
      · subst htab
        exact hescaped 't' rfl rfl
      have hliteral : literalChar c = [c] := by
        unfold literalChar
        split <;> simp_all
      rw [hliteral, List.singleton_append, textFrom.eq_def]
      split <;> simp_all
    rw [List.flatMap_cons, List.append_assoc, hstep, ih]
    simp [Nat.add_assoc]

/-- A string literal is one word, the text that it stands for. -/
theorem isWord_text (value : String) (rest : List Char) : IsWord (textLiteral value).toList rest (.text value) := by
  have hliteral : (textLiteral value).toList = '"' :: (value.toList.flatMap literalChar ++ ['"']) := by
    simp [textLiteral]
  rw [hliteral]
  refine ⟨by simp, gapFrom_of_ne (by decide) (by decide) _, ?_⟩
  have htext := textFrom_literal value.toList rest 1 []
  rw [List.reverse_nil, List.nil_append, String.ofList_toList] at htext
  have hlexeme : ∀ text, lexeme ('"' :: text) = textFrom 1 [] text := fun _ => rfl
  rw [List.cons_append, List.append_assoc, List.singleton_append, hlexeme, htext]
  simp [Nat.add_comm]

/-- A symbol that no longer one begins with is a word in front of anything. -/
def Symbol.isAlone : Symbol → Bool
  | .leftParen | .rightParen | .leftBracket | .rightBracket | .leftBrace | .rightBrace | .comma | .colon | .minus => true
  | _ => false

/-- A symbol that is part of no other is a word in front of anything. -/
theorem isWord_symbol_alone {sign : Symbol} (h : sign.isAlone) (rest : List Char) :
    IsWord sign.spelling.toList rest (.symbol sign) := by
  cases sign <;> simp only [Symbol.isAlone, Bool.false_eq_true] at h <;> exact ⟨by decide, fun _ => rfl, rfl⟩

/-- Every symbol is a word in front of a space. -/
theorem isWord_symbol_space (sign : Symbol) (rest : List Char) :
    IsWord sign.spelling.toList (' ' :: rest) (.symbol sign) := by
  cases sign <;> exact ⟨by decide, fun _ => rfl, rfl⟩

/-- A negation is a word in front of anything that does not make it a comparison. -/
theorem isWord_bang {rest : List Char} (hrest : ∀ c ∈ rest.head?, c ≠ '=') : IsWord ['!'] rest (.symbol .bang) := by
  refine ⟨by decide, fun _ => rfl, ?_⟩
  have hsymbol : symbol? ('!' :: rest) = some .bang := by
    unfold symbol?
    split <;> simp_all
  rw [List.singleton_append]
  unfold lexeme
  dsimp only
  rw [if_neg (by decide), if_neg (by decide), if_neg (by decide), hsymbol]
  rfl

end TriggerScript
