import TriggerScript.Proofs.Token.Gaps

/-!
# What a lexeme can be

Reading at the front of a text gives the end of the script, a word, a fault behind at least one character, or the character
that begins no word, and nothing is read in the last case only (`Lexed`). A word is found by its own characters alone: in
front of another rest, or of none, they are the same token.
-/

namespace TriggerScript

/-- Whether a fault is a character that begins no token. -/
def LexFault.isUnexpected : LexFault → Bool
  | .unexpectedCharacter _ => true
  | _ => false

/-- What a reader finds in a text behind a number of characters already read: a word that it finds without the rest too, or
another fault than a character that begins no token. -/
inductive Found (read : List Char → Lexeme) (passed : Nat) : List Char → Lexeme → Prop
  | word {word rest : List Char} {kind : TokenKind} (hkind : kind ≠ .endOfScript)
    (halone : read word = { length := passed + word.length, result := .ok kind }) :
    Found read passed (word ++ rest) { length := passed + word.length, result := .ok kind }
  | fault {text rest : List Char} {fault : LexFault} {first last : Nat} (hfault : fault.isUnexpected = false) :
    Found read passed (text ++ rest) { length := passed + text.length, result := .error (fault, first, last) }

/-- What can stand at the front of a text. -/
inductive Lexed : List Char → Lexeme → Prop
  /-- The end of the script. -/
  | ending : Lexed [] { length := 0, result := .ok .endOfScript }
  /-- A word, which is the same alone. -/
  | word {word rest : List Char} {kind : TokenKind} (hne : word ≠ []) (hkind : kind ≠ .endOfScript)
    (halone : lexeme word = { length := word.length, result := .ok kind }) :
    Lexed (word ++ rest) { length := word.length, result := .ok kind }
  /-- A fault behind characters that were read. -/
  | fault {text rest : List Char} {fault : LexFault} {first last : Nat} (hne : text ≠ [])
    (hfault : fault.isUnexpected = false) :
    Lexed (text ++ rest) { length := text.length, result := .error (fault, first, last) }
  /-- A character that begins no token, which is not read. -/
  | unexpected {c : Char} {rest : List Char} :
    Lexed (c :: rest) { length := 0, result := .error (.unexpectedCharacter c, 0, 0) }

/-- What is found behind the first characters of a text, if these leave the rest to the reader. -/
theorem Found.lexed {cs : List Char} {read : List Char → Lexeme} {found : Lexeme} (front : List Char) (hfront : front ≠ [])
    (h : Found read front.length cs found) (hread : ∀ text, text <+: cs → lexeme (front ++ text) = read text) :
    Lexed (front ++ cs) found := by
  have hne : ∀ text, front ++ text ≠ [] := fun text hnil => hfront (List.append_eq_nil_iff.mp hnil).1
  cases h with
  | @word word rest kind hkind halone =>
    rw [← List.append_assoc, ← List.length_append]
    refine .word (hne word) hkind ?_
    rw [hread word (List.prefix_append _ _), halone, List.length_append]
  | @fault text rest fault first last hfault =>
    rw [← List.append_assoc, ← List.length_append]
    exact .fault (hne text) hfault

/-! ## Literals and names -/

/-- A step of a reader over characters at which it does not stop. -/
theorem Found.step {read next : List Char → Lexeme} {passed : Nat} (text : List Char) {cs : List Char} {found : Lexeme}
    (h : Found next (passed + text.length) cs found) (hnext : ∀ word, read (text ++ word) = next word) :
    Found read passed (text ++ cs) found := by
  cases h with
  | @word word rest kind hkind halone =>
    rw [Nat.add_assoc, ← List.length_append] at halone ⊢
    rw [← List.append_assoc]
    exact .word hkind (by rw [hnext, halone])
  | @fault text' rest fault first last hfault =>
    rw [Nat.add_assoc, ← List.length_append, ← List.append_assoc]
    exact .fault hfault

/-- A fault that is found in a text is found in front of anything. -/
theorem found_of_fault {read : List Char → Lexeme} {passed : Nat} (text rest : List Char) {found : Lexeme} {fault : LexFault}
    {first last : Nat} (hfault : fault.isUnexpected = false)
    (hfound : found = { length := passed + text.length, result := .error (fault, first, last) }) :
    Found read passed (text ++ rest) found := by
  rw [hfound]
  exact .fault hfault

/-- A character of a string literal that stands for itself. -/
theorem textFrom_plain {c : Char} (hquote : c ≠ '"') (hline : c ≠ '\n') (hescape : c ≠ '\\') (passed : Nat)
    (value rest : List Char) : textFrom passed value (c :: rest) = textFrom (passed + 1) (c :: value) rest := by
  rw [textFrom.eq_def]
  split <;> simp_all

/-- An escape stands for the character it means. -/
theorem textFrom_escape {c meant : Char} (h : escaped? c = some meant) (passed : Nat) (value rest : List Char) :
    textFrom passed value ('\\' :: c :: rest) = textFrom (passed + 2) (meant :: value) rest := by
  simp only [textFrom, h]

/-- A string literal is read up to its quotation mark. -/
theorem found_textFrom (passed : Nat) (value cs : List Char) :
    Found (textFrom passed value) passed cs (textFrom passed value cs) := by
  induction passed, value, cs using textFrom.induct with
  | case1 passed value rest => exact @Found.word _ _ ['"'] rest _ (by simp) rfl
  | case2 passed value rest => exact found_of_fault ['\n'] rest rfl rfl
  | case3 passed value c rest meant hescaped ih =>
    rw [textFrom_escape hescaped]
    exact ih.step ['\\', c] (textFrom_escape hescaped passed value)
  | case4 passed value c rest hescaped =>
    have hfound : textFrom passed value ('\\' :: c :: rest) =
        { length := passed + 2, result := .error (.invalidEscape c, passed, passed + 1) } := by
      simp only [textFrom, hescaped]
    exact found_of_fault ['\\', c] rest rfl hfound
  | case5 passed value => exact found_of_fault ['\\'] [] rfl rfl
  | case6 passed value c rest hquote hline hescape hlast ih =>
    have hslash : c ≠ '\\' := by
      rintro rfl
      cases rest with
      | nil => exact hlast rfl rfl
      | cons c' rest => exact hescape c' rest rfl rfl
    rw [textFrom_plain hquote hline hslash]
    exact ih.step [c] (textFrom_plain hquote hline hslash passed value)
  | case7 passed value => exact found_of_fault [] [] rfl rfl

/-- A name is read up to the first character that does not continue it. -/
theorem found_nameLexeme {c : Char} (hc : beginsName c) (cs : List Char) :
    Found (fun cs => nameLexeme (c :: cs)) 1 cs (nameLexeme (c :: cs)) := by
  obtain ⟨word, rest, rfl, hword, hrest⟩ := Text.exists_front continuesName cs
  have hletters : ∀ rest, EndsWord rest → nameLexeme (c :: (word ++ rest)) =
      { length := 1 + word.length, result := .ok (.ofWord (String.ofList (c :: word))) } := by
    intro rest hrest
    rw [nameLexeme, List.takeWhile_cons_of_pos (continuesName_of_beginsName hc), Text.takeWhile_append_of_head hword hrest,
      List.length_cons, Nat.add_comm]
  have hkind : TokenKind.ofWord (String.ofList (c :: word)) ≠ .endOfScript := by
    unfold TokenKind.ofWord
    split <;> simp
  have halone := hletters [] (by simp [EndsWord])
  rw [List.append_nil] at halone
  rw [hletters rest hrest]
  exact .word hkind halone

/-- An integer literal is read up to the first character that is no digit. One that continues a name is read too, and makes
the literal invalid. -/
theorem found_integerLexeme {base : Nat} (mark : List Char) {front : List Char} (hfront : ∀ c ∈ front, Text.isDigit base c)
    (cs : List Char) :
    Found (fun cs => integerLexeme base mark (front ++ cs)) (mark.length + front.length) cs
      (integerLexeme base mark (front ++ cs)) := by
  obtain ⟨digits, rest, rfl, hdigits, hrest⟩ := Text.exists_front (Text.isDigit base) cs
  have hall : ∀ c ∈ front ++ digits, Text.isDigit base c := by
    intro c hc
    rcases List.mem_append.mp hc with hc | hc
    · exact hfront c hc
    · exact hdigits c hc
  have htake : ∀ rest : List Char, (∀ c ∈ rest.head?, Text.isDigit base c = false) →
      (front ++ (digits ++ rest)).takeWhile (Text.isDigit base) = front ++ digits := by
    intro rest hrest
    rw [← List.append_assoc, Text.takeWhile_append_of_head hall hrest]
  have hfail : ∀ text rest : List Char, Found (fun cs => integerLexeme base mark (front ++ cs)) (mark.length + front.length)
      (text ++ rest)
      { length := (mark ++ (front ++ text)).length
        result := .error
          (.invalidInteger (String.ofList (mark ++ (front ++ text))), 0, (mark ++ (front ++ text)).length) } := by
    intro text rest
    have hlength : (mark ++ (front ++ text)).length = mark.length + front.length + text.length := by
      simp [Nat.add_assoc]
    rw [hlength]
    exact .fault rfl
  have hfinish : Found (fun cs => integerLexeme base mark (front ++ cs)) (mark.length + front.length) (digits ++ rest)
      (integerLexeme.finish base (mark ++ (front ++ digits)) (front ++ digits) fun literal =>
        { length := literal.length, result := .error (.invalidInteger (String.ofList literal), 0, literal.length) }) := by
    unfold integerLexeme.finish
    cases hread : Text.readInt64? base (front ++ digits) with
    | none => exact hfail digits rest
    | some value =>
      have halone := htake [] (by simp)
      rw [List.append_nil] at halone
      have hword : integerLexeme base mark (front ++ digits) =
          { length := mark.length + front.length + digits.length, result := .ok (.integer value) } := by
        rw [integerLexeme, halone]
        simp [integerLexeme.finish, hread, Nat.add_assoc]
      rw [List.length_append, List.length_append, ← Nat.add_assoc]
      exact .word (by simp) hword
  rw [integerLexeme, htake rest hrest, ← List.append_assoc front digits rest]
  simp only [List.drop_left]
  cases rest with
  | nil => exact hfinish
  | cons c rest =>
    by_cases hc : continuesName c
    · simp only [if_pos hc]
      have hletter := hfail (digits ++ [c]) rest
      simpa using hletter
    · simp only [if_neg hc]
      exact hfinish

/-! ## All lexemes -/

/-- A symbol is what its spelling says. -/
theorem symbol?_eq_some {cs : List Char} {sign : Symbol} (h : symbol? cs = some sign) :
    ∃ rest, cs = sign.spelling.toList ++ rest := by
  unfold symbol? at h
  split at h <;> cases h <;> exact ⟨_, rfl⟩

/-- The spelling of a symbol is lexed as this symbol. -/
theorem lexeme_symbol (sign : Symbol) :
    lexeme sign.spelling.toList = { length := sign.spelling.toList.length, result := .ok (.symbol sign) } := by
  cases sign <;> rfl

/-- A digit begins an integer literal. -/
theorem lexed_digit {c : Char} (hc : Text.isDigit 10 c) (rest : List Char) : Lexed (c :: rest) (lexeme (c :: rest)) := by
  have hhex : ∀ x : Char, x = 'x' ∨ x = 'X' → ∀ cs, Lexed ('0' :: x :: cs) (lexeme ('0' :: x :: cs)) := by
    intro x hx cs
    have hlexeme : ∀ text, lexeme ('0' :: x :: text) = integerLexeme 16 ['0', x] text := by
      rcases hx with rfl | rfl <;> exact fun _ => rfl
    rw [hlexeme]
    exact Found.lexed ['0', x] (by simp) (found_integerLexeme ['0', x] (List.forall_mem_nil _) cs) fun text _ => hlexeme text
  by_cases hmark : c = '0' ∧ ∃ x ∈ rest.head?, x = 'x' ∨ x = 'X'
  · obtain ⟨rfl, x, hx, hmark⟩ := hmark
    obtain ⟨cs, rfl⟩ := List.head?_eq_some_iff.mp hx
    exact hhex x hmark cs
  · have hlexeme : ∀ text, text <+: rest → lexeme (c :: text) = integerLexeme 10 [] (c :: text) := by
      rintro text ⟨others, rfl⟩
      refine lexeme_digit hc fun hzero x hx => ?_
      have hhead : x ∈ (text ++ others).head? := by
        rw [List.head?_append, Option.mem_def.mp hx]
        rfl
      exact ⟨fun heq => hmark ⟨hzero, x, hhead, .inl heq⟩, fun heq => hmark ⟨hzero, x, hhead, .inr heq⟩⟩
    rw [hlexeme rest (List.prefix_refl rest)]
    exact Found.lexed [c] (by simp) (found_integerLexeme [] (List.forall_mem_singleton.mpr hc) rest) hlexeme

/-- Reading at the front of a text gives nothing else. -/
theorem lexed_lexeme (cs : List Char) : Lexed cs (lexeme cs) := by
  cases cs with
  | nil => exact .ending
  | cons c rest =>
    by_cases hquote : c = '"'
    · subst hquote
      exact Found.lexed ['"'] (by simp) (found_textFrom 1 [] rest) fun _ _ => rfl
    by_cases hname : beginsName c
    · have hlexeme : ∀ text, lexeme (c :: text) = nameLexeme (c :: text) := by
        intro text
        unfold lexeme
        simp only [if_neg hquote, if_pos hname]
      rw [hlexeme]
      exact Found.lexed [c] (by simp) (found_nameLexeme hname rest) fun text _ => hlexeme text
    by_cases hdigit : Text.isDigit 10 c
    · exact lexed_digit hdigit rest
    cases hsymbol : symbol? (c :: rest) with
    | none =>
      have hlexeme : lexeme (c :: rest) = { length := 0, result := .error (.unexpectedCharacter c, 0, 0) } := by
        unfold lexeme
        simp only [if_neg hquote, if_neg hname, if_neg hdigit, hsymbol]
      rw [hlexeme]
      exact .unexpected
    | some sign =>
      have hlexeme : lexeme (c :: rest) = { length := sign.spelling.toList.length, result := .ok (.symbol sign) } := by
        unfold lexeme
        simp only [if_neg hquote, if_neg hname, if_neg hdigit, hsymbol, String.length_toList]
      obtain ⟨others, hothers⟩ := symbol?_eq_some hsymbol
      rw [hlexeme, hothers]
      refine .word ?_ (by simp) (lexeme_symbol sign)
      cases sign <;> simp [Symbol.spelling]

/-! ## Steps of a cursor -/

/-- What a step from a cursor can be: a token or a fault, and the cursor behind it. -/
inductive Cursor.Step (cursor : Cursor) : Except LexError Token → Cursor → Prop
  /-- The rest of the script is a comment that does not end. -/
  | comment {start : Nat} (hrest : cursor.rest ≠ []) :
    Step cursor
      (.error { fault := .unterminatedComment, span := (cursor.skip start).spanTo (cursor.skip cursor.rest.length) })
      (cursor.skip cursor.rest.length)
  /-- The rest of the script is a gap. -/
  | ending {first : Cursor} (hfirst : first = cursor.skip cursor.rest.length) (hgap : IsGap [] cursor.rest) :
    Step cursor (.ok { kind := .endOfScript, span := first.spanTo first }) first
  /-- A word behind a gap. -/
  | word {gap word rest : List Char} {kind : TokenKind} {first : Cursor} (hrest : cursor.rest = gap ++ (word ++ rest))
    (hfirst : first = cursor.skip gap.length) (hgap : IsGap (word ++ rest) gap) (hword : IsWord word [] kind)
    (hkind : kind ≠ .endOfScript) :
    Step cursor (.ok { kind, span := first.spanTo (first.skip word.length) }) (first.skip word.length)
  /-- A fault in characters behind a gap. -/
  | fault {gap text rest : List Char} {fault : LexFault} {a b : Nat} {first : Cursor}
    (hrest : cursor.rest = gap ++ (text ++ rest)) (hfirst : first = cursor.skip gap.length) (hne : text ≠ [])
    (hfault : fault.isUnexpected = false) :
    Step cursor (.error { fault, span := (first.skip a).spanTo (first.skip b) }) (first.skip text.length)
  /-- A character behind a gap that begins no token. It is not passed, so the next step ends there too. -/
  | unexpected {gap rest : List Char} {c : Char} {first : Cursor} (hrest : cursor.rest = gap ++ c :: rest)
    (hfirst : first = cursor.skip gap.length)
    (hagain : first.next = (.error { fault := .unexpectedCharacter c, span := first.spanTo first }, first)) :
    Step cursor (.error { fault := .unexpectedCharacter c, span := first.spanTo first }) first

namespace Cursor

/-- A step finds the token behind the gap. -/
theorem next_of_ok {cursor : Cursor} {passed length : Nat} {kind : TokenKind} (hgap : gap cursor.rest = .closed passed)
    (hfound : lexeme (cursor.skip passed).rest = { length, result := .ok kind }) :
    cursor.next = (.ok { kind, span := (cursor.skip passed).spanTo ((cursor.skip passed).skip length) },
      (cursor.skip passed).skip length) := by
  simp only [next, hgap]
  rw [hfound]

/-- A step finds the fault behind the gap. -/
theorem next_of_error {cursor : Cursor} {passed length : Nat} {fault : LexFault} {a b : Nat}
    (hgap : gap cursor.rest = .closed passed)
    (hfound : lexeme (cursor.skip passed).rest = { length, result := .error (fault, a, b) }) :
    cursor.next = (.error { fault, span := ((cursor.skip passed).skip a).spanTo ((cursor.skip passed).skip b) },
      (cursor.skip passed).skip length) := by
  simp only [next, hgap]
  rw [hfound]

/-- The next token is found behind gaps, and the cursor stands behind it. -/
theorem step_next (cursor : Cursor) : cursor.Step cursor.next.1 cursor.next.2 := by
  cases hgap : gap cursor.rest with
  | unterminated start =>
    have hnext : cursor.next =
        (.error { fault := .unterminatedComment, span := (cursor.skip start).spanTo (cursor.skip cursor.rest.length) },
          cursor.skip cursor.rest.length) := by
      simp only [next, hgap]
    rw [hnext]
    refine .comment ?_
    intro hnil
    rw [hnil] at hgap
    cases hgap
  | closed passed =>
    obtain ⟨text, rest, hrest, hpassed, hskips, hends⟩ := gapFrom_closed hgap
    rw [Nat.zero_add] at hpassed
    subst hpassed
    have hfirst : (cursor.skip text.length).rest = rest := by
      rw [rest_skip, hrest, List.drop_left]
    have hlexed := lexed_lexeme rest
    generalize hfound : lexeme rest = found at hlexed
    rw [← hfirst] at hfound
    cases hlexed with
    | ending =>
      rw [next_of_ok hgap hfound]
      rw [List.append_nil] at hrest
      subst hrest
      exact .ending rfl hskips
    | word hne hkind halone =>
      rw [next_of_ok hgap hfound]
      have hword := gapFrom_of_endsGap (endsGap_of_append hends)
      exact .word hrest rfl hskips ⟨hne, by rwa [List.append_nil], by rwa [List.append_nil]⟩ hkind
    | fault hne hfault =>
      rw [next_of_error hgap hfound]
      exact .fault hrest rfl hne hfault
    | unexpected =>
      rw [next_of_error hgap hfound]
      have hgap' : gap (cursor.skip text.length).rest = .closed 0 := by
        rw [hfirst]
        exact gapFrom_of_endsGap hends 0
      exact .unexpected hrest rfl (next_of_error hgap' hfound)

/-- What a cursor gives, and where it stands then, is a step. -/
theorem step_of_next {cursor after : Cursor} {item : Except LexError Token} (h : cursor.next = (item, after)) :
    cursor.Step item after := by
  have hstep := cursor.step_next
  rw [h] at hstep
  exact hstep

end Cursor

end TriggerScript
