import TriggerScript.Proofs.Outcome
import TriggerScript.Proofs.Token.Scanning

/-!
# What the lexer finds

Every name among the tokens of a script is a name, and no integer among them is negative.
-/

namespace TriggerScript

/-- Whether a token can stand in a script: names are no keywords, and integers have no sign. -/
def TokenKind.isLexed : TokenKind → Bool
  | .name word => isName word
  | .integer value => 0 ≤ value
  | _ => true

/-- A number that is read without a sign is not negative. -/
theorem Text.readInt64?_nonneg {base : Nat} {digits : List Char} {value : Int64} (h : readInt64? base digits = some value) :
    0 ≤ value := by
  obtain ⟨n, hread, rfl⟩ := Option.map_eq_some_iff.mp h
  have hle : n ≤ maxInt64 := by
    unfold readNat? at hread
    split at hread
    · cases hread
    · exact of_decide_eq_true (Option.filter_eq_some_iff.mp hread).2
  unfold maxInt64 at hle
  rw [Int64.le_iff_toInt_le, Int64.toInt_ofNat_of_lt (by omega)]
  exact Int.natCast_nonneg n

/-- A name or a keyword is a token that lexing makes. -/
theorem isLexed_nameLexeme {c : Char} (hc : beginsName c) (rest : List Char) {kind : TokenKind}
    (h : (nameLexeme (c :: rest)).result = .ok kind) : kind.isLexed := by
  have hcontinues := continuesName_of_beginsName hc
  rw [nameLexeme, List.takeWhile_cons_of_pos hcontinues] at h
  obtain rfl : TokenKind.ofWord _ = kind := Except.ok.inj h
  unfold TokenKind.ofWord
  split
  case h_1 => rfl
  case h_2 hkeyword =>
    simp only [TokenKind.isLexed, isName, String.toList_ofList, List.head?_cons, Option.any_some, hc, hkeyword,
      List.all_cons, hcontinues, List.all_takeWhile, Option.isNone_none, Bool.and_self]

/-- An integer is a token that lexing makes. -/
theorem isLexed_integerLexeme {base : Nat} {mark cs : List Char} {kind : TokenKind}
    (h : (integerLexeme base mark cs).result = .ok kind) : kind.isLexed := by
  have hfinish : ∀ literal digits fail, (∀ literal, ∃ fault, (fail literal).result = .error fault) →
      (integerLexeme.finish base literal digits fail).result = .ok kind → kind.isLexed := by
    intro literal digits fail hfail h
    unfold integerLexeme.finish at h
    split at h
    case h_1 value hread =>
      obtain rfl : TokenKind.integer value = kind := Except.ok.inj h
      exact decide_eq_true (Text.readInt64?_nonneg hread)
    case h_2 =>
      obtain ⟨fault, hfault⟩ := hfail literal
      rw [hfault] at h
      cases h
  unfold integerLexeme at h
  dsimp only at h
  split at h
  · split at h
    · cases h
    · exact hfinish _ _ _ (fun _ => ⟨_, rfl⟩) h
  · exact hfinish _ _ _ (fun _ => ⟨_, rfl⟩) h

/-- A text is a token that lexing makes. -/
theorem isLexed_textFrom {passed : Nat} {value cs : List Char} {kind : TokenKind}
    (h : (textFrom passed value cs).result = .ok kind) : kind.isLexed := by
  fun_induction textFrom passed value cs with
  | case1 =>
    obtain rfl := Except.ok.inj h
    rfl
  | case3 passed value c rest meant hescaped ih => exact ih h
  | case6 passed value c rest _ _ _ _ ih => exact ih h
  | _ => cases h

/-- The token at the front of a text can stand in a script. -/
theorem isLexed_lexeme {cs : List Char} {kind : TokenKind} (h : (lexeme cs).result = .ok kind) : kind.isLexed := by
  unfold lexeme at h
  split at h
  · obtain rfl := Except.ok.inj h
    rfl
  · split at h
    · exact isLexed_textFrom h
    · split at h
      case isTrue hc => exact isLexed_nameLexeme hc _ h
      case isFalse =>
        split at h
        · split at h <;> exact isLexed_integerLexeme h
        · split at h
          · obtain rfl := Except.ok.inj h
            rfl
          · cases h

namespace Cursor

/-- The token that a cursor gives is one that lexing makes. -/
theorem isLexed_next {cursor after : Cursor} {token : Token} (h : cursor.next = (.ok token, after)) :
    token.kind.isLexed := by
  unfold next at h
  split at h
  · cases h
  · dsimp only at h
    split at h
    case h_1 kind hkind =>
      obtain rfl := Except.ok.inj (Prod.mk.inj h).1
      exact isLexed_lexeme hkind
    case h_2 => cases h

/-- All tokens that a cursor passes can stand in a script. -/
theorem isLexed_tokens {n : Nat} {cursor : Cursor} {tokens : List Token} (h : cursor.tokens n = .ok tokens) :
    ∀ token ∈ tokens, token.kind.isLexed := by
  induction n generalizing cursor tokens with
  | zero =>
    obtain rfl := Except.ok.inj h
    exact List.forall_mem_nil _
  | succ n ih =>
    unfold Cursor.tokens at h
    split at h
    case h_2 => cases h
    case h_1 token after hnext =>
      have htoken := isLexed_next hnext
      split at h
      · obtain rfl := Except.ok.inj h
        exact List.forall_mem_singleton.mpr htoken
      · obtain ⟨others, hothers, rfl⟩ := map_eq_ok.mp h
        exact List.forall_mem_cons.mpr ⟨htoken, ih hothers⟩

end Cursor

/-- All tokens of a script can stand in a script. -/
theorem isLexed_tokenize {source : String} {tokens : List Token} (h : tokenize source = .ok tokens) :
    ∀ token ∈ tokens, token.kind.isLexed :=
  Cursor.isLexed_tokens h

end TriggerScript
