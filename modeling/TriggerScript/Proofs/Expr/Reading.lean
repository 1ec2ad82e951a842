import TriggerScript.Proofs.Expr.Tokens
import TriggerScript.Proofs.Number
import TriggerScript.Proofs.Token.Stream
import TriggerScript.Expr.Parser

/-!
# Reading printed trees

Every level of the parser reads the tokens of a tree that binds at least as tightly as the level, up to a token that takes
no hold of it there (`TokenKind.binding`), and gives the tree back up to marks. What binds less tightly stands in
parentheses, and is read by the parser of what is nested.
-/

namespace TriggerScript

/-- How tightly a token takes hold of the expression before it; zero if it ends the expression. -/
def TokenKind.binding : TokenKind → Nat
  | .symbol .either => 1
  | .symbol .both => 2
  | .symbol .equal | .symbol .notEqual | .symbol .less | .symbol .lessEqual | .symbol .greater | .symbol .greaterEqual => 4
  | .symbol .plus | .symbol .minus => 5
  | .symbol .star | .symbol .slash | .symbol .percent => 6
  | .symbol .leftBracket => 7
  | .symbol .leftParen => 8
  | _ => 0

/-- Whether an expression can begin with a token. -/
def TokenKind.beginsExpr : TokenKind → Bool
  | .integer _ | .text _ | .name _ | .keyword .trueWord | .keyword .falseWord | .keyword .returnWord => true
  | .symbol .leftParen | .symbol .leftBracket | .symbol .leftBrace | .symbol .minus | .symbol .bang => true
  | _ => false

/-- The constant that a token stands for. -/
def TokenKind.constant? : TokenKind → Option Expr
  | .integer value => some (.integer {} value)
  | .text value => some (.text {} value)
  | .keyword .trueWord => some (.boolean {} true)
  | .keyword .falseWord => some (.boolean {} false)
  | _ => none

/-- Whether a symbol closes a bracket. -/
def Symbol.isClosing : Symbol → Bool
  | .rightParen | .rightBracket | .rightBrace => true
  | _ => false

/-- An expression begins neither with a closing bracket nor at the end of the script. -/
theorem TokenKind.ne_of_beginsExpr {kind : TokenKind} {closing : Symbol} (h : kind.beginsExpr)
    (hclosing : closing.isClosing) : kind ≠ .symbol closing ∧ kind ≠ .endOfScript := by
  refine ⟨?_, ?_⟩ <;> rintro rfl
  · cases closing with
    | rightParen | rightBracket | rightBrace => cases h
    | _ => cases hclosing
  · cases h

/-- A comma or a closing bracket ends an expression. -/
theorem TokenKind.binding_of_isClosing {kind : TokenKind} {closing : Symbol} (hclosing : closing.isClosing)
    (h : kind = .symbol .comma ∨ kind = .symbol closing) : kind.binding = 0 := by
  rcases h with rfl | rfl
  · rfl
  · cases closing with
    | rightParen | rightBracket | rightBrace => rfl
    | _ => cases hclosing

namespace Expr

/-- What is indexed needs no parentheses. -/
theorem precedence_of_isIndexBase {e : Expr} (h : e.isIndexBase) : e.precedence = 7 := by
  cases e with
  | var | indexed => rfl
  | _ => cases h

/-- The tokens of a list are those of its trees with commas between them. -/
theorem tokensList_eq (es : List Expr) : tokensList es = Parser.separated (es.map tokens) := by
  induction es with
  | nil => rfl
  | cons e es ih =>
    cases es with
    | nil => rfl
    | cons e' es => simp only [tokensList, List.map_cons, Parser.separated_cons_cons, ih]

/-- The tokens of entries are those of each of them with commas between them. -/
theorem tokensEntries_eq (es : List (Expr × Expr)) :
    tokensEntries es = Parser.separated (es.map fun entry => entry.1.tokens ++ .symbol .colon :: entry.2.tokens) := by
  induction es with
  | nil => rfl
  | cons entry es ih =>
    cases es with
    | nil => rfl
    | cons entry' es =>
      simp only [tokensEntries, List.map_cons, Parser.separated_cons_cons, ih, List.append_assoc, List.cons_append]

/-- A tree in a list has no more tokens than the list. -/
theorem length_le_of_mem_tokensList {e : Expr} {es : List Expr} (h : e ∈ es) :
    e.tokens.length ≤ (tokensList es).length := by
  rw [tokensList_eq]
  exact Parser.length_le_of_mem_separated (List.mem_map_of_mem h)

/-- The key and the value of an entry have less tokens together than all entries. -/
theorem length_lt_of_mem_tokensEntries {entry : Expr × Expr} {es : List (Expr × Expr)} (h : entry ∈ es) :
    entry.1.tokens.length + entry.2.tokens.length < (tokensEntries es).length := by
  have hle := Parser.length_le_of_mem_separated
    (List.mem_map_of_mem (f := fun entry : Expr × Expr => entry.1.tokens ++ .symbol .colon :: entry.2.tokens) h)
  rw [← tokensEntries_eq, List.length_append, List.length_cons] at hle
  omega

/-- The first of the tokens of an operand. -/
theorem nextKind_operandTokens {e : Expr} {following : List TokenKind} (least : Nat)
    (h : (nextKind (e.tokens ++ following)).beginsExpr ∧
      (nextKind (e.tokens ++ following) = .symbol .bang → e.precedence ≤ 3)) :
    (nextKind (e.operandTokens least e.tokens ++ following)).beginsExpr ∧
      (nextKind (e.operandTokens least e.tokens ++ following) = .symbol .bang → least ≤ 3) := by
  unfold operandTokens
  split
  case isTrue => exact ⟨rfl, fun hbang => by cases hbang⟩
  case isFalse hplain =>
    have hleast : least ≤ e.precedence := by
      simp only [Bool.or_eq_true, decide_eq_true_eq, not_or] at hplain
      omega
    exact ⟨h.1, fun hbang => Nat.le_trans hleast (h.2 hbang)⟩

/-- An expression begins with a token of its own, which is a negation sign only if it binds no more tightly. -/
theorem nextKind_tokens {e : Expr} (he : e.isSource) (following : List TokenKind) :
    (nextKind (e.tokens ++ following)).beginsExpr ∧
      (nextKind (e.tokens ++ following) = .symbol .bang → e.precedence ≤ 3) := by
  induction e using children_induction generalizing following with
  | h e ih =>
    cases e with
    | integer mark value =>
      rw [tokens]
      split <;> exact ⟨rfl, fun hbang => by cases hbang⟩
    | boolean mark value => cases value <;> exact ⟨rfl, fun hbang => by cases hbang⟩
    | text | var | array | dictionary | call | returned => exact ⟨rfl, fun hbang => by cases hbang⟩
    | indexed mark base index =>
      simp only [isSource, Bool.and_eq_true] at he
      have hbase := ih base (by simp [children]) he.1.1.2
      rw [precedence_of_isIndexBase he.1.1.1] at hbase
      rw [tokens, List.append_assoc]
      exact hbase _
    | arithmetic mark op left right =>
      simp only [isSource, Bool.and_eq_true] at he
      have hleft := ih left (by simp [children]) he.1
      rw [tokens, List.append_assoc]
      exact nextKind_operandTokens _ (hleft _)
    | comparison mark op left right =>
      simp only [isSource, Bool.and_eq_true] at he
      have hleft := nextKind_operandTokens 5 (ih left (by simp [children]) he.1 (.symbol op.symbol ::
        right.operandTokens 5 right.tokens ++ following))
      rw [tokens, List.append_assoc]
      exact ⟨hleft.1, fun hbang => Nat.le_trans (by decide : 4 ≤ 5) (hleft.2 hbang)⟩
    | logical mark op left right =>
      cases op with
      | not =>
        cases left with
        | some left => cases he
        | none => exact ⟨rfl, fun _ => Nat.le_refl 3⟩
      | and | or =>
        cases left with
        | none => cases he
        | some left =>
          simp only [isSource, Bool.and_eq_true] at he
          have hleft := ih left (by simp [children]) he.1
          rw [tokens, List.append_assoc]
          exact nextKind_operandTokens _ (hleft _)
    | _ => cases he

/-- What is indexed begins with a name. -/
theorem nextKind_of_isIndexBase {e : Expr} (he : e.isSource) (hbase : e.isIndexBase) (following : List TokenKind) :
    ∃ name, nextKind (e.tokens ++ following) = .name name := by
  induction e using children_induction generalizing following with
  | h e ih =>
    cases e with
    | var mark name => exact ⟨name, rfl⟩
    | indexed mark base index =>
      simp only [isSource, Bool.and_eq_true] at he
      rw [tokens, List.append_assoc]
      exact ih base (by simp [children]) he.1.1.2 he.1.1.1 _
    | _ => cases hbase

end Expr

namespace Parser

/-- A parser reads the tokens of a tree, and gives the tree back up to marks. -/
abbrev ReadsTree (parser : Parser Expr) (kinds : List TokenKind) (e : Expr) (following : List TokenKind) : Prop :=
  Reads parser kinds (fun e' => e'.bare = e.bare) following

/-- A parser of what is nested reads all trees with at most this many tokens, up to what ends an expression. -/
def ReadsWithin (nested : Parser Expr) (size : Nat) : Prop :=
  ∀ e : Expr, e.isSource → e.tokens.length ≤ size → ∀ following, (nextKind following).binding = 0 →
    ReadsTree nested e.tokens e following

/-- What was read for a value is a value. -/
theorem reads_value {place : Place} {e e' : Expr} (he : e.isValue) (hbare : e'.bare = e.bare) {following : List TokenKind} :
    ReadsTree (expectValue place e') [] e following := by
  have hvalue : e'.isValue := by rwa [← e'.isValue_bare, hbare, e.isValue_bare]
  exact (reads_expectValue hvalue).weaken fun _ heq => heq ▸ hbare

section Levels

variable {nested : Parser Expr} {size : Nat} (hnested : ReadsWithin nested size)
include hnested

/-! ## What an expression can begin with -/

/-- Values in brackets are read up to the closing bracket. -/
theorem reads_valuesUntil {closing : Symbol} {unclosed : Expectation} {place : Place} (hclosing : closing.isClosing)
    {es : List Expr} (hes : Expr.allSource es) (hsize : ∀ e ∈ es, e.tokens.length ≤ size) (following : List TokenKind) :
    Reads (valuesUntil nested closing unclosed place) (Expr.tokensList es ++ [.symbol closing])
      (fun es' => Expr.bareList es' = Expr.bareList es) following := by
  have hvalues := Expr.allSource_iff.mp hes
  unfold valuesUntil
  simp only [Expr.tokensList_eq, Expr.bareList_eq]
  refine reads_remaining.look fun count hcount => ?_
  refine reads_entriesUntil (by rintro rfl; cases hclosing) (fun e hmem more => ?_) (fun e hmem more hmore => ?_)
    (length_lt_of_remaining hcount) following
  · exact TokenKind.ne_of_beginsExpr (Expr.nextKind_tokens (hvalues e hmem).1 more).1 hclosing
  · obtain ⟨hsource, hvalue⟩ := hvalues e hmem
    have hread := hnested e hsource (hsize e hmem) more (TokenKind.binding_of_isClosing hclosing hmore)
    exact hread.finish fun e' hbare => reads_value hvalue hbare

/-- A key, a colon and a value. -/
theorem reads_entry {key value : Expr} (hkey : key.isSource ∧ key.isValue) (hvalue : value.isSource ∧ value.isValue)
    (hsize : key.tokens.length ≤ size ∧ value.tokens.length ≤ size) {following : List TokenKind}
    (hfollowing : (nextKind following).binding = 0) :
    Reads (entry nested) (key.tokens ++ .symbol .colon :: value.tokens)
      (fun result => (result.1.bare, result.2.bare) = (key.bare, value.bare)) following := by
  unfold entry
  refine (hnested key hkey.1 hsize.1 _ rfl).bind fun key' hkey' => ?_
  refine (reads_value hkey.2 hkey').look fun key'' hkey'' => ?_
  refine (reads_expect _ _).bind fun _ _ => ?_
  refine (hnested value hvalue.1 hsize.2 _ hfollowing).finish fun value' hvalue' => ?_
  refine (reads_value hvalue.2 hvalue').look fun value'' hvalue'' => reads_pure ?_
  rw [hkey'', hvalue'']

/-- A tree in parentheses is read as the tree. -/
theorem reads_grouped {e : Expr} (he : e.isSource) (hsize : e.tokens.length ≤ size) (following : List TokenKind) :
    ReadsTree (primary nested) (.symbol .leftParen :: (e.tokens ++ [.symbol .rightParen])) e following := by
  unfold primary
  refine reads_current.look fun token htoken => ?_
  have hkind : token.kind = .symbol .leftParen := htoken
  simp only [hkind]
  refine (reads_advance _).bind fun _ _ => ?_
  refine (hnested e he hsize _ rfl).bind fun inner hinner => ?_
  refine (reads_expect _ _).finish fun _ _ => reads_pure ?_
  rw [Expr.bare_asUnit, hinner]

/-- A dictionary is read from its entries in braces. -/
theorem reads_dictionary {mark : Mark} {es : List (Expr × Expr)} (hes : Expr.entriesSource es)
    (hsize : ∀ entry ∈ es, entry.1.tokens.length ≤ size ∧ entry.2.tokens.length ≤ size) (following : List TokenKind) :
    ReadsTree (primary nested) (Expr.dictionary mark es).tokens (.dictionary mark es) following := by
  have hvalues := Expr.entriesSource_iff.mp hes
  unfold primary
  refine reads_current.look fun token htoken => ?_
  have hkind : token.kind = .symbol .leftBrace := htoken
  simp only [hkind]
  refine (reads_advance _).bind fun _ _ => ?_
  rw [Expr.tokensEntries_eq]
  refine reads_remaining.look fun count hcount => ?_
  have hentries : Reads (entriesUntil .rightBrace .closingBrace (entry nested) (count + 1))
      (separated (es.map fun entry => entry.1.tokens ++ .symbol .colon :: entry.2.tokens) ++ [.symbol .rightBrace])
      (fun es' => es'.map (fun entry => (entry.1.bare, entry.2.bare)) = es.map fun entry => (entry.1.bare, entry.2.bare))
      following := by
    refine reads_entriesUntil (by decide) (fun entry hmem more => ?_) (fun entry hmem more hmore => ?_)
      (length_lt_of_remaining hcount) following
    · rw [List.append_assoc]
      exact TokenKind.ne_of_beginsExpr (Expr.nextKind_tokens (hvalues entry hmem).1.1 _).1 rfl
    · obtain ⟨hkey, hvalue⟩ := hvalues entry hmem
      exact reads_entry hnested hkey hvalue (hsize entry hmem) (TokenKind.binding_of_isClosing rfl hmore)
  refine hentries.finish fun es' hes' => reads_pure ?_
  simp only [Expr.bare, Expr.bareEntries_eq, hes']

/-- An array is read from its entries in brackets. -/
theorem reads_array {mark : Mark} {es : List Expr} (hes : Expr.allSource es) (hsize : ∀ e ∈ es, e.tokens.length ≤ size)
    (following : List TokenKind) : ReadsTree (primary nested) (Expr.array mark es).tokens (.array mark es) following := by
  unfold primary
  refine reads_current.look fun token htoken => ?_
  have hkind : token.kind = .symbol .leftBracket := htoken
  simp only [hkind]
  refine (reads_advance _).bind fun _ _ => ?_
  refine (reads_valuesUntil hnested rfl hes hsize following).finish fun es' hes' => reads_pure ?_
  simp only [Expr.bare, hes']

/-- A call is read from its name and its arguments in parentheses. -/
theorem reads_call {mark : Mark} {name : String} {args : List Expr} (hargs : Expr.allSource args)
    (hsize : ∀ e ∈ args, e.tokens.length ≤ size) (following : List TokenKind) :
    ReadsTree (primary nested) (Expr.call mark name args).tokens (.call mark name args) following := by
  unfold primary
  refine reads_current.look fun token htoken => ?_
  have hkind : token.kind = .name name := htoken
  simp only [hkind]
  refine (reads_advance _).bind fun _ _ => ?_
  refine reads_peek.look fun next hnext => ?_
  have hparen : next = .symbol .leftParen := hnext
  rw [if_pos hparen]
  refine (reads_advance _).bind fun _ _ => ?_
  refine (reads_valuesUntil hnested rfl hargs hsize following).finish fun args' hargs' => reads_pure ?_
  simp only [Expr.bare, hargs']

/-- A return is read from its keyword and its value, in front of what does not go on with the value. -/
theorem reads_returned {mark : Mark} {value : Expr} (hsource : value.isSource) (hvalue : value.isValue)
    (hsize : value.tokens.length ≤ size) {following : List TokenKind} (hfollowing : (nextKind following).binding = 0) :
    ReadsTree (primary nested) (Expr.returned mark value).tokens (.returned mark value) following := by
  unfold primary
  refine reads_current.look fun token htoken => ?_
  have hkind : token.kind = .keyword .returnWord := htoken
  simp only [hkind]
  refine (reads_advance _).bind fun _ _ => ?_
  refine (hnested value hsource hsize following hfollowing).finish fun value' hbare => ?_
  refine (reads_value hvalue hbare).look fun value'' hbare' => reads_pure ?_
  simp only [Expr.bare, hbare']

omit hnested in
/-- A constant is one token. -/
theorem reads_constant {e : Expr} {kind : TokenKind} (h : kind.constant? = some e.bare) (following : List TokenKind) :
    ReadsTree (primary nested) [kind] e following := by
  unfold primary
  refine reads_current.look fun token htoken => ?_
  have hkind : token.kind = kind := htoken
  rw [hkind]
  cases kind with
  | integer | text => exact (reads_advance _).finish fun _ _ => reads_pure (Option.some.inj h)
  | keyword word =>
    cases word with
    | trueWord | falseWord => exact (reads_advance _).finish fun _ _ => reads_pure (Option.some.inj h)
    | _ => cases h
  | _ => cases h

omit hnested in
/-- A variable is read from its name, in front of what makes no call of it. -/
theorem reads_var {mark : Mark} {name : String} {following : List TokenKind}
    (hfollowing : nextKind following ≠ .symbol .leftParen) :
    Reads (primary nested) [.name name] (fun e' => e'.bare = (Expr.var mark name).bare ∧ isIndexable e') following := by
  unfold primary
  refine reads_current.look fun token htoken => ?_
  have hkind : token.kind = .name name := htoken
  simp only [hkind]
  refine (reads_advance _).finish fun _ _ => ?_
  refine reads_peek.look fun next hnext => ?_
  rw [if_neg (hnext ▸ hfollowing)]
  exact reads_pure ⟨rfl, rfl⟩

/-! ## Indices and signs -/

/-- A base goes on behind an index in brackets. -/
theorem leads_indices {base index base' : Expr} (hsource : index.isSource) (hvalue : index.isValue)
    (hsize : index.tokens.length ≤ size) (hbare : base'.bare = base.bare) (hbase : isIndexable base') (mark : Mark)
    (bound : Nat) (following : List TokenKind) :
    Leads (indices nested (bound + 1) base') (indices nested bound)
      (.symbol .leftBracket :: (index.tokens ++ [.symbol .rightBracket]))
      (fun e => e.bare = (Expr.indexed mark base index).bare ∧ isIndexable e) following := by
  rw [indices]
  refine reads_peek.look fun next hnext => ?_
  have hbracket : next = .symbol .leftBracket := hnext
  rw [if_pos hbracket, if_pos hbase]
  refine (reads_advance _).bind fun _ _ => ?_
  refine (hnested index hsource hsize _ rfl).bind fun index' hindex' => ?_
  refine (reads_value hvalue hindex').look fun index'' hindex'' => ?_
  refine (reads_expect _ _).finish fun _ _ => leads_here ⟨?_, rfl⟩
  simp only [Expr.bare, hbare, hindex'']

omit hnested in
/-- Indices end in front of what is no bracket. -/
theorem reads_indices {following : List TokenKind} (hfollowing : nextKind following ≠ .symbol .leftBracket) (base : Expr)
    (bound : Nat) : Reads (indices nested bound base) [] (fun e => e = base) following := by
  cases bound with
  | zero => exact reads_pure rfl
  | succ bound =>
    rw [indices]
    refine reads_peek.look fun next hnext => ?_
    rw [if_neg (hnext ▸ hfollowing)]
    exact reads_pure rfl

/-- A name with its indices goes on to the next index. -/
theorem continues_indexed {e : Expr} (he : e.isSource) (hbase : e.isIndexBase) (hsize : e.tokens.length ≤ size + 1)
    {following : List TokenKind} (hfollowing : nextKind following ≠ .symbol .leftParen) :
    Continues (indexed nested) (indices nested) e.tokens (fun e' => e'.bare = e.bare ∧ isIndexable e') following := by
  induction e using Expr.children_induction generalizing following with
  | h e ih =>
    cases e with
    | var mark name => exact (reads_var hfollowing).continues (indices nested)
    | indexed mark base index =>
      simp only [Expr.isSource, Bool.and_eq_true] at he
      obtain ⟨⟨⟨hbase, hsource⟩, hindex⟩, hvalue⟩ := he
      simp only [Expr.tokens, List.length_append, List.length_cons] at hsize
      rw [Expr.tokens]
      refine (ih base (by simp [Expr.children]) hsource hbase (by omega) ?_).step fun base' bound hbase' => ?_
      · intro hparen
        cases hparen
      · exact leads_indices hnested hindex hvalue (by omega) hbase'.1 hbase'.2 mark bound following
    | _ => cases hbase

omit hnested in
/-- A sign is looked for before anything else. -/
theorem reads_signs {kinds following : List TokenKind} {post : Expr → Prop}
    (hminus : nextKind (kinds ++ following) ≠ .symbol .minus) (h : Reads (indexed nested) kinds post following) :
    Reads (signed nested) kinds post following := by
  unfold signed
  refine reads_remaining.look fun bound _ => ?_
  cases bound with
  | zero => exact h
  | succ bound =>
    rw [signs]
    refine reads_current.look fun token htoken => ?_
    rw [if_neg (htoken ▸ hminus)]
    exact h

omit hnested in
/-- What has neither a sign nor an index is read as it stands. -/
theorem Leads.signed {kinds following : List TokenKind} {post : Expr → Prop}
    (h : Reads (primary nested) kinds post following) (hfirst : (nextKind (kinds ++ following) == .symbol .minus) = false)
    (hfollowing : nextKind following ≠ .symbol .leftBracket) : Reads (signed nested) kinds post following := by
  refine reads_signs (beq_eq_false_iff_ne.mp hfirst) ?_
  exact (h.continues (indices nested)).reads fun base bound => reads_indices hfollowing base bound

omit hnested in
/-- An integer is read with its sign. -/
theorem reads_integer {value : Int64} (h : value ≠ Int64.minValue) (mark : Mark) {following : List TokenKind}
    (hfollowing : nextKind following ≠ .symbol .leftBracket) :
    ReadsTree (signed nested) (Expr.integer mark value).tokens (.integer mark value) following := by
  rw [Expr.tokens]
  split
  case isTrue hneg =>
    unfold signed
    refine reads_remaining.look fun bound hbound => ?_
    cases bound with
    | zero => cases hbound
    | succ bound =>
      rw [signs]
      refine reads_current.look fun token htoken => ?_
      have hminus : token.kind = .symbol .minus := htoken
      rw [if_pos hminus]
      refine (reads_advance (.symbol .minus)).bind fun _ _ => reads_peek.look fun next hnext => ?_
      have hinteger : next = .integer (-value) := hnext
      simp only [hinteger]
      refine (reads_advance _).finish fun _ _ => ?_
      rw [if_neg (neg_ne_minValue h)]
      refine reads_pure ?_
      rw [Expr.bare, Expr.bare, Int64.neg_neg]
  case isFalse => exact (reads_constant rfl following).signed rfl hfollowing

/-- What has no operator at its root is read as it stands. -/
theorem reads_atom {e : Expr} (he : e.isSource) (hprecedence : e.precedence = 7) (hsize : e.tokens.length ≤ size + 1)
    {following : List TokenKind} (hfollowing : (nextKind following).binding < 7) :
    ReadsTree (signed nested) e.tokens e following := by
  have hbracket : nextKind following ≠ .symbol .leftBracket := fun heq => absurd hfollowing (by rw [heq]; decide)
  have hparen : nextKind following ≠ .symbol .leftParen := fun heq => absurd hfollowing (by rw [heq]; decide)
  have hindexed : e.isIndexBase → ReadsTree (signed nested) e.tokens e following := by
    intro hbase
    have hread := (continues_indexed hnested he hbase hsize hparen).reads fun base bound => reads_indices hbracket base bound
    refine reads_signs ?_ (hread.weaken fun e' he' => he'.1)
    obtain ⟨name, hname⟩ := Expr.nextKind_of_isIndexBase he hbase following
    rw [hname]
    intro hminus
    cases hminus
  cases e with
  | integer mark value => exact reads_integer (of_decide_eq_true he) mark hbracket
  | text mark value => exact (reads_constant rfl following).signed rfl hbracket
  | boolean mark value =>
    cases value
    · exact (reads_constant rfl following).signed rfl hbracket
    · exact (reads_constant rfl following).signed rfl hbracket
  | var | indexed => exact hindexed rfl
  | array mark es =>
    refine (reads_array hnested he (fun e hmem => ?_) following).signed rfl hbracket
    have hle := Expr.length_le_of_mem_tokensList hmem
    simp only [Expr.tokens, List.length_append, List.length_cons] at hsize
    omega
  | dictionary mark es =>
    refine (reads_dictionary hnested he (fun entry hmem => ?_) following).signed rfl hbracket
    have hlt := Expr.length_lt_of_mem_tokensEntries hmem
    simp only [Expr.tokens, List.length_append, List.length_cons] at hsize
    omega
  | call mark name args =>
    simp only [Expr.isSource, Bool.and_eq_true] at he
    refine (reads_call hnested he.2 (fun e hmem => ?_) following).signed rfl hbracket
    have hle := Expr.length_le_of_mem_tokensList hmem
    simp only [Expr.tokens, List.length_append, List.length_cons] at hsize
    omega
  | arithmetic mark op left right => cases op <;> cases hprecedence
  | logical mark op left right => cases op <;> cases hprecedence
  | comparison | returned => cases hprecedence
  | _ => cases he

end Levels

end Parser

end TriggerScript
