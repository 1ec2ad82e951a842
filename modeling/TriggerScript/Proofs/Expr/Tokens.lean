import TriggerScript.Proofs.Expr.Basic
import TriggerScript.Proofs.Token.Scanning

/-!
# The tokens of a printed tree

`Expr.isSource` tells which trees a script can spell. The text that such a tree prints as scans into the tokens of the
tree (`Expr.tokens`): an operand stands in parentheses in both, under the same condition.
-/

namespace TriggerScript

/-- The symbol of an arithmetic operator. -/
def ArithmeticOp.symbol : ArithmeticOp → Symbol
  | .add => .plus
  | .subtract => .minus
  | .multiply => .star
  | .divide => .slash
  | .modulus => .percent

/-- The symbol of a comparison. -/
def ComparisonOp.symbol : ComparisonOp → Symbol
  | .equal => .equal
  | .notEqual => .notEqual
  | .less => .less
  | .lessEqual => .lessEqual
  | .greater => .greater
  | .greaterEqual => .greaterEqual

/-- An arithmetical operator is spelled as its symbol. -/
theorem ArithmeticOp.spelling_symbol (op : ArithmeticOp) : op.symbol.spelling = op.spelling := by
  cases op <;> rfl

/-- A comparison is spelled as its symbol. -/
theorem ComparisonOp.spelling_symbol (op : ComparisonOp) : op.symbol.spelling = op.spelling := by
  cases op <;> rfl

namespace Expr

/-! ## Source trees -/

/-- Whether an expression may stand before an index. -/
def isIndexBase : Expr → Bool
  | .var .. | .indexed .. => true
  | _ => false

mutual

/-- Whether a script can spell a tree: there are no values of evaluation in it, names are names, the least integer does
not occur, connectives have the operands they need, and what stands in brackets or is returned is a value. -/
def isSource : Expr → Bool
  | .integer _ value => value ≠ Int64.minValue
  | .text .. | .boolean .. => true
  | .var _ name => isName name
  | .indexed _ base index => base.isIndexBase && base.isSource && index.isSource && index.isValue
  | .array _ entries => allSource entries
  | .dictionary _ entries => entriesSource entries
  | .arithmetic _ _ left right | .comparison _ _ left right => left.isSource && right.isSource
  | .logical _ .not none right => right.isSource
  | .logical _ .and (some left) right | .logical _ .or (some left) right => left.isSource && right.isSource
  | .call _ name args => isName name && allSource args
  | .returned _ value => value.isSource && value.isValue
  | _ => false

/-- Whether a script can spell all trees of a list, and they are values. -/
def allSource : List Expr → Bool
  | [] => true
  | e :: es => e.isSource && e.isValue && allSource es

/-- Whether a script can spell all keys and values of a dictionary, and they are values. -/
def entriesSource : List (Expr × Expr) → Bool
  | [] => true
  | (key, value) :: entries =>
    key.isSource && key.isValue && value.isSource && value.isValue && entriesSource entries

end

/-- A list can be written if all trees in it can and are values. -/
theorem allSource_iff {es : List Expr} : allSource es ↔ ∀ e ∈ es, e.isSource ∧ e.isValue := by
  induction es with
  | nil => simp [allSource]
  | cons e es ih => simp [allSource, ih]

/-- Entries can be written if all their keys and values can and are values. -/
theorem entriesSource_iff {es : List (Expr × Expr)} :
    entriesSource es ↔ ∀ entry ∈ es, (entry.1.isSource ∧ entry.1.isValue) ∧ entry.2.isSource ∧ entry.2.isValue := by
  induction es with
  | nil => simp [entriesSource]
  | cons entry es ih => simp [entriesSource, ih, and_assoc]

/-! ## Tokens -/

/-- The tokens of an operand, given its own tokens, in a place for operators that bind at least this tightly. -/
def operandTokens (e : Expr) (least : Nat) (kinds : List TokenKind) : List TokenKind :=
  if e.isGrouped || e.precedence < least then .symbol .leftParen :: (kinds ++ [.symbol .rightParen]) else kinds

mutual

/-- The tokens of a tree that a script can spell. -/
def tokens : Expr → List TokenKind
  | .integer _ value => if value < 0 then [.symbol .minus, .integer (-value)] else [.integer value]
  | .text _ value => [.text value]
  | .boolean _ value => [.keyword (if value then .trueWord else .falseWord)]
  | .var _ name => [.name name]
  | .indexed _ base index => base.tokens ++ .symbol .leftBracket :: (index.tokens ++ [.symbol .rightBracket])
  | .array _ entries => .symbol .leftBracket :: (tokensList entries ++ [.symbol .rightBracket])
  | .dictionary _ entries => .symbol .leftBrace :: (tokensEntries entries ++ [.symbol .rightBrace])
  | .arithmetic mark op left right =>
    let binding := (Expr.arithmetic mark op left right).precedence
    left.operandTokens binding left.tokens ++ .symbol op.symbol :: right.operandTokens (binding + 1) right.tokens
  | .logical _ .and (some left) right =>
    left.operandTokens 2 left.tokens ++ .symbol .both :: right.operandTokens 3 right.tokens
  | .logical _ .or (some left) right =>
    left.operandTokens 1 left.tokens ++ .symbol .either :: right.operandTokens 2 right.tokens
  | .logical _ _ _ right => .symbol .bang :: right.operandTokens 3 right.tokens
  | .comparison _ op left right =>
    left.operandTokens 5 left.tokens ++ .symbol op.symbol :: right.operandTokens 5 right.tokens
  | .call _ name args => .name name :: .symbol .leftParen :: (tokensList args ++ [.symbol .rightParen])
  | .returned _ value => .keyword .returnWord :: value.tokens
  | _ => []

/-- The tokens of trees between commas. -/
def tokensList : List Expr → List TokenKind
  | [] => []
  | [e] => e.tokens
  | e :: es => e.tokens ++ .symbol .comma :: tokensList es

/-- The tokens of dictionary entries between commas. -/
def tokensEntries : List (Expr × Expr) → List TokenKind
  | [] => []
  | [(key, value)] => key.tokens ++ .symbol .colon :: value.tokens
  | (key, value) :: entries => key.tokens ++ .symbol .colon :: (value.tokens ++ .symbol .comma :: tokensEntries entries)

end

theorem isSource_withMark (mark : Mark) (e : Expr) : (e.withMark mark).isSource = e.isSource := by
  cases e with
  | logical mark' op left right => cases op <;> cases left <;> rfl
  | _ => rfl

theorem tokens_withMark (mark : Mark) (e : Expr) : (e.withMark mark).tokens = e.tokens := by
  cases e with
  | logical mark' op left right => cases op <;> cases left <;> rfl
  | arithmetic mark' op left right => cases op <;> rfl
  | _ => rfl

/-- A value without a mark at its root stands without parentheses where everything may stand. -/
theorem operandTokens_withMark {e : Expr} (h : e.isValue) :
    (e.withMark {}).operandTokens 1 (e.withMark {}).tokens = e.tokens := by
  have hplain : ¬((e.withMark {}).isGrouped || (e.withMark {}).precedence < 1) := by
    cases e with
    | returned => cases h
    | logical mark op left right => cases op <;> exact nofun
    | arithmetic mark op left right => cases op <;> exact nofun
    | _ => exact nofun
  rw [operandTokens, if_neg hplain, tokens_withMark]

/-! ## Printing -/

/-- In front of anything that ends a word, a text scans into tokens. -/
def ScansAs (text : String) (kinds : List TokenKind) : Prop :=
  ∀ rest following, Scans rest following → EndsWord rest → Scans (text.toList ++ rest) (kinds ++ following)

/-- A text scans into tokens, and a negation in front of it is no comparison. -/
structure PrintsAs (text : String) (kinds : List TokenKind) : Prop where
  scans : ScansAs text kinds
  head : ∃ c, text.toList.head? = some c ∧ c ≠ '='

/-- A word ends before a character that continues no name. -/
theorem endsWord_cons {c : Char} (h : continuesName c = false) (rest : List Char) : EndsWord (c :: rest) := by
  intro x hx
  rwa [← Option.mem_some.mp hx]

/-- Texts that scan one after the other, if the second begins with nothing that makes the first longer. -/
theorem ScansAs.append {text text' : String} {kinds kinds' : List TokenKind} (h : ScansAs text kinds)
    (h' : ScansAs text' kinds') (hends : ∀ rest, EndsWord (text'.toList ++ rest)) :
    ScansAs (text ++ text') (kinds ++ kinds') := by
  intro rest following hrest hword
  rw [String.toList_append, List.append_assoc, List.append_assoc]
  exact h _ _ (h' rest following hrest hword) (hends rest)

/-- A word prints as its token. -/
theorem printsAs_word {text : String} {kind : TokenKind} (hkind : kind ≠ .endOfScript) (htext : text.toList.head? ≠ some '=')
    (h : ∀ rest, EndsWord rest → IsWord text.toList rest kind) : PrintsAs text [kind] := by
  refine ⟨fun rest following hrest hword => hrest.cons (h rest hword) hkind, ?_⟩
  obtain ⟨c, cs, hcs⟩ := List.exists_cons_of_ne_nil (h [] (by simp [EndsWord])).ne_nil
  rw [hcs] at htext ⊢
  exact ⟨c, rfl, fun hc => htext (congrArg some hc)⟩

/-- A symbol that stands alone scans as itself. -/
theorem scansAs_symbol {sign : Symbol} (h : sign.isAlone) : ScansAs sign.spelling [.symbol sign] :=
  fun rest _ hrest _ => hrest.cons (isWord_symbol_alone h rest) (by simp)

/-- No symbol that stands alone continues a word. -/
theorem endsWord_symbol {sign : Symbol} (h : sign.isAlone) (rest : List Char) : EndsWord (sign.spelling.toList ++ rest) := by
  cases sign <;> simp only [Symbol.isAlone, Bool.false_eq_true] at h <;> exact endsWord_cons (by decide) rest

/-- What stands in brackets prints as its tokens in brackets, which follow anything. -/
theorem ScansAs.enclosed {text : String} {kinds : List TokenKind} (h : ScansAs text kinds) (opening closing : Symbol)
    (hopening : opening.isAlone) (hclosing : closing.isAlone) :
    ScansAs (opening.spelling ++ (text ++ closing.spelling)) (.symbol opening :: (kinds ++ [.symbol closing])) := by
  intro rest following hrest hword
  have hclosed := scansAs_symbol hclosing rest following hrest hword
  have hinner := h _ _ hclosed (endsWord_symbol hclosing rest)
  simp only [String.toList_append, List.append_assoc, List.cons_append]
  exact hinner.cons (isWord_symbol_alone hopening _) (by simp)

/-- Two printed operands with a symbol between spaces. -/
theorem PrintsAs.binary {left right : String} {kinds kinds' : List TokenKind} (hleft : PrintsAs left kinds)
    (hright : PrintsAs right kinds') (sign : Symbol) :
    PrintsAs (left ++ " " ++ sign.spelling ++ " " ++ right) (kinds ++ .symbol sign :: kinds') := by
  constructor
  · intro rest following hrest hword
    have hsign := (hright.scans rest following hrest hword).space.cons (isWord_symbol_space sign _) (by simp)
    have hall := hleft.scans _ _ hsign.space (endsWord_cons (by decide) _)
    simp only [String.toList_append, List.append_assoc, List.cons_append]
    exact hall
  · obtain ⟨c, hhead, hc⟩ := hleft.head
    refine ⟨c, ?_, hc⟩
    simp only [String.toList_append, List.append_assoc]
    rw [List.head?_append, hhead, Option.some_or]

/-- Two printed operands with a connective between them. -/
theorem PrintsAs.joined {left right : String} {kinds kinds' : List TokenKind} (hleft : PrintsAs left kinds)
    (hright : PrintsAs right kinds') {sign : Symbol} {between : String} (hbetween : between = " " ++ sign.spelling ++ " ") :
    PrintsAs (left ++ between ++ right) (kinds ++ .symbol sign :: kinds') := by
  have hbinary := hleft.binary hright sign
  simpa only [hbetween, String.append_assoc] using hbinary

/-- A negation of a printed operand. -/
theorem PrintsAs.negated {text : String} {kinds : List TokenKind} (h : PrintsAs text kinds) :
    PrintsAs ("!" ++ text) (.symbol .bang :: kinds) := by
  refine ⟨fun rest following hrest hword => ?_, '!', by simp, by decide⟩
  obtain ⟨c, hhead, hc⟩ := h.head
  have hnext : ∀ x ∈ (text.toList ++ rest).head?, x ≠ '=' := by
    rw [List.head?_append, hhead, Option.some_or]
    intro x hx
    rwa [← Option.mem_some.mp hx]
  rw [String.toList_append, List.append_assoc]
  exact (h.scans rest following hrest hword).cons (isWord_bang hnext) (by simp)

/-- Operands keep their parentheses. -/
theorem PrintsAs.operand {e : Expr} {text : String} {kinds : List TokenKind} (h : PrintsAs text kinds) (least : Nat) :
    PrintsAs (e.operandText least text) (e.operandTokens least kinds) := by
  unfold operandText operandTokens
  split
  · rw [String.append_assoc]
    exact ⟨h.scans.enclosed .leftParen .rightParen rfl rfl, '(', by simp, by decide⟩
  · exact h

/-- Texts with a symbol and a space between them. -/
theorem ScansAs.separated {text text' : String} {kinds kinds' : List TokenKind} (h : ScansAs text kinds)
    (h' : ScansAs text' kinds') {sign : Symbol} (hsign : sign.isAlone) {between : String}
    (hbetween : between = sign.spelling ++ " ") : ScansAs (text ++ between ++ text') (kinds ++ .symbol sign :: kinds') := by
  intro rest following hrest hword
  have hnext := (h' rest following hrest hword).space.cons (isWord_symbol_alone hsign _) (by simp)
  have hall := h _ _ hnext (endsWord_symbol hsign _)
  simp only [hbetween, String.toList_append, List.append_assoc, List.cons_append]
  exact hall

theorem comma_eq : ", " = Symbol.comma.spelling ++ " " := by decide

theorem colon_eq : ": " = Symbol.colon.spelling ++ " " := by decide

/-- Trees between commas, each with a text that scans into the tokens of another tree. -/
theorem scansAs_renderList_map {es : List Expr} {spell : Expr → Expr} (h : ∀ e ∈ es, ScansAs e.render (spell e).tokens) :
    ScansAs (renderList es) (tokensList (es.map spell)) := by
  induction es with
  | nil => exact fun rest following hrest _ => hrest
  | cons e es ih =>
    have hfirst := h e List.mem_cons_self
    have hothers := ih fun e he => h e (List.mem_cons_of_mem _ he)
    cases es with
    | nil => simpa only [renderList, List.map_cons, List.map_nil, tokensList] using hfirst
    | cons e' es =>
      have hall := hfirst.separated hothers rfl comma_eq
      simpa only [renderList, List.map_cons, tokensList] using hall

/-- Trees with commas between them scan if each of them does. -/
theorem scansAs_renderList {es : List Expr} (h : ∀ e ∈ es, ScansAs e.render e.tokens) :
    ScansAs (renderList es) (tokensList es) := by
  have hmap := @scansAs_renderList_map es id h
  rwa [List.map_id] at hmap

/-- Dictionary entries between commas. -/
theorem scansAs_renderEntries_map {es : List (Expr × Expr)} {spell : Expr → Expr}
    (h : ∀ entry ∈ es, ScansAs entry.1.render (spell entry.1).tokens ∧ ScansAs entry.2.render (spell entry.2).tokens) :
    ScansAs (renderEntries es) (tokensEntries (es.map fun entry => (spell entry.1, spell entry.2))) := by
  induction es with
  | nil => exact fun rest following hrest _ => hrest
  | cons entry es ih =>
    obtain ⟨key, value⟩ := entry
    obtain ⟨hkey, hvalue⟩ := h (key, value) List.mem_cons_self
    have hentry := hkey.separated hvalue rfl colon_eq
    have hothers := ih fun entry he => h entry (List.mem_cons_of_mem _ he)
    cases es with
    | nil => simpa only [renderEntries, List.map_cons, List.map_nil, tokensEntries] using hentry
    | cons entry' es =>
      have hall := hentry.separated hothers rfl comma_eq
      simpa only [renderEntries, List.map_cons, tokensEntries, List.append_assoc, List.cons_append] using hall

/-- Entries with commas between them scan if their keys and values do. -/
theorem scansAs_renderEntries {es : List (Expr × Expr)}
    (h : ∀ entry ∈ es, ScansAs entry.1.render entry.1.tokens ∧ ScansAs entry.2.render entry.2.tokens) :
    ScansAs (renderEntries es) (tokensEntries es) := by
  have hmap := @scansAs_renderEntries_map es id h
  have hid : es.map (fun entry => (id entry.1, id entry.2)) = es := List.map_id es
  rwa [hid] at hmap

/-- A number prints as its digits. -/
theorem printsAs_nat {n : Nat} (hn : n ≤ Text.maxInt64) : PrintsAs n.repr [.integer (Int64.ofNat n)] := by
  have hdigits : n.repr.toList = Nat.toDigits 10 n := by simp [Nat.repr]
  have hspells : Text.Spells 10 (Nat.toDigits 10 n) n := Text.spells_toDigits (by decide) (by decide) n
  refine printsAs_word (by simp) ?_ fun rest hrest => ?_
  · rw [hdigits]
    intro hhead
    have hmem := List.mem_of_head? hhead
    exact absurd (hspells.all_digits _ hmem) (by decide)
  · rw [hdigits]
    exact isWord_digits hspells hn hrest

/-- An integer prints as its digits, behind a minus sign if it is negative. -/
theorem printsAs_integer {value : Int64} (h : value ≠ Int64.minValue) :
    PrintsAs (toString value.toInt) (if value < 0 then [.symbol .minus, .integer (-value)] else [.integer value]) := by
  have hvalue := Int64.ofInt_toInt value
  rw [Int.toString_eq_repr, Int.repr_eq_if]
  have hle := value.toInt_le
  have hge := value.minValue_le_toInt
  have hmin : value.toInt ≠ Int64.minValue.toInt := fun heq => h (Int64.toInt_inj.mp heq)
  rw [Int64.toInt_minValue] at hge hmin
  rw [Int64.toInt_maxValue] at hle
  by_cases hneg : value < 0
  · have hlt : value.toInt < 0 := Int64.lt_iff_toInt_lt.mp hneg
    have hnat : Int64.ofNat (-value.toInt).toNat = -value := by
      rw [← Int64.ofInt_eq_ofNat, Int.toNat_of_nonneg (by omega), ← Int64.neg_ofInt, hvalue]
    have hprints := printsAs_nat (n := (-value.toInt).toNat) (by unfold Text.maxInt64; omega)
    rw [hnat] at hprints
    rw [if_pos hneg, if_neg (by omega)]
    refine ⟨fun rest following hrest hword => ?_, '-', by simp, by decide⟩
    rw [String.toList_append, List.append_assoc]
    have hminus : IsWord Symbol.minus.spelling.toList ((-value.toInt).toNat.repr.toList ++ rest) (.symbol .minus) :=
      isWord_symbol_alone rfl _
    exact (hprints.scans rest following hrest hword).cons hminus (by simp)
  · have hnonneg : 0 ≤ value.toInt := by
      have := mt Int64.lt_iff_toInt_lt.mpr hneg
      simpa using this
    have hnat : Int64.ofNat value.toInt.toNat = value := by
      rw [← Int64.ofInt_eq_ofNat, Int.toNat_of_nonneg hnonneg, hvalue]
    rw [if_neg hneg, if_pos hnonneg]
    have hprints := printsAs_nat (n := value.toInt.toNat) (by unfold Text.maxInt64; omega)
    rwa [hnat] at hprints

/-- A name prints as itself. -/
theorem printsAs_name {name : String} (h : isName name) : PrintsAs name [.name name] := by
  refine printsAs_word (by simp) ?_ fun rest hrest => isWord_name h hrest
  intro hhead
  simp only [isName, hhead, Bool.and_eq_true] at h
  exact absurd h.1.1 (by decide)

/-- A keyword prints as itself. -/
theorem printsAs_keyword (keyword : Keyword) : PrintsAs keyword.spelling [.keyword keyword] := by
  refine printsAs_word (by simp) ?_ fun rest hrest => isWord_keyword keyword hrest
  cases keyword <;> decide

/-- A printed text in front of one that follows any word. -/
theorem PrintsAs.append {text text' : String} {kinds kinds' : List TokenKind} (h : PrintsAs text kinds)
    (h' : ScansAs text' kinds') (hends : ∀ rest, EndsWord (text'.toList ++ rest)) :
    PrintsAs (text ++ text') (kinds ++ kinds') := by
  obtain ⟨c, hhead, hc⟩ := h.head
  refine ⟨h.scans.append h' hends, c, ?_, hc⟩
  rw [String.toList_append, List.head?_append, hhead, Option.some_or]

/-- A bracket as the first character. -/
theorem ScansAs.printsAs_enclosed {text : String} {kinds : List TokenKind} (h : ScansAs text kinds)
    (opening closing : Symbol) (hopening : opening.isAlone) (hclosing : closing.isAlone) :
    PrintsAs (opening.spelling ++ (text ++ closing.spelling)) (.symbol opening :: (kinds ++ [.symbol closing])) := by
  refine ⟨h.enclosed opening closing hopening hclosing, ?_⟩
  cases opening <;> simp only [Symbol.isAlone, Bool.false_eq_true] at hopening <;>
    exact ⟨_, by rw [String.toList_append]; rfl, by decide⟩

/-- A word ends before an opening symbol. -/
theorem endsWord_enclosed (opening : Symbol) (hopening : opening.isAlone) (text : String) (rest : List Char) :
    EndsWord ((opening.spelling ++ text).toList ++ rest) := by
  rw [String.toList_append, List.append_assoc]
  exact endsWord_symbol hopening _

/-- A call prints as its name and its arguments in parentheses. -/
theorem printsAs_call {name text : String} {kinds : List TokenKind} (hname : isName name) (h : ScansAs text kinds) :
    PrintsAs (name ++ "(" ++ text ++ ")") (.name name :: .symbol .leftParen :: (kinds ++ [.symbol .rightParen])) := by
  rw [String.append_assoc, String.append_assoc]
  exact (printsAs_name hname).append (h.enclosed .leftParen .rightParen rfl rfl) (endsWord_enclosed .leftParen rfl _)

/-- A tree that a script can spell prints as its tokens. -/
theorem printsAs_render {e : Expr} (he : e.isSource) : PrintsAs e.render e.tokens := by
  induction e using children_induction with
  | h e ih =>
    cases e with
    | integer mark value => exact printsAs_integer (of_decide_eq_true he)
    | text mark value =>
      rw [render, tokens]
      exact printsAs_word (by simp) (by simp [textLiteral]) fun rest _ => isWord_text value rest
    | boolean mark value =>
      rw [render, tokens]
      cases value
      · exact printsAs_keyword .falseWord
      · exact printsAs_keyword .trueWord
    | var mark name => exact printsAs_name he
    | indexed mark base index =>
      simp only [isSource, Bool.and_eq_true] at he
      have hbase := ih base (by simp [children]) he.1.1.2
      have hindex := ih index (by simp [children]) he.1.2
      rw [render, tokens, String.append_assoc, String.append_assoc]
      exact hbase.append (hindex.scans.enclosed .leftBracket .rightBracket rfl rfl) (endsWord_enclosed .leftBracket rfl _)
    | array mark entries =>
      have hentries := allSource_iff.mp he
      rw [render, tokens, String.append_assoc]
      have hlist := scansAs_renderList fun e hmem => (ih e hmem (hentries e hmem).1).scans
      exact hlist.printsAs_enclosed .leftBracket .rightBracket rfl rfl
    | dictionary mark entries =>
      have hentries := entriesSource_iff.mp he
      rw [render, tokens, String.append_assoc]
      have hlist : ScansAs (renderEntries entries) (tokensEntries entries) := by
        refine scansAs_renderEntries fun entry hmem => ?_
        have hpart : ∀ part ∈ [entry.1, entry.2], part ∈ (dictionary mark entries).children :=
          fun part hpart => List.mem_flatMap.mpr ⟨entry, hmem, hpart⟩
        obtain ⟨⟨hkey, _⟩, hvalue, _⟩ := hentries entry hmem
        exact ⟨(ih _ (hpart _ (by simp)) hkey).scans, (ih _ (hpart _ (by simp)) hvalue).scans⟩
      exact hlist.printsAs_enclosed .leftBrace .rightBrace rfl rfl
    | arithmetic mark op left right | comparison mark op left right =>
      simp only [isSource, Bool.and_eq_true] at he
      have hleft := ih left (by simp [children]) he.1
      have hright := ih right (by simp [children]) he.2
      rw [render, tokens, ← op.spelling_symbol]
      exact (hleft.operand _).binary (hright.operand _) op.symbol
    | logical mark op left right =>
      cases op with
      | not =>
        cases left with
        | some left => cases he
        | none =>
          have hright := (ih right (by simp [children]) he).operand (e := right) 3
          simp only [render, tokens]
          exact hright.negated
      | and | or =>
        cases left with
        | none => cases he
        | some left =>
          simp only [isSource, Bool.and_eq_true] at he
          have hleft := ih left (by simp [children]) he.1
          have hright := ih right (by simp [children]) he.2
          rw [render, tokens]
          exact (hleft.operand _).joined (hright.operand _) (by decide)
    | call mark name args =>
      simp only [isSource, Bool.and_eq_true] at he
      have hargs := allSource_iff.mp he.2
      rw [render, tokens]
      exact printsAs_call he.1 (scansAs_renderList fun e hmem => (ih e hmem (hargs e hmem).1).scans)
    | returned mark value =>
      simp only [isSource, Bool.and_eq_true] at he
      have hvalue := ih value (by simp [children]) he.1
      have hreturn : "return " = Keyword.returnWord.spelling ++ " " := by decide
      have hspaced : ScansAs (" " ++ value.render) value.tokens := by
        intro rest following hrest hword
        rw [String.toList_append]
        exact (hvalue.scans rest following hrest hword).space
      rw [render, tokens, hreturn, String.append_assoc]
      refine (printsAs_keyword .returnWord).append hspaced fun rest => ?_
      rw [String.toList_append]
      exact endsWord_cons (by decide) _
    | _ => cases he

/-- Tokenizing a printed text gives its tokens. -/
theorem PrintsAs.tokenize {text : String} {kinds : List TokenKind} (h : PrintsAs text kinds) :
    ∃ tokens, tokenize text = .ok tokens ∧ tokens.map (·.kind) = kinds ++ [.endOfScript] := by
  have hscans := h.scans [] [.endOfScript] (.done (List.forall_mem_nil _)) (by simp [EndsWord])
  rw [List.append_nil] at hscans
  exact tokenize_of_scans hscans

end Expr

end TriggerScript
