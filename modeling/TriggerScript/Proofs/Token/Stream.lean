import TriggerScript.Token.Stream

/-!
# What parsers read

A parser reads tokens if, in front of others, it uses up exactly these (`Parser.Reads`), and parsers in sequence read the
tokens of both. More generally, tokens lead a parser to another one, which goes on behind them (`Parser.Leads`); so a step
of a loop leads back to the loop. A loop that joins operands from left to right is described by where it stands behind the
operands so far (`Parser.Continues`).
-/

namespace TriggerScript

/-- The kinds of the tokens ahead. -/
def TokenStream.kinds (stream : TokenStream) : List TokenKind :=
  stream.tokens.map (·.kind)

/-- The current token is the first of those ahead, or the end if there is none. -/
theorem TokenStream.kind_current (stream : TokenStream) : stream.current.kind = stream.kinds.headD .endOfScript := by
  unfold current kinds
  cases stream.tokens <;> rfl

/-- Passing a token leaves the others ahead. -/
theorem TokenStream.kinds_advance (stream : TokenStream) : stream.advance.kinds = stream.kinds.tail := by
  simp [advance, kinds]

/-- The kind of the first of the tokens ahead. -/
def nextKind (following : List TokenKind) : TokenKind :=
  following.headD .endOfScript

namespace Parser

/-- In front of others, tokens lead a parser to one of the parsers that go on behind them. -/
def Leads {α β : Type} (parser : Parser β) (goal : α → Parser β) (kinds : List TokenKind) (post : α → Prop)
    (following : List TokenKind) : Prop :=
  ∀ stream : TokenStream, stream.kinds = kinds ++ following →
    ∃ result after, parser stream = goal result after ∧ post result ∧ after.kinds = following

/-- A parser reads tokens in front of others, with a result that meets a condition. -/
abbrev Reads {α : Type} (parser : Parser α) (kinds : List TokenKind) (post : α → Prop) (following : List TokenKind) : Prop :=
  Leads parser pure kinds post following

section Steps

variable {α β γ : Type} {kinds kinds' following : List TokenKind} {post : α → Prop} {post' : γ → Prop}

/-- No tokens lead a parser to itself. -/
theorem leads_here {goal : α → Parser β} {result : α} (h : post result) : Leads (goal result) goal [] post following :=
  fun stream hstream => ⟨result, stream, rfl, h, hstream⟩

/-- One parser after the other uses up the tokens of both. -/
theorem Leads.bind {parser : Parser α} {next : α → Parser β} {goal : γ → Parser β}
    (h : Reads parser kinds post (kinds' ++ following))
    (hnext : ∀ result, post result → Leads (next result) goal kinds' post' following) :
    Leads (parser >>= next) goal (kinds ++ kinds') post' following := by
  intro stream hstream
  rw [List.append_assoc] at hstream
  obtain ⟨result, after, hparser, hpost, hafter⟩ := h stream hstream
  have hrun : (parser >>= next) stream = next result after :=
    calc (parser >>= next) stream
      _ = parser stream >>= fun step => next step.1 step.2 := rfl
      _ = next result after := by rw [hparser]; rfl
  rw [hrun]
  exact hnext result hpost after hafter

/-- A parser that only looks ahead leaves all tokens to the next. -/
theorem Leads.look {parser : Parser α} {next : α → Parser β} {goal : γ → Parser β}
    (h : Reads parser [] post (kinds ++ following))
    (hnext : ∀ result, post result → Leads (next result) goal kinds post' following) :
    Leads (parser >>= next) goal kinds post' following :=
  h.bind hnext

/-- A parser after which nothing is used up any more. -/
theorem Leads.finish {parser : Parser α} {next : α → Parser β} {goal : γ → Parser β} (h : Reads parser kinds post following)
    (hnext : ∀ result, post result → Leads (next result) goal [] post' following) :
    Leads (parser >>= next) goal kinds post' following := by
  have hall := Leads.bind h hnext
  rwa [List.append_nil] at hall

theorem Leads.weaken {parser : Parser β} {goal : α → Parser β} {weaker : α → Prop}
    (h : Leads parser goal kinds post following) (hpost : ∀ result, post result → weaker result) :
    Leads parser goal kinds weaker following := by
  intro stream hstream
  obtain ⟨result, after, hparser, hresult, hafter⟩ := h stream hstream
  exact ⟨result, after, hparser, hpost result hresult, hafter⟩

theorem reads_pure {result : α} (h : post result) : Reads (pure result) [] post following :=
  leads_here h

/-- The current token is of the kind that comes next. -/
theorem reads_current : Reads current [] (fun token => token.kind = nextKind following) following := by
  intro stream hstream
  refine ⟨stream.current, stream, rfl, stream.kind_current.trans ?_, hstream⟩
  rw [hstream, List.nil_append, nextKind]

/-- Looking at the next token uses up nothing and gives its kind. -/
theorem reads_peek : Reads peek [] (fun kind => kind = nextKind following) following := by
  intro stream hstream
  refine ⟨stream.current.kind, stream, rfl, stream.kind_current.trans ?_, hstream⟩
  rw [hstream, List.nil_append, nextKind]

/-- One token is passed, of whatever kind it is. -/
theorem reads_advance (kind : TokenKind) : Reads advance [kind] (fun _ => True) following := by
  intro stream hstream
  refine ⟨stream.current, stream.advance, rfl, trivial, ?_⟩
  rw [stream.kinds_advance, hstream]
  rfl

/-- The tokens ahead are counted without using up any. -/
theorem reads_remaining : Reads remaining [] (fun count => count = following.length) following := by
  intro stream hstream
  refine ⟨stream.tokens.length, stream, rfl, ?_, hstream⟩
  rw [← List.length_map (fun token : Token => token.kind)]
  exact congrArg List.length hstream

/-- A token that is expected is used up where it stands. -/
theorem reads_expect (kind : TokenKind) (what : Expectation) :
    Reads (expect kind what) [kind] (fun _ => True) following := by
  unfold expect
  refine reads_peek.look fun next hnext => ?_
  rw [hnext]
  simp only [nextKind, List.cons_append, List.headD_cons, if_true]
  exact (reads_advance kind).bind fun _ _ => reads_pure trivial

/-- A value is accepted without using up tokens. -/
theorem reads_expectValue {place : Place} {e : Expr} (h : e.isValue) :
    Reads (expectValue place e) [] (fun e' => e' = e) following := by
  rw [expectValue, if_pos h]
  exact reads_pure rfl

/-- A parser reads tokens in front of others and then stands in a loop that may go on for all tokens ahead. -/
def Continues (parser : Parser α) (loop : Nat → α → Parser α) (kinds : List TokenKind) (post : α → Prop)
    (following : List TokenKind) : Prop :=
  ∀ stream : TokenStream, stream.kinds = kinds ++ following →
    ∃ result bound after,
      parser stream = loop bound result after ∧ post result ∧ after.kinds = following ∧ following.length ≤ bound

/-- A loop begins behind its first operand. -/
theorem Leads.continues {parser : Parser α} (loop : Nat → α → Parser α) (h : Reads parser kinds post following) :
    Continues (do let first ← parser; loop (← remaining) first) loop kinds post following := by
  have hstart : Leads (do let first ← parser; loop (← remaining) first) (loop following.length) kinds post following :=
    h.finish fun first hfirst => reads_remaining.look fun count hcount => hcount ▸ leads_here hfirst
  intro stream hstream
  obtain ⟨first, after, hparser, hpost, hafter⟩ := hstart stream hstream
  exact ⟨first, following.length, after, hparser, hpost, hafter, Nat.le_refl _⟩

/-- A loop that takes a step stands behind the tokens of the step. -/
theorem Continues.step {parser : Parser α} {loop : Nat → α → Parser α} {kind : TokenKind} {stepped : α → Prop}
    (h : Continues parser loop kinds post (kind :: kinds' ++ following))
    (hstep : ∀ result bound, post result →
      Leads (loop (bound + 1) result) (loop bound) (kind :: kinds') stepped following) :
    Continues parser loop (kinds ++ kind :: kinds') stepped following := by
  intro stream hstream
  rw [List.append_assoc] at hstream
  obtain ⟨result, bound, after, hparser, hpost, hafter, hbound⟩ := h stream hstream
  cases bound with
  | zero => cases hbound
  | succ bound =>
    obtain ⟨result', after', hloop, hstepped, hafter'⟩ := hstep result bound hpost after hafter
    refine ⟨result', bound, after', hparser.trans hloop, hstepped, hafter', ?_⟩
    simp only [List.cons_append, List.length_cons, List.length_append] at hbound
    omega

/-- A loop that stops has read the tokens before it. -/
theorem Continues.reads {parser : Parser α} {loop : Nat → α → Parser α} (h : Continues parser loop kinds post following)
    (hstop : ∀ result bound, Reads (loop bound result) [] (fun result' => result' = result) following) :
    Reads parser kinds post following := by
  intro stream hstream
  obtain ⟨result, bound, after, hparser, hpost, hafter, -⟩ := h stream hstream
  obtain ⟨_, after', hloop, rfl, hafter'⟩ := hstop result bound after hafter
  exact ⟨_, after', hparser.trans hloop, hpost, hafter'⟩

end Steps

/-! ## Operands joined by operators -/

section Chains

variable {operand : Parser Expr} {join? : TokenKind → Option (Expr → Expr → Expr)}

/-- A chain goes on behind an operator and the operand after it. -/
theorem leads_continueChain {kind : TokenKind} {join : Expr → Expr → Expr} (hkind : join? kind = some join)
    {kinds following : List TokenKind} {joined : Expr} {post post' : Expr → Prop} (h : Reads operand kinds post following)
    (hjoin : ∀ next, post next → post' (join joined next)) (bound : Nat) :
    Leads (chain.continueChain operand join? (bound + 1) joined) (chain.continueChain operand join? bound) (kind :: kinds)
      post' following := by
  rw [chain.continueChain]
  refine reads_peek.look fun next hnext => ?_
  have hop : join? next = some join := hnext ▸ hkind
  rw [hop]
  exact (reads_advance kind).bind fun _ _ => h.finish fun next hpost => leads_here (hjoin next hpost)

/-- A chain stops in front of what is no operator of it. -/
theorem reads_continueChain {following : List TokenKind} (hstop : join? (nextKind following) = none) (joined : Expr)
    (bound : Nat) : Reads (chain.continueChain operand join? bound joined) [] (fun e => e = joined) following := by
  cases bound with
  | zero => exact reads_pure rfl
  | succ bound =>
    rw [chain.continueChain]
    refine reads_peek.look fun next hnext => ?_
    rw [hnext, List.nil_append, hstop]
    exact reads_pure rfl

end Chains

/-! ## Entries between commas -/

/-- Lists of tokens with commas between them. -/
def separated : List (List TokenKind) → List TokenKind
  | [] => []
  | [kinds] => kinds
  | kinds :: more => kinds ++ .symbol .comma :: separated more

theorem separated_cons_cons (kinds kinds' : List TokenKind) (more : List (List TokenKind)) :
    separated (kinds :: kinds' :: more) = kinds ++ .symbol .comma :: separated (kinds' :: more) :=
  rfl

/-- There is a comma behind every list but the last. -/
theorem length_le_length_separated (more : List (List TokenKind)) : more.length ≤ (separated more).length + 1 := by
  induction more with
  | nil => exact Nat.zero_le _
  | cons kinds more ih =>
    cases more with
    | nil => exact Nat.le_add_left 1 _
    | cons kinds' more =>
      simp only [separated_cons_cons, List.length_append, List.length_cons] at ih ⊢
      omega

/-- Each list is no longer than all of them with commas. -/
theorem length_le_of_mem_separated {kinds : List TokenKind} {more : List (List TokenKind)} (h : kinds ∈ more) :
    kinds.length ≤ (separated more).length := by
  induction more with
  | nil => cases h
  | cons kinds' more ih =>
    cases more with
    | nil => rw [List.mem_singleton.mp h]; exact Nat.le_refl _
    | cons kinds'' more =>
      rw [separated_cons_cons, List.length_append, List.length_cons]
      rcases List.mem_cons.mp h with rfl | hmem
      · omega
      · have hle := ih hmem
        omega

section Entries

variable {α : Type} {closing : Symbol} {unclosed : Expectation}

/-- A closing symbol is used up where it stands. -/
theorem reads_closes (following : List TokenKind) :
    Reads (entriesUntil.closes closing unclosed) [.symbol closing] (fun closed => closed = true) following := by
  rw [entriesUntil.closes]
  refine reads_peek.look fun next hnext => ?_
  rw [if_pos (by rw [hnext]; rfl)]
  exact (reads_advance _).bind fun _ _ => reads_pure rfl

/-- Nothing is used up where neither the closing symbol nor the end stands. -/
theorem reads_closes_nil {following : List TokenKind} (hclosing : nextKind following ≠ .symbol closing)
    (hend : nextKind following ≠ .endOfScript) :
    Reads (entriesUntil.closes closing unclosed) [] (fun closed => closed = false) following := by
  rw [entriesUntil.closes]
  refine reads_peek.look fun next hnext => ?_
  rw [List.nil_append] at hnext
  rw [hnext, if_neg hclosing, if_neg hend]
  exact reads_pure rfl

/-- Entries that are read one by one are read as a list, with commas between them and a symbol that closes it. -/
theorem reads_entriesUntil {β γ : Type} {entry : Parser α} {seen : α → γ} {meant : β → γ} {kindsOf : β → List TokenKind}
    (hcomma : closing ≠ .comma) {items : List β}
    (hbegins : ∀ item ∈ items, ∀ following, nextKind (kindsOf item ++ following) ≠ .symbol closing ∧
      nextKind (kindsOf item ++ following) ≠ .endOfScript)
    (hentry : ∀ item ∈ items, ∀ following, nextKind following = .symbol .comma ∨ nextKind following = .symbol closing →
      Reads entry (kindsOf item) (fun result => seen result = meant item) following)
    {bound : Nat} (hbound : items.length < bound) (following : List TokenKind) :
    Reads (entriesUntil closing unclosed entry bound) (separated (items.map kindsOf) ++ [.symbol closing])
      (fun results => results.map seen = items.map meant) following := by
  induction bound generalizing items with
  | zero => cases hbound
  | succ bound ih =>
    rw [entriesUntil]
    cases items with
    | nil =>
      refine (reads_closes following).finish fun closed hclosed => ?_
      rw [hclosed]
      exact reads_pure rfl
    | cons item items =>
      have hfirst := hentry item List.mem_cons_self
      have hopen : ∀ more, Reads (entriesUntil.closes closing unclosed) [] (fun closed => closed = false)
          (kindsOf item ++ more ++ following) := by
        intro more
        rw [List.append_assoc]
        have hnext := hbegins item List.mem_cons_self (more ++ following)
        exact reads_closes_nil hnext.1 hnext.2
      cases items with
      | nil =>
        refine (hopen [.symbol closing]).look fun closed hclosed => ?_
        rw [hclosed]
        refine (hfirst ([.symbol closing] ++ following) (.inr rfl)).bind fun first hseen => ?_
        refine (reads_closes following).finish fun closed hclosed => ?_
        rw [hclosed]
        exact reads_pure (by rw [List.map_singleton, List.map_singleton, hseen])
      | cons item' items =>
        have hothers : Reads (entriesUntil closing unclosed entry bound)
            (separated ((item' :: items).map kindsOf) ++ [.symbol closing])
            (fun results => results.map seen = (item' :: items).map meant) following :=
          ih (fun item hitem => hbegins item (List.mem_cons_of_mem _ hitem))
            (fun item hitem => hentry item (List.mem_cons_of_mem _ hitem)) (Nat.lt_of_succ_lt_succ hbound)
        rw [List.map_cons, List.map_cons, separated_cons_cons, ← List.map_cons, List.append_assoc, List.cons_append]
        refine (hopen _).look fun closed hclosed => ?_
        rw [hclosed]
        refine (hfirst _ (.inl rfl)).bind fun first hseen => ?_
        refine (reads_closes_nil ?_ ?_).look fun closed hclosed => ?_
        · exact fun hsign => hcomma (TokenKind.symbol.inj hsign).symm
        · exact nofun
        rw [hclosed]
        refine (reads_expect (.symbol .comma) _).bind fun _ _ => hothers.finish fun others hothers => ?_
        exact reads_pure (by rw [List.map_cons, List.map_cons, hseen, hothers])

/-- The number of tokens ahead bounds the number of entries. -/
theorem length_lt_of_remaining {items : List α} {kindsOf : α → List TokenKind} {kind : TokenKind}
    {following : List TokenKind} {count : Nat}
    (h : count = (separated (items.map kindsOf) ++ [kind] ++ following).length) : items.length < count + 1 := by
  have hle := length_le_length_separated (items.map kindsOf)
  rw [List.length_map] at hle
  rw [h, List.length_append, List.length_append, List.length_singleton]
  omega

end Entries

end Parser

end TriggerScript
