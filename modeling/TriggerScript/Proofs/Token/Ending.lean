import TriggerScript.Token.Stream

/-!
# The end of a stream

The end of the tokens may be stated by a token of its own, or implied by there being no more. Two parsers are compared on
streams that differ in this only (`Parser.Alike`): they end with the same result, in front of streams that differ so again,
or with errors that differ at most in where the end is reported. The parsers may be one parser with two bounds on its
repetitions, since a stream that states its end is longer by a token. So what is known of the streams says how many tokens
are ahead (`Below`), and which of them comes next (`Ahead`).
-/

namespace TriggerScript

/-- Errors with the same fault and cause; they are reported at the same place, or where two streams have their ends. -/
structure Error.AlikeAt (implied stated : Span) (error error' : Error) : Prop where
  fault : error.fault = error'.fault
  cause? : error.cause? = error'.cause?
  span : error.span = error'.span ∨ error.span = implied ∧ error'.span = stated

/-- The second stream states an end, at a place, that the first one implies at another. -/
structure TokenStream.EndStated (implied stated : Span) (stream stream' : TokenStream) : Prop where
  tokens : stream'.tokens = stream.tokens ++ [⟨.endOfScript, stated⟩]
  isOpen : ∀ token ∈ stream.tokens, token.kind ≠ .endOfScript
  ending : stream.ending = implied

namespace TokenStream

/-- Less than a number of tokens are ahead. -/
def Below (n : Nat) (stream : TokenStream) : Prop :=
  stream.tokens.length < n

/-- Less than a number of tokens are ahead, and the first of them is of a kind. -/
def Ahead (n : Nat) (kind : TokenKind) (stream : TokenStream) : Prop :=
  stream.Below n ∧ stream.current.kind = kind

theorem Below.mono {n n' : Nat} {stream : TokenStream} (h : stream.Below n) (hle : n ≤ n') : stream.Below n' :=
  Nat.lt_of_lt_of_le h hle

theorem not_below_zero {stream : TokenStream} : ¬ stream.Below 0 :=
  Nat.not_lt_zero _

variable {implied stated : Span} {stream stream' : TokenStream}

/-- Both streams are at their ends, or the same token comes next in both. -/
theorem EndStated.next (h : stream.EndStated implied stated stream') :
    stream.current = ⟨.endOfScript, implied⟩ ∧ stream'.current = ⟨.endOfScript, stated⟩ ∨
      stream.current.kind ≠ .endOfScript ∧ stream'.current = stream.current ∧
        stream.advance.EndStated implied stated stream'.advance ∧
        stream.advance.tokens.length + 1 = stream.tokens.length := by
  obtain ⟨tokens, ending⟩ := stream
  obtain ⟨tokens', ending'⟩ := stream'
  obtain ⟨htokens, hopen, hending⟩ := h
  dsimp only at htokens hopen hending
  cases tokens with
  | nil =>
    left
    simp [current, htokens, hending]
  | cons token tokens =>
    rw [List.forall_mem_cons] at hopen
    right
    refine ⟨hopen.1, by simp [current, htokens], ⟨by simp [advance, htokens], hopen.2, hending⟩, ?_⟩
    simp [advance]

/-- The next token is of the same kind in both streams. -/
theorem EndStated.kind_current (h : stream.EndStated implied stated stream') :
    stream'.current.kind = stream.current.kind := by
  rcases h.next with ⟨hcurrent, hcurrent'⟩ | ⟨_, hcurrent, _⟩
  · rw [hcurrent, hcurrent']
  · rw [hcurrent]

/-- Where no token is ahead, the end is stated next. -/
theorem EndStated.kind_of_below_one (h : stream.EndStated implied stated stream') (hbelow : stream.Below 1) :
    stream'.current.kind = .endOfScript := by
  rcases h.next with ⟨_, hcurrent'⟩ | ⟨_, _, _, hlength⟩
  · rw [hcurrent']
  · unfold Below at hbelow
    omega

end TokenStream

open TokenStream

namespace Parser

section Alike

variable {α β : Type} {implied stated : Span} {pre pre' : TokenStream → Prop} {post post' : α → TokenStream → Prop}
  {goal : β → TokenStream → Prop}

/-- How parsers end alike. -/
inductive Ending (implied stated : Span) (post : α → TokenStream → Prop) :
    Except Error (α × TokenStream) → Except Error (α × TokenStream) → Prop where
  | ok {result : α} {after after' : TokenStream} (hpost : post result after)
    (hafter : after.EndStated implied stated after') : Ending implied stated post (.ok (result, after)) (.ok (result, after'))
  | error {error error' : Error} (h : error.AlikeAt implied stated error') :
    Ending implied stated post (.error error) (.error error')

/-- Two parsers end alike on streams of which the second states the end, under a condition on the tokens ahead and with
another one on the result and the tokens ahead then. -/
def Alike (implied stated : Span) (pre : TokenStream → Prop) (parser parser' : Parser α)
    (post : α → TokenStream → Prop) : Prop :=
  ∀ ⦃stream stream' : TokenStream⦄, stream.EndStated implied stated stream' → pre stream →
    Ending implied stated post (parser stream) (parser' stream')

/-- Parsers one after the other end alike. -/
theorem Alike.bind {parser parser' : Parser α} {next next' : α → Parser β} (h : Alike implied stated pre parser parser' post)
    (hnext : ∀ result, Alike implied stated (post result) (next result) (next' result) goal) :
    Alike implied stated pre (parser >>= next) (parser' >>= next') goal := by
  intro stream stream' hstream hpre
  have hfirst := h hstream hpre
  change Ending implied stated goal (parser stream >>= fun step => next step.1 step.2)
    (parser' stream' >>= fun step => next' step.1 step.2)
  generalize parser stream = outcome at hfirst ⊢
  generalize parser' stream' = outcome' at hfirst ⊢
  cases hfirst with
  | ok hpost hafter => exact hnext _ hafter hpost
  | error herror => exact .error herror

/-- Parsers that end alike do so under a stronger condition before, and a weaker one after. -/
theorem Alike.weaken {parser parser' : Parser α} (h : Alike implied stated pre parser parser' post)
    (hpre : ∀ stream, pre' stream → pre stream) (hpost : ∀ result stream, post result stream → post' result stream) :
    Alike implied stated pre' parser parser' post' := by
  intro stream stream' hstream hstream'
  have hend := h hstream (hpre stream hstream')
  generalize parser stream = outcome at hend ⊢
  generalize parser' stream' = outcome' at hend ⊢
  cases hend with
  | ok hresult hafter => exact .ok (hpost _ _ hresult) hafter
  | error herror => exact .error herror

/-- The second parser may be replaced by one that does the same at the streams in question. -/
theorem Alike.trans_eq {parser parser' parser'' : Parser α} (h : Alike implied stated pre parser parser' post)
    (heq : ∀ stream stream' : TokenStream, stream.EndStated implied stated stream' → pre stream →
      parser'' stream' = parser' stream') : Alike implied stated pre parser parser'' post := by
  intro stream stream' hstream hpre
  rw [heq stream stream' hstream hpre]
  exact h hstream hpre

/-- All parsers end alike under a condition that no stream meets. -/
theorem alike_of_not {parser parser' : Parser α} (h : ∀ stream, ¬ pre stream) :
    Alike implied stated pre parser parser' post :=
  fun stream _ _ hpre => (h stream hpre).elim

theorem alike_pure (result : α) : Alike implied stated pre (pure result) (pure result) (fun _ => pre) :=
  fun _ _ hstream hpre => .ok hpre hstream

/-- A fault at a fixed place is the same on both streams. -/
theorem alike_fail (fault : ParseFault) (span : Span) (cause? : Option Expr) :
    Alike implied stated pre (fail fault span cause?) (fail fault span cause?) post :=
  fun _ _ _ _ => .error ⟨rfl, rfl, .inl rfl⟩

/-- An error at the next token is reported at the same token, or at the ends. -/
theorem alike_failAt (fault : TokenKind → ParseFault) (cause? : Option Expr) :
    Alike implied stated pre
      (fun stream => .error (.parse (fault stream.current.kind) stream.current.span cause?))
      (fun stream => .error (.parse (fault stream.current.kind) stream.current.span cause?)) post := by
  intro stream stream' hstream _
  dsimp only
  rcases hstream.next with ⟨hcurrent, hcurrent'⟩ | ⟨_, hcurrent, _⟩
  · rw [hcurrent, hcurrent']
    exact .error ⟨rfl, rfl, .inr ⟨rfl, rfl⟩⟩
  · rw [hcurrent]
    exact .error ⟨rfl, rfl, .inl rfl⟩

/-- What is missing at the next token is reported alike. -/
theorem alike_failExpecting (what : Expectation) (cause? : Option Expr) :
    Alike implied stated pre (failExpecting what cause?) (failExpecting what cause?) post :=
  alike_failAt (.expected what) cause?

/-- An unexpected token is reported alike. -/
theorem alike_failUnexpected : Alike implied stated pre failUnexpected failUnexpected post :=
  alike_failAt .unexpected none

variable {n : Nat} {kind : TokenKind}

/-- There may be more tokens ahead in the end than is known. -/
theorem Alike.mono {n' : Nat} {parser parser' : Parser α} (h : Alike implied stated pre parser parser' (fun _ => Below n))
    (hle : n ≤ n') : Alike implied stated pre parser parser' (fun _ => Below n') :=
  h.weaken (fun _ hpre => hpre) fun _ _ hbelow => hbelow.mono hle

/-- What ends alike wherever few tokens are ahead does so if the next of them is known. -/
theorem Alike.ahead {parser parser' : Parser α} (h : Alike implied stated (Below n) parser parser' post) :
    Alike implied stated (Ahead n kind) parser parser' post :=
  h.weaken (fun _ hahead => hahead.1) fun _ _ hpost => hpost

/-- A result that is given when few tokens are ahead is given when more may be. -/
theorem alike_return {n' : Nat} (hle : n ≤ n') (result : α) :
    Alike implied stated (Below n) (pure result) (pure result) (fun _ => Below n') :=
  (alike_pure result).mono hle

theorem peek_bind_apply (next : TokenKind → Parser β) (stream : TokenStream) :
    (peek >>= next) stream = next stream.current.kind stream :=
  rfl

theorem current_bind_apply (next : Token → Parser β) (stream : TokenStream) :
    (current >>= next) stream = next stream.current stream :=
  rfl

/-- Looking at the next token gives its kind, which is the same in both streams. -/
theorem alike_peek : Alike implied stated (Below n) peek peek (Ahead n) := by
  intro stream stream' hstream hbelow
  have hpeek : peek stream' = .ok (stream.current.kind, stream') := by rw [peek, hstream.kind_current]
  rw [hpeek]
  exact .ok ⟨hbelow, rfl⟩ hstream

/-- A token that is no end is used up. -/
theorem alike_advance (hkind : kind ≠ .endOfScript) :
    Alike implied stated (Ahead n kind) advance advance (fun _ => Below (n - 1)) := by
  intro stream stream' hstream hahead
  rcases hstream.next with ⟨hcurrent, _⟩ | ⟨_, hcurrent, hadvance, hlength⟩
  · rw [Ahead, hcurrent] at hahead
    exact absurd hahead.2.symm hkind
  · have hbelow := hahead.1
    rw [advance, advance, hcurrent]
    refine .ok ?_ hadvance
    unfold Below at hbelow ⊢
    omega

/-- The same, where the number of tokens ahead is of no interest. -/
theorem alike_skip (hkind : kind ≠ .endOfScript) :
    Alike implied stated (Ahead n kind) advance advance (fun _ => Below n) :=
  (alike_advance hkind).mono (Nat.sub_le n 1)

/-- A token of a kind is used up if it comes next. -/
theorem alike_ifNext (hkind : kind ≠ .endOfScript) {taken taken' : Token → Parser α} {other other' : TokenKind → Parser α}
    (htaken : ∀ token, Alike implied stated (Below (n - 1)) (taken token) (taken' token) post)
    (hother : ∀ next, Alike implied stated (Ahead n next) (other next) (other' next) post) :
    Alike implied stated (Below n) (peek >>= fun next => if next = kind then advance >>= taken else other next)
      (peek >>= fun next => if next = kind then advance >>= taken' else other' next) post := by
  refine alike_peek.bind fun next => ?_
  by_cases hnext : next = kind
  · rw [if_pos hnext, if_pos hnext]
    subst hnext
    exact (alike_advance hkind).bind htaken
  · rw [if_neg hnext, if_neg hnext]
    exact hother next

/-- The next token is the same in both streams, unless it is the end. -/
theorem alike_current {next next' : Token → Parser β}
    (hopen : ∀ token : Token, token.kind ≠ .endOfScript →
      Alike implied stated (Ahead n token.kind) (next token) (next' token) goal)
    (hend : ∀ span span' : Span,
      Alike implied stated (Ahead n .endOfScript) (next ⟨.endOfScript, span⟩) (next' ⟨.endOfScript, span'⟩) goal) :
    Alike implied stated (Below n) (current >>= next) (current >>= next') goal := by
  intro stream stream' hstream hbelow
  rw [current_bind_apply, current_bind_apply]
  rcases hstream.next with ⟨hcurrent, hcurrent'⟩ | ⟨hkind, hcurrent, _⟩
  · have hahead : stream.Ahead n .endOfScript := ⟨hbelow, by rw [hcurrent]⟩
    rw [hcurrent, hcurrent']
    exact hend _ _ hstream hahead
  · rw [hcurrent]
    exact hopen _ hkind hstream ⟨hbelow, rfl⟩

/-- The stream that states its end has one more token ahead. -/
theorem alike_remaining {next next' : Nat → Parser β}
    (h : ∀ count < n, Alike implied stated (Below (count + 1)) (next count) (next' (count + 1)) goal) :
    Alike implied stated (Below n) (remaining >>= next) (remaining >>= next') goal := by
  intro stream stream' hstream hbelow
  change Ending implied stated goal (next stream.tokens.length stream) (next' stream'.tokens.length stream')
  have hlength : stream'.tokens.length = stream.tokens.length + 1 := by simp [hstream.tokens]
  rw [hlength]
  exact h _ hbelow hstream (Nat.lt_succ_self _)

end Alike

/-! ## Single tokens and values -/

section Tokens

variable {implied stated : Span} {n : Nat}

/-- A token that is expected, and no end, is used up on both streams or missing in both. -/
theorem alike_expect (kind : TokenKind) (hkind : kind ≠ .endOfScript) (what : Expectation) :
    Alike implied stated (Below n) (expect kind what) (expect kind what) (fun _ => Below (n - 1)) := by
  refine alike_ifNext hkind (fun _ => ?_) fun _ => alike_failExpecting what none
  exact alike_pure ()

/-- A name is used up on both streams or missing in both. -/
theorem alike_expectName (what : Expectation) :
    Alike implied stated (Below n) (expectName what) (expectName what) (fun _ => Below (n - 1)) := by
  refine alike_peek.bind fun next => ?_
  cases next with
  | name word =>
    refine (alike_advance (by simp)).bind fun _ => ?_
    exact alike_pure word
  | _ => exact alike_failExpecting what none

/-- No name is found at the end. -/
theorem alike_expectName_end (what : Expectation) :
    Alike implied stated (Ahead n .endOfScript) (expectName what) (expectName what) (fun _ _ => False) := by
  intro stream stream' hstream hahead
  have hfail : ∀ stream : TokenStream, stream.current.kind = .endOfScript →
      expectName what stream = failExpecting what none stream := by
    intro stream hkind
    rw [expectName, peek_bind_apply, hkind]
  rw [hfail stream hahead.2, hfail stream' (hstream.kind_current.trans hahead.2)]
  exact alike_failExpecting what none hstream hahead

/-- Whether a value was read does not depend on the stream. -/
theorem alike_expectValue (place : Place) (e : Expr) :
    Alike implied stated (Below n) (expectValue place e) (expectValue place e) (fun _ => Below n) := by
  unfold expectValue
  split
  · exact alike_pure e
  · exact alike_fail _ _ _

end Tokens

/-! ## Repetitions -/

section Repetitions

variable {α : Type} {implied stated : Span} {k : Nat}

/-- Two parsers end alike wherever less than a number of tokens are ahead, and use up none or more of them. -/
def Keeps (implied stated : Span) (k : Nat) (parser parser' : Parser α) : Prop :=
  ∀ n ≤ k, Alike implied stated (Below n) parser parser' (fun _ => Below n)

/-- The same, with at least one token used up. -/
def Consumes (implied stated : Span) (k : Nat) (parser parser' : Parser α) : Prop :=
  ∀ n < k, Alike implied stated (Below (n + 1)) parser parser' (fun _ => Below n)

/-- What uses up tokens uses up none or more. -/
theorem Consumes.keeps {parser parser' : Parser α} (h : Consumes implied stated k parser parser') :
    Keeps implied stated k parser parser' := by
  intro n hn
  cases n with
  | zero => exact alike_of_not fun _ => not_below_zero
  | succ n => exact (h n hn).mono (Nat.le_succ n)

/-- A closing symbol is found on both streams or on neither. -/
theorem alike_closes {n : Nat} (closing : Symbol) (unclosed : Expectation) :
    Alike implied stated (Below n) (entriesUntil.closes closing unclosed) (entriesUntil.closes closing unclosed)
      (fun _ => Below n) := by
  refine alike_ifNext (by simp) (fun _ => alike_return (by omega) true) fun next => ?_
  split
  · exact alike_failExpecting unclosed none
  · exact (alike_pure false).ahead

/-- A list of entries may be read with a bound that is larger by one. -/
theorem alike_entriesUntil {closing : Symbol} {unclosed : Expectation} {entry entry' : Parser α}
    (h : Keeps implied stated k entry entry') {bound : Nat} (hbound : bound ≤ k) :
    Alike implied stated (Below bound) (entriesUntil closing unclosed entry bound)
      (entriesUntil closing unclosed entry' (bound + 1)) (fun _ => Below bound) := by
  induction bound with
  | zero => exact alike_of_not fun _ => not_below_zero
  | succ bound ih =>
    refine (alike_closes closing unclosed).bind fun closed => ?_
    cases closed with
    | true => exact alike_pure []
    | false =>
      refine (h _ hbound).bind fun first => (alike_closes closing unclosed).bind fun closed => ?_
      cases closed with
      | true => exact alike_pure [first]
      | false =>
        refine (alike_expect (.symbol .comma) (by simp) _).bind fun _ => (ih (by omega)).bind fun others => ?_
        exact alike_return (Nat.le_succ bound) (first :: others)

variable {operand operand' : Parser Expr} {join? : TokenKind → Option (Expr → Expr → Expr)}

/-- A chain may be read with a bound that is larger by one, if the end is no operator: where only the end is ahead, the
longer repetition finds none. -/
theorem alike_continueChain (h : Keeps implied stated k operand operand') (hend : join? .endOfScript = none) {bound : Nat}
    (hbound : bound ≤ k) (joined : Expr) :
    Alike implied stated (Below (bound + 1)) (chain.continueChain operand join? bound joined)
      (chain.continueChain operand' join? (bound + 1) joined) (fun _ => Below (bound + 1)) := by
  induction bound generalizing joined with
  | zero =>
    have hstop : Alike implied stated (Below 1) (pure joined) (pure joined) (fun _ => Below 1) := alike_pure joined
    refine hstop.trans_eq fun stream stream' hstream hbelow => ?_
    rw [chain.continueChain, peek_bind_apply, hstream.kind_of_below_one hbelow, hend]
  | succ bound ih =>
    refine alike_peek.bind fun next => ?_
    cases hnext : join? next with
    | none => exact (alike_pure joined).ahead
    | some join =>
      have hkind : next ≠ .endOfScript := by
        rintro rfl
        rw [hend] at hnext
        cases hnext
      refine (alike_advance hkind).bind fun _ => (h _ hbound).bind fun right => ?_
      exact (ih (by omega) _).mono (Nat.le_succ _)

/-- A chain of operands reads at least the first of them. -/
theorem Consumes.chain (h : Consumes implied stated k operand operand') (hend : join? .endOfScript = none) :
    Consumes implied stated k (chain operand join?) (chain operand' join?) := by
  intro n hn
  refine (h n hn).bind fun first => alike_remaining fun count hcount => ?_
  exact (alike_continueChain h.keeps hend (by omega) first).mono hcount

end Repetitions

end Parser

end TriggerScript
