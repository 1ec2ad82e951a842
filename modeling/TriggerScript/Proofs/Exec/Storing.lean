import TriggerScript.Proofs.Eval.Defaults
import TriggerScript.Proofs.Exec.Frames

/-!
# Storing under keys

An assignment to an entry changes a copy of a tree of dictionaries along a path of keys and binds the copy. What such a
change can do is said once: it replaces what a path leads to, and the last key may be new. From this it follows that the
value is found where it was stored, that all other paths lead to what they led to, and that the entries at every level stay
in order.
-/

namespace TriggerScript

/-! ## Entries -/

section Entries

variable {key key' : Expr}

theorem findValue?_cons (key : Expr) (entry : Expr × Expr) (entries : List (Expr × Expr)) :
    findValue? key (entry :: entries) = if entry.1.same key then some entry.2 else findValue? key entries :=
  rfl

/-- An entry under another key is passed over. -/
theorem findValue?_cons_of_ne {entry : Expr × Expr} (h : entry.1.bare ≠ key.bare) (entries : List (Expr × Expr)) :
    findValue? key (entry :: entries) = findValue? key entries := by
  rw [findValue?_cons, if_neg fun hsame => h (Expr.same_iff.mp hsame)]

/-- Entries under other keys are passed over. -/
theorem findValue?_append {before : List (Expr × Expr)} (h : ∀ entry ∈ before, entry.1.same key = false)
    (after : List (Expr × Expr)) : findValue? key (before ++ after) = findValue? key after := by
  induction before with
  | nil => rfl
  | cons entry before ih =>
    rw [List.forall_mem_cons] at h
    rw [List.cons_append, findValue?_cons, h.1, if_neg Bool.false_ne_true, ih h.2]

/-- What is found behind some entries decides what is found in all of them. -/
theorem findValue?_append_congr {after after' : List (Expr × Expr)} (h : findValue? key after = findValue? key after')
    (before : List (Expr × Expr)) : findValue? key (before ++ after) = findValue? key (before ++ after') := by
  induction before with
  | nil => exact h
  | cons entry before ih => rw [List.cons_append, List.cons_append, findValue?_cons, findValue?_cons, ih]

/-- Marks make no difference to a key. -/
theorem findValue?_congr (h : key.bare = key'.bare) (entries : List (Expr × Expr)) :
    findValue? key entries = findValue? key' entries := by
  induction entries with
  | nil => rfl
  | cons entry entries ih =>
    have hsame : entry.1.same key = entry.1.same key' := by rw [Bool.eq_iff_iff, Expr.same_iff, Expr.same_iff, h]
    rw [findValue?_cons, findValue?_cons, hsame, ih]

end Entries

namespace Expr

/-! ## What storing does -/

/-- A value is stored in a tree along a path of keys: it takes the place of what the path leads to, and the last key may be
new and is then added behind the others. -/
inductive Stores (v : Expr) : List Expr → Expr → Expr → Prop
  | here (container : Expr) : Stores v [] container v
  | inside {key candidate held held' : Expr} {keys : List Expr} {before : List (Expr × Expr)} (mark : Mark)
    (after : List (Expr × Expr)) (hbefore : ∀ entry ∈ before, entry.1.same key = false)
    (hcandidate : candidate.same key = true)
    (hheld : Stores v keys held held') :
    Stores v (key :: keys) (.dictionary mark (before ++ (candidate, held) :: after))
      (.dictionary mark (before ++ (candidate, held') :: after))
  | added {key : Expr} {entries : List (Expr × Expr)} (mark : Mark) (hfresh : ∀ entry ∈ entries, entry.1.same key = false) :
    Stores v [key] (.dictionary mark entries) (.dictionary mark (entries ++ [(key, v)]))

/-- A value that is stored along keys is stored as the relation says. -/
theorem stores_of_storeEntry {name : String} {v container changed : Expr} {keys : List Expr}
    (h : storeEntry name v keys container = .ok changed) : Stores v keys container changed := by
  induction keys generalizing container changed with
  | nil =>
    obtain rfl := Except.ok.inj h
    exact .here container
  | cons key keys ih =>
    cases container with
    | dictionary mark entries =>
      rw [storeEntry] at h
      obtain ⟨entries', hentries, h⟩ := bind_eq_ok.mp h
      obtain rfl := Except.ok.inj h
      rcases changeEntry_eq_ok hentries with ⟨before, candidate, held, held', after, rfl, hbefore, hcandidate, hheld, rfl⟩ |
        ⟨new, hnew, hfresh, rfl⟩
      · exact .inside mark after hbefore hcandidate (ih hheld)
      · cases keys with
        | nil =>
          obtain rfl := Except.ok.inj hnew
          exact .added mark hfresh
        | cons => cases hnew
    | _ => cases h

/-! ## Paths -/

/-- What a path of keys through dictionaries leads to. -/
def along? : List Expr → Expr → Option Expr
  | [], e => some e
  | key :: keys, .dictionary _ entries => (findValue? key entries).bind (along? keys)
  | _ :: _, _ => none

/-- No dictionary that a path leads to has a key twice. -/
def HasDistinctKeys (e : Expr) : Prop :=
  ∀ path mark entries, e.along? path = some (.dictionary mark entries) →
    (entries.map (·.1)).Pairwise fun key key' => key.same key' = false

/-- A value has no key twice. -/
theorem IsNormal.hasDistinctKeys {e : Expr} (h : e.IsNormal) : e.HasDistinctKeys := by
  intro path mark entries hpath
  induction path generalizing e with
  | nil =>
    obtain rfl := Option.some.inj hpath
    exact h.root
  | cons key path ih =>
    cases e with
    | dictionary mark' entries' =>
      obtain ⟨held, hheld, hpath⟩ := Option.bind_eq_some_iff.mp hpath
      obtain ⟨candidate, hmem, _⟩ := exists_of_findValue? hheld
      exact ih (forall_children_dictionary.mp (everywhere_iff.mp h).2 _ hmem).2 hpath
    | _ => cases hpath

/-- Marks make no difference to a path. -/
theorem along?_congr {path keys : List Expr} (h : path.map bare = keys.map bare) (e : Expr) :
    e.along? path = e.along? keys := by
  induction path generalizing keys e with
  | nil =>
    rw [List.map_eq_nil_iff.mp h.symm]
  | cons key path ih =>
    obtain ⟨key', keys', rfl, hkey, hrest⟩ := List.map_eq_cons_iff.mp h.symm
    cases e with
    | dictionary mark entries =>
      rw [along?, along?, findValue?_congr hkey.symm]
      cases findValue? key' entries with
      | none => rfl
      | some held => exact ih hrest.symm held
    | _ => rfl

/-- A result that something is made from is there exactly if what is made is. -/
theorem exists_bind_pure_eq_ok {α β : Type} {result : Except Error α} {make : α → β} :
    (∃ b, (do return make (← result)) = (.ok b : Except Error β)) ↔ ∃ a, result = .ok a := by
  constructor
  · rintro ⟨b, hb⟩
    obtain ⟨a, ha, _⟩ := bind_eq_ok.mp hb
    exact ⟨a, ha⟩
  · rintro ⟨a, rfl⟩
    exact ⟨make a, rfl⟩

/-- An entry is changed if it can be, and added if there is none and there is a new one. -/
theorem exists_changeEntry_iff {key : Expr} {change : Expr → Except Error Expr} {new : Except Error Expr}
    {entries : List (Expr × Expr)} :
    (∃ entries', changeEntry key change new entries = .ok entries') ↔
      (∃ held held', findValue? key entries = some held ∧ change held = .ok held') ∨
        findValue? key entries = none ∧ ∃ value, new = .ok value := by
  induction entries with
  | nil =>
    rw [changeEntry, exists_bind_pure_eq_ok]
    simp [findValue?]
  | cons entry entries ih =>
    obtain ⟨candidate, held⟩ := entry
    rw [changeEntry, findValue?_cons]
    by_cases hsame : candidate.same key = true
    · rw [if_pos hsame, if_pos hsame, exists_bind_pure_eq_ok]
      simp
    · rw [if_neg hsame, if_neg hsame, exists_bind_pure_eq_ok, ih]

/-- Storing succeeds exactly if all keys but the last lead to a dictionary. -/
theorem exists_storeEntry_iff {name : String} {v container : Expr} {keys : List Expr} (hkeys : keys ≠ []) :
    (∃ changed, storeEntry name v keys container = .ok changed) ↔
      ∃ mark entries, container.along? keys.dropLast = some (.dictionary mark entries) := by
  induction keys generalizing container with
  | nil => exact absurd rfl hkeys
  | cons key keys ih =>
    cases container with
    | dictionary mark entries =>
      rw [storeEntry, exists_bind_pure_eq_ok, exists_changeEntry_iff]
      cases keys with
      | nil =>
        cases findValue? key entries <;> simp [storeEntry, along?]
      | cons key' keys =>
        rw [List.dropLast_cons_of_ne_nil (List.cons_ne_nil key' keys), along?]
        cases hfound : findValue? key entries with
        | none => simp
        | some held =>
          rw [Option.bind_some, ← ih (List.cons_ne_nil key' keys)]
          simp
    | _ =>
      constructor
      · rintro ⟨changed, h⟩
        cases h
      · rintro ⟨mark, entries, h⟩
        cases keys <;> cases h

section Laws

variable {v container changed : Expr} {keys : List Expr} (h : Stores v keys container changed)
include h

/-- What is stored is found. -/
theorem Stores.along?_eq : changed.along? keys = some v := by
  induction h with
  | here => rfl
  | @inside key candidate held held' keys before mark after hbefore hcandidate _ ih =>
    rw [along?, findValue?_append hbefore, findValue?_cons, if_pos hcandidate]
    exact ih
  | @added key entries mark hfresh =>
    rw [along?, findValue?_append hfresh, findValue?_cons, if_pos (same_iff.mpr rfl)]
    rfl

/-- The tree stays one in which nothing is left to work out. -/
theorem Stores.isReduced (hv : v.isReduced = true) (hkeys : ∀ key ∈ keys, key.isReduced = true)
    (hcontainer : container.isReduced = true) : changed.isReduced = true := by
  induction h with
  | here => exact hv
  | inside mark after hbefore hcandidate _ ih =>
    rw [List.forall_mem_cons] at hkeys
    simp only [Expr.isReduced, entriesReduced_iff, List.forall_mem_append, List.forall_mem_cons] at hcontainer ⊢
    exact ⟨hcontainer.1, ⟨hcontainer.2.1.1, ih hkeys.2 hcontainer.2.1.2⟩, hcontainer.2.2⟩
  | added mark hfresh =>
    simp only [Expr.isReduced, entriesReduced_iff, List.forall_mem_append, List.forall_mem_singleton] at hcontainer hkeys ⊢
    exact ⟨hcontainer, hkeys, hv⟩

/-- At every level on the path the entries stay where they are, with another value under the key; only at the last level the
key may be new, and its entry then stands behind all others. -/
theorem Stores.levels {front rest : List Expr} {key : Expr} (hkeys : keys = front ++ key :: rest) :
    ∃ mark entries entries', container.along? front = some (.dictionary mark entries) ∧
      changed.along? front = some (.dictionary mark entries') ∧
      ((∃ before candidate held held' after, entries = before ++ (candidate, held) :: after ∧ candidate.same key = true ∧
          entries' = before ++ (candidate, held') :: after) ∨
        (rest = [] ∧ (∀ entry ∈ entries, entry.1.same key = false) ∧ entries' = entries ++ [(key, v)])) := by
  induction h generalizing front with
  | here => simp at hkeys
  | @inside key' candidate held held' keys before mark after hbefore hcandidate _ ih =>
    cases front with
    | nil =>
      obtain ⟨rfl, rfl⟩ := List.cons.inj hkeys
      exact ⟨mark, _, _, rfl, rfl, .inl ⟨before, candidate, held, held', after, rfl, hcandidate, rfl⟩⟩
    | cons first front =>
      obtain ⟨rfl, hrest⟩ := List.cons.inj hkeys
      simp only [along?, findValue?_append hbefore, findValue?_cons, hcandidate, if_true, Option.bind_some]
      exact ih hrest
  | added mark hfresh =>
    cases front with
    | nil =>
      obtain ⟨rfl, hrest⟩ := List.cons.inj hkeys
      exact ⟨mark, _, _, rfl, rfl, .inr ⟨hrest.symm, hfresh, rfl⟩⟩
    | cons first front => simp at hkeys

end Laws

/-! ## Reading -/

/-- An expression with indices behind it, each with the mark of the entry it stands for. -/
def indexedBy (base : Expr) : List (Mark × Expr) → Expr
  | [] => base
  | (mark, index) :: indices => (Expr.indexed mark base index).indexedBy indices

/-- What is read in a container for indices as they are written, if they have these keys as values. -/
def readAlong (base container : Expr) : List (Mark × Expr) → List Expr → Except Error Expr
  | (mark, index) :: indices, key :: keys => do
    readAlong (.indexed mark base index) (← entryAt base index container key) indices keys
  | _, _ => .ok container

/-- A path that is read to its end leads to what is read. -/
theorem readAlong_of_along? {base container v : Expr} {indices : List (Mark × Expr)} {keys : List Expr}
    (hlength : indices.length = keys.length) (h : container.along? keys = some v) :
    readAlong base container indices keys = .ok v := by
  induction keys generalizing base container indices with
  | nil =>
    obtain rfl := List.eq_nil_of_length_eq_zero hlength
    exact congrArg Except.ok (Option.some.inj h)
  | cons key keys ih =>
    cases indices with
    | nil => cases hlength
    | cons index indices =>
      cases container with
      | dictionary mark entries =>
        obtain ⟨held, hheld, h⟩ := Option.bind_eq_some_iff.mp h
        have hentry : entryAt base index.2 (.dictionary mark entries) key = .ok held := by
          simp only [entryAt, hheld]
        rw [readAlong, hentry]
        exact ih (Nat.succ.inj hlength) h
      | _ => cases h

/-- Where two dictionaries have the same entry under a key, or none, the same is read behind it. -/
theorem entryAt_congr {base index key : Expr} {mark mark' : Mark} {entries entries' : List (Expr × Expr)}
    (h : findValue? key entries' = findValue? key entries) :
    entryAt base index (.dictionary mark' entries') key = entryAt base index (.dictionary mark entries) key := by
  simp only [entryAt, h]

/-- Along a path that is neither a beginning nor a continuation of the keys, everything is read as before. -/
theorem Stores.readAlong_eq {v container changed : Expr} {keys : List Expr} (h : Stores v keys container changed)
    {path : List Expr} (hbeginning : ¬ path.map bare <+: keys.map bare) (hcontinuation : ¬ keys.map bare <+: path.map bare)
    {indices : List (Mark × Expr)} (hlength : indices.length = path.length) (base : Expr) :
    readAlong base changed indices path = readAlong base container indices path := by
  induction h generalizing path base indices with
  | here => exact absurd List.nil_prefix hcontinuation
  | @inside key candidate held held' keys before mark after hbefore hcandidate _ ih =>
    obtain ⟨first, path, rfl⟩ : ∃ first rest, path = first :: rest := by
      refine List.exists_cons_of_ne_nil ?_
      rintro rfl
      exact hbeginning List.nil_prefix
    obtain ⟨index, indices, rfl⟩ : ∃ index rest, indices = index :: rest := List.exists_cons_of_length_eq_add_one hlength
    rw [readAlong, readAlong]
    by_cases heq : first.bare = key.bare
    · rw [List.map_cons, List.map_cons, heq, List.prefix_cons_inj] at hbeginning hcontinuation
      have hread : ∀ held,
          entryAt base index.2 (.dictionary mark (before ++ (candidate, held) :: after)) first = .ok held := by
        intro held
        simp only [entryAt, findValue?_congr heq, findValue?_append hbefore, findValue?_cons, hcandidate, if_true]
      rw [hread held, hread held']
      exact ih hbeginning hcontinuation (Nat.succ.inj hlength) _
    · have hother : candidate.bare ≠ first.bare := by
        rw [same_iff.mp hcandidate]
        exact Ne.symm heq
      rw [entryAt_congr (findValue?_append_congr _ before)]
      rw [findValue?_cons_of_ne hother, findValue?_cons_of_ne hother]
  | @added key entries mark hfresh =>
    obtain ⟨first, path, rfl⟩ : ∃ first rest, path = first :: rest := by
      refine List.exists_cons_of_ne_nil ?_
      rintro rfl
      exact hbeginning List.nil_prefix
    obtain ⟨index, indices, rfl⟩ : ∃ index rest, indices = index :: rest := List.exists_cons_of_length_eq_add_one hlength
    have hother : key.bare ≠ first.bare := by
      intro heq
      rw [List.map_cons, List.map_cons, heq, List.prefix_cons_inj] at hcontinuation
      exact hcontinuation List.nil_prefix
    have hfound : findValue? first (entries ++ [(key, v)]) = findValue? first entries := by
      have hlast : findValue? first [(key, v)] = findValue? first [] := findValue?_cons_of_ne hother []
      rw [findValue?_append_congr hlast, List.append_nil]
    rw [readAlong, readAlong, entryAt_congr hfound]

section Evaluation

variable {env : Env} {base : Expr} {start output : Output}

/-- An expression that fails, fails with indices behind it. -/
theorem replace_indexedBy_of_error {error : Error} (h : base.replace env start = (.error error, output))
    (indices : List (Mark × Expr)) : (base.indexedBy indices).replace env start = (.error error, output) := by
  induction indices generalizing base with
  | nil => exact h
  | cons index indices ih =>
    refine ih ?_
    rw [replace]
    change Run.bind _ _ start = _
    rw [Run.bind, h]

/-- Indices behind an expression read along the keys that they evaluate to. -/
theorem replace_indexedBy {container : Expr} (h : base.replace env start = (.ok container, output))
    {indices : List (Mark × Expr)} {keys : List Expr} {output' : Output}
    (hkeys : evaluateAll env (indices.map (·.2)) output = (.ok keys, output')) :
    ((base.indexedBy indices).replace env start).1 = readAlong base container indices keys ∧
      ∀ v, readAlong base container indices keys = .ok v → (base.indexedBy indices).replace env start = (.ok v, output') := by
  induction indices generalizing base container keys output with
  | nil =>
    obtain ⟨hnil, rfl⟩ := Prod.mk.inj hkeys
    obtain rfl := Except.ok.inj hnil
    refine ⟨congrArg Prod.fst h, fun v hv => ?_⟩
    obtain rfl := Except.ok.inj hv
    exact h
  | cons index indices ih =>
    rw [List.map_cons, evaluateAll] at hkeys
    obtain ⟨key, between, hkey, hkeys⟩ := Run.bind_eq_ok hkeys
    obtain ⟨others, after, hothers, hkeys⟩ := Run.bind_eq_ok hkeys
    obtain ⟨hcons, rfl⟩ := Prod.mk.inj hkeys
    obtain rfl := Except.ok.inj hcons
    have hentry : (indexed index.1 base index.2).replace env start = (entryAt base index.2 container key, between) := by
      rw [replace, Run.bind_of_eq_ok h, Run.bind_of_eq_ok hkey]
      rfl
    rw [indexedBy, readAlong]
    cases hfound : entryAt base index.2 container key with
    | ok held =>
      rw [hfound] at hentry
      exact ih hentry hothers
    | error error =>
      rw [hfound] at hentry
      refine ⟨congrArg Prod.fst (replace_indexedBy_of_error hentry indices), fun v hv => ?_⟩
      cases hv

/-- There are as many values as there were trees. -/
theorem length_of_evaluateAll {es values : List Expr} {output' : Output}
    (h : evaluateAll env es output = (.ok values, output')) : values.length = es.length := by
  rw [evaluateAll_eq_mapM] at h
  exact Run.length_of_mapM h

end Evaluation

end Expr

namespace Scope

variable {settings : Settings} {scope : Scope} {name : String} {container : Expr} {indices : List (Mark × Expr)}
  {path : List Expr} {output output' : Output}

/-- A variable with indices behind it reads along the keys that they evaluate to. -/
theorem evaluate_indexedBy (hfind : scope.find? name = some container) (hreduced : container.isReduced = true)
    (hpath : Expr.evaluateAll (scope.envUnder settings) (indices.map (·.2)) output = (.ok path, output')) (mark : Mark) :
    (scope.evaluate settings ((Expr.var mark name).indexedBy indices) output).1 =
        Expr.readAlong (.var mark name) container indices path ∧
      ∀ v, Expr.readAlong (.var mark name) container indices path = .ok v →
        scope.evaluate settings ((Expr.var mark name).indexedBy indices) output = (.ok v, output') := by
  have hvalue : ∀ (indices : List (Mark × Expr)) (base : Expr), base.isValue = true →
      (base.indexedBy indices).isValue = true := by
    intro indices
    induction indices with
    | nil => exact fun base h => h
    | cons index indices ih => exact fun base _ => ih _ rfl
  have hvar : (Expr.var mark name).replace (scope.envUnder settings) output = (.ok container, output) := by
    rw [Expr.replace, envUnder, env_resolve, resolveWith, hfind]
    dsimp only
    rw [if_pos hreduced]
    rfl
  rw [evaluate, Expr.evaluate, Expr.ifValue_of_isValue (hvalue indices _ rfl)]
  exact Expr.replace_indexedBy hvar hpath

/-- What a path of keys leads to from a variable. -/
def along? (scope : Scope) (name : String) (path : List Expr) : Option Expr :=
  (scope.find? name).bind (Expr.along? path)

/-- The laws of a store, for the scopes before and after a value is stored under a variable along keys. -/
structure StoreLaws (settings : Settings) (name : String) (keys : List Expr) (v : Expr) (before after : Scope) : Prop where
  /-- The keys lead to the value. -/
  found : after.along? name keys = some v
  /-- Reading along the keys gives the value, however they are written. -/
  reads : ∀ {mark indices path output output'},
    Expr.evaluateAll (after.envUnder settings) (indices.map (·.2)) output = (.ok path, output') →
    path.map Expr.bare = keys.map Expr.bare →
    after.evaluate settings ((Expr.var mark name).indexedBy indices) output = (.ok v, output')
  /-- Reading along a path that is neither a beginning nor a continuation of the keys gives the value or error that it gave.
  -/
  others : ∀ {mark indices path first first' second second'},
    Expr.evaluateAll (before.envUnder settings) (indices.map (·.2)) first = (.ok path, first') →
    Expr.evaluateAll (after.envUnder settings) (indices.map (·.2)) second = (.ok path, second') →
    ¬ path.map Expr.bare <+: keys.map Expr.bare → ¬ keys.map Expr.bare <+: path.map Expr.bare →
    (after.evaluate settings ((Expr.var mark name).indexedBy indices) second).1 =
      (before.evaluate settings ((Expr.var mark name).indexedBy indices) first).1
  /-- At every level on the path all entries stay in their places, one of them with another value, or the last key is new and
  added behind them; and no key is there twice. -/
  levels : ∀ {front rest : List Expr} {key : Expr}, keys = front ++ key :: rest → ∃ mark entries entries',
    before.along? name front = some (.dictionary mark entries) ∧ after.along? name front = some (.dictionary mark entries') ∧
      ((∃ earlier candidate held held' later, entries = earlier ++ (candidate, held) :: later ∧ candidate.same key = true ∧
          entries' = earlier ++ (candidate, held') :: later) ∨
        (rest = [] ∧ (∀ entry ∈ entries, entry.1.same key = false) ∧ entries' = entries ++ [(key, v)])) ∧
      (entries'.map (·.1)).Pairwise fun key key' => key.same key' = false

/-- What is stored in the tree of a variable is stored by the laws. -/
theorem storeLaws_of_stores {keys : List Expr} {v changed : Expr} (hbound : scope.find? name = some container)
    (hreduced : container.isReduced = true) (hchanged : changed.isReduced = true) (hdistinct : container.HasDistinctKeys)
    (h : Expr.Stores v keys container changed) : StoreLaws settings name keys v scope (scope.assign name changed) := by
  have hafter : (scope.assign name changed).find? name = some changed := by rw [find?_assign, if_pos rfl]
  have hfound := h.along?_eq
  refine ⟨?_, fun hpath hsame => ?_, fun hfirst hsecond hbeginning hcontinuation => ?_, fun hkeys => ?_⟩
  · rw [along?, hafter]
    exact hfound
  · refine (evaluate_indexedBy hafter hchanged hpath _).2 v (Expr.readAlong_of_along? ?_ ?_)
    · rw [Expr.length_of_evaluateAll hpath, List.length_map]
    · rw [Expr.along?_congr hsame, hfound]
  · rw [(evaluate_indexedBy hafter hchanged hsecond _).1, (evaluate_indexedBy hbound hreduced hfirst _).1]
    refine h.readAlong_eq hbeginning hcontinuation ?_ _
    rw [Expr.length_of_evaluateAll hfirst, List.length_map]
  · obtain ⟨mark, entries, entries', hentries, hentries', hshape⟩ := h.levels hkeys
    refine ⟨mark, entries, entries', ?_, ?_, hshape, ?_⟩
    · rw [along?, hbound]
      exact hentries
    · rw [along?, hafter]
      exact hentries'
    · have hkeys := hdistinct _ _ _ hentries
      rcases hshape with ⟨earlier, candidate, held, held', later, rfl, _, rfl⟩ | ⟨_, hfresh, rfl⟩
      · simpa using hkeys
      · rw [List.map_append, List.pairwise_append]
        refine ⟨hkeys, List.pairwise_singleton _ _, fun other hother key' hkey' => ?_⟩
        obtain ⟨entry, hentry, rfl⟩ := List.mem_map.mp hother
        rw [List.mem_singleton.mp hkey']
        exact hfresh entry hentry

/-- An assignment to an entry whose value and indices evaluate ends as storing does, and binds what is stored. -/
theorem exec_assign_entry {indices keys : List Expr} {value v : Expr} {between : Output} (hindices : indices ≠ [])
    (hvalue : scope.evaluate settings value output = (.ok v, between))
    (hkeys : Expr.evaluateAll (scope.envUnder settings) indices between = (.ok keys, output'))
    (hbound : scope.find? name = some container) :
    (∀ changed, storeEntry name v keys container = .ok changed →
        (Stmt.assign name indices value).exec (envUnder settings) { scope, output } =
          (.ok none, { scope := scope.assign name changed, output := output' })) ∧
      ∀ error, storeEntry name v keys container = .error error →
        (Stmt.assign name indices value).exec (envUnder settings) { scope, output } =
          (.error error, { scope, output := output' }) := by
  have hscope : Exec.scope { scope, output := output' } = (.ok scope, { scope, output := output' }) := rfl
  have hassign : Exec.assign (envUnder settings) name indices v { scope, output := between } =
      ((storeEntry name v keys container : Exec Expr) >>= fun changed => Exec.changeScope (·.assign name changed))
        { scope, output := output' } := by
    have hisEmpty : indices.isEmpty = false := by simpa using hindices
    rw [Exec.assign, hisEmpty, if_neg Bool.false_ne_true, Run.bind_of_eq_ok (Exec.eval_of_eq hkeys),
      Run.bind_of_eq_ok hscope, hbound]
  have hexec : (Stmt.assign name indices value).exec (envUnder settings) { scope, output } =
      Run.bind (Exec.assign (envUnder settings) name indices v) (fun _ => pure none) { scope, output := between } := by
    rw [Stmt.exec, Run.bind_of_eq_ok (Exec.eval_of_eq hvalue)]
    rfl
  refine ⟨fun changed hchanged => ?_, fun error herror => ?_⟩
  · rw [hexec, Run.bind, hassign, hchanged]
    rfl
  · rw [hexec, Run.bind, hassign, herror]
    rfl

/-- An assignment to an entry obeys the laws of a store. Its value and its indices evaluate, and its variable is bound to a
tree of dictionaries without a key twice, all of them worked out. It succeeds exactly if all keys but the last lead to a
dictionary; if it fails, the scope is as before. -/
theorem entry_assignment_obeys_store_laws {indices keys : List Expr} {value v : Expr} {between : Output}
    (hindices : indices ≠ [])
    (hvalue : scope.evaluate settings value output = (.ok v, between))
    (hkeys : Expr.evaluateAll (scope.envUnder settings) indices between = (.ok keys, output'))
    (hbound : scope.find? name = some container)
    (hreduced : v.isReduced = true ∧ (∀ key ∈ keys, key.isReduced = true) ∧ container.isReduced = true)
    (hdistinct : container.HasDistinctKeys) :
    ∃ result after, (Stmt.assign name indices value).exec (envUnder settings) { scope, output } =
        (result, { scope := after, output := output' }) ∧
      (∀ error, result = .error error → after = scope) ∧
      (∀ returned, result = .ok returned → returned = none ∧ StoreLaws settings name keys v scope after) ∧
      ((∃ returned, result = .ok returned) ↔
        ∃ mark entries, scope.along? name keys.dropLast = some (.dictionary mark entries)) := by
  obtain ⟨hok, herror⟩ := exec_assign_entry hindices hvalue hkeys hbound
  have hnonempty : keys ≠ [] := by
    rintro rfl
    exact hindices (List.eq_nil_of_length_eq_zero (Expr.length_of_evaluateAll hkeys).symm)
  have hsucceeds : (∃ changed, storeEntry name v keys container = .ok changed) ↔
      ∃ mark entries, container.along? keys.dropLast = some (.dictionary mark entries) :=
    Expr.exists_storeEntry_iff hnonempty
  have halong : scope.along? name keys.dropLast = container.along? keys.dropLast := by
    rw [along?, hbound]
    rfl
  rw [← halong] at hsucceeds
  cases hstore : storeEntry name v keys container with
  | error error =>
    refine ⟨_, _, herror error hstore, fun _ _ => rfl, fun _ hreturned => ?_, ?_⟩
    · cases hreturned
    · rw [← hsucceeds, hstore]
      simp
  | ok changed =>
    have hstores := Expr.stores_of_storeEntry hstore
    have hchanged := hstores.isReduced hreduced.1 hreduced.2.1 hreduced.2.2
    refine ⟨_, _, hok changed hstore, fun _ herror => ?_, fun _ hreturned => ?_, ?_⟩
    · cases herror
    · exact ⟨(Except.ok.inj hreturned).symm, storeLaws_of_stores hbound hreduced.2.2 hchanged hdistinct hstores⟩
    · rw [← hsucceeds, hstore]
      simp

/-- A scope with a variable for dictionaries in a dictionary. -/
def withGrid : Scope :=
  let row : Expr := .dictionary {} [(.integer {} 2, .text {} "a")]
  let other : Expr := .dictionary {} [(.integer {} 4, .text {} "b")]
  Scope.global.assign "grid" (.dictionary {} [(.integer {} 1, row), (.integer {} 3, other)])

/-- The indices of an entry that is not there, the last one to be computed. -/
def newCorner : List Expr :=
  [.integer {} 3, .arithmetic {} .add (.integer {} 2) (.integer {} 3)]

/-- A new entry in the second row of the grid leaves the other entries as they were. -/
theorem entry_assignment_obeys_store_laws_newCorner :
    ∃ after, (Stmt.assign "grid" newCorner (.text {} "c")).exec (envUnder {}) { scope := withGrid, output := {} } =
        (.ok none, { scope := after, output := {} }) ∧
      StoreLaws {} "grid" [.integer {} 3, .integer {} 5] (.text {} "c") withGrid after ∧
      (after.find? "grid").map Expr.render = some "\x7b1: \x7b2: \"a\"\x7d, 3: \x7b4: \"b\", 5: \"c\"\x7d\x7d" := by
  have hvalue : withGrid.evaluate {} (.text {} "c") {} = (.ok (.text {} "c"), {}) := rfl
  have hkeys : Expr.evaluateAll (withGrid.envUnder {}) newCorner {} = (.ok [.integer {} 3, .integer {} 5], {}) := rfl
  obtain ⟨container, hbound, hnormal⟩ : ∃ container, withGrid.find? "grid" = some container ∧ container.IsNormal :=
    ⟨_, rfl, by decide +kernel⟩
  have hreduced : (∀ key ∈ [Expr.integer {} 3, .integer {} 5], key.isReduced = true) ∧ container.isReduced = true :=
    ⟨by simp [Expr.isReduced], hnormal.isReduced⟩
  let outcome := (Stmt.assign "grid" newCorner (.text {} "c")).exec (envUnder {}) { scope := withGrid, output := {} }
  have hok : outcome.1.toOption.isSome = true := by decide +kernel
  have hrender : (outcome.2.scope.find? "grid").map Expr.render =
      some "\x7b1: \x7b2: \"a\"\x7d, 3: \x7b4: \"b\", 5: \"c\"\x7d\x7d" := by decide +kernel
  obtain ⟨result, after, hexec, _, hlaws, _⟩ := entry_assignment_obeys_store_laws (List.cons_ne_nil _ _) hvalue hkeys
    hbound ⟨rfl, hreduced⟩ hnormal.hasDistinctKeys
  rw [show outcome = _ from hexec] at hok hrender
  cases result with
  | error error => cases hok
  | ok returned =>
    obtain ⟨rfl, hstored⟩ := hlaws returned rfl
    exact ⟨after, hexec, hstored, hrender⟩

end Scope

end TriggerScript
