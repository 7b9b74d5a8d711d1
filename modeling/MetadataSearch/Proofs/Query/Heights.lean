import MetadataSearch.Proofs.Query.Parsing
import MetadataSearch.Proofs.Query.Rendering

/-!
# Heights of queries

Evaluation recurs from a filter to its parts, so its calls nest at most as deep as the filter is high.

**Theorem (`height_of_parse`).** The filter of a query is at most as high as the limit of nesting and the
number of its connectives allow, and so many nested calls are enough for `Filter.eval` and
`Filter.references`. With each run of one connective counted as one level, its height is at most 515,
whatever the query.

**Theorem (`heights_unbounded`).** The height itself has no bound, and no number of nested calls is enough
for every query. The limit counts `!` and `(`, and a chain of one connective, which may have any length,
associates to the left: its first part lies as deep as the chain is long.

Both bounds are inductions over the syntax tree of the query, where the nesting that is left goes down with
the tree. Along a chain the filter of the parts so far is the left part of what follows, so it is a
parameter (`Tree.height_filterAfter`, `Tree.levels_filterAfter`).
-/

namespace MetadataSearch.Query

namespace Filter

/-! ## Heights and nested calls -/

/-- The number of filters on the longest way down. -/
def height : Filter → Nat
  | .and left right => max left.height right.height + 1
  | .or left right => max left.height right.height + 1
  | .not inner => inner.height + 1
  | .compare _ => 1

/-- The evaluation with at most so many nested calls. It gives up where one more would be needed. -/
def evalWithin (source : Source) : Nat → Filter → Option Bool
  | 0, _ => none
  | calls + 1, .and left right =>
    match evalWithin source calls left with
    | some true => evalWithin source calls right
    | decided => decided
  | calls + 1, .or left right =>
    match evalWithin source calls left with
    | some false => evalWithin source calls right
    | decided => decided
  | calls + 1, .not inner => (evalWithin source calls inner).map (!·)
  | _ + 1, .compare c => some (c.eval source)

/-- The same for `references`. -/
def referencesWithin (name : String) : Nat → Filter → Option Bool
  | 0, _ => none
  | calls + 1, .and left right | calls + 1, .or left right =>
    match referencesWithin name calls left with
    | some false => referencesWithin name calls right
    | decided => decided
  | calls + 1, .not inner => referencesWithin name calls inner
  | _ + 1, .compare c => some (c.name == name)

theorem height_pos (f : Filter) : 0 < f.height := by
  cases f <;> exact Nat.succ_pos _

/-- As many nested calls as the filter is high are enough. -/
theorem evalWithin_of_height_le (source : Source) {f : Filter} {calls : Nat} (h : f.height ≤ calls) :
    f.evalWithin source calls = some (f.eval source) := by
  induction calls generalizing f with
  | zero => exact absurd f.height_pos (by omega)
  | succ calls ih =>
    cases f with
    | and left right | or left right =>
      rw [height] at h
      have hleft := ih (f := left) (by omega)
      have hright := ih (f := right) (by omega)
      rw [evalWithin, hleft, hright, eval]
      cases left.eval source <;> rfl
    | not inner =>
      have hinner := ih (f := inner) (Nat.le_of_succ_le_succ h)
      rw [evalWithin, hinner]
      rfl
    | compare c => rfl

theorem referencesWithin_of_height_le (name : String) {f : Filter} {calls : Nat}
    (h : f.height ≤ calls) : f.referencesWithin name calls = some (f.references name) := by
  induction calls generalizing f with
  | zero => exact absurd f.height_pos (by omega)
  | succ calls ih =>
    cases f with
    | and left right | or left right =>
      rw [height] at h
      have hleft := ih (f := left) (by omega)
      have hright := ih (f := right) (by omega)
      rw [referencesWithin, hleft, hright, references]
      cases left.references name <;> rfl
    | not inner =>
      have hinner := ih (f := inner) (Nat.le_of_succ_le_succ h)
      rw [referencesWithin, hinner]
      rfl
    | compare c => rfl

/-- The height if a run of one connective counts as one level, below a filter with this connective. -/
def levelsUnder (above : Option Connective) : Filter → Nat
  | .and left right =>
    max (left.levelsUnder (some .and)) (right.levelsUnder (some .and)) +
      if above = some .and then 0 else 1
  | .or left right =>
    max (left.levelsUnder (some .or)) (right.levelsUnder (some .or)) +
      if above = some .or then 0 else 1
  | .not inner => inner.levelsUnder none + 1
  | .compare _ => 1

/-- The height if a run of one connective counts as one level. -/
def levels (f : Filter) : Nat := f.levelsUnder none

theorem height_join (k : Connective) (left right : Filter) :
    (k.join left right).height = max left.height right.height + 1 := by
  cases k <;> rfl

theorem levelsUnder_join (above : Option Connective) (k : Connective) (left right : Filter) :
    (k.join left right).levelsUnder above =
      max (left.levelsUnder (some k)) (right.levelsUnder (some k)) +
        if above = some k then 0 else 1 := by
  cases k <;> rfl

/-- What is above a filter matters for one level at most. -/
theorem levelsUnder_le_succ (above other : Option Connective) (f : Filter) :
    f.levelsUnder above ≤ f.levelsUnder other + 1 := by
  cases f with
  | and left right | or left right =>
    simp only [levelsUnder]
    split <;> omega
  | not inner => exact Nat.le_succ _
  | compare c => exact Nat.le_succ _

end Filter

/-! ## Bounds from the syntax tree -/

def Token.isConnective (t : Token) : Bool := t.isAnd || t.isOr

/-- The number of `&&` and `||`. -/
def connectives (tokens : List Token) : Nat := tokens.countP Token.isConnective

theorem connectives_append (front back : List Token) :
    connectives (front ++ back) = connectives front + connectives back := List.countP_append

theorem connectives_token (k : Connective) (tokens : List Token) :
    connectives (k.token :: tokens) = connectives tokens + 1 := by
  cases k <;> exact List.countP_cons_of_pos rfl

namespace Tree

mutual

/-- Every connective and every sign makes a filter higher by one. -/
theorem height_filter : {level : Level} → (e : Tree level) → {depth : Nat} →
    (∀ n ∈ e.depths, n ≤ depth) → e.filter.height ≤ depth + 1 + connectives e.tokens
  | _, .not inner, depth, h => by
    obtain ⟨less, rfl, hless⟩ := exists_depth_of_map h
    have hinner := height_filter inner hless
    have htokens : connectives (Tree.not inner).tokens = connectives inner.tokens :=
      List.countP_cons_of_neg (by decide)
    rw [filter, Filter.height, htokens]
    omega
  | _, .group inner, depth, h => by
    obtain ⟨less, rfl, hless⟩ := exists_depth_of_map (List.forall_mem_cons.1 h).2
    have hinner := height_filter inner hless
    have htokens : connectives (Tree.group inner).tokens = connectives inner.tokens := by
      rw [tokens, connectives, List.countP_cons_of_neg (by decide)]
      exact (connectives_append _ _).trans (Nat.add_zero _)
    rw [filter, htokens]
    omega
  | _, .comparison c, depth, _ => by
    rw [filter, Filter.height]
    omega
  | _, .one only, depth, h => height_filter only h
  | _, .more (k := k) first others, depth, h => by
    have hfirst := height_filter first fun n hn => h n (List.mem_append_left _ hn)
    have hothers := height_filterAfter others (fun n hn => h n (List.mem_append_right _ hn))
      first.filter
    rw [filter, tokens, connectives_append, connectives_token]
    omega

theorem height_filterAfter : {k : Connective} → (e : Tree (.chain k)) → {depth : Nat} →
    (∀ n ∈ e.depths, n ≤ depth) → (before : Filter) →
    (e.filterAfter before).height ≤ max before.height (depth + 1) + connectives e.tokens + 1
  | k, .one only, depth, h, before => by
    have honly := height_filter only h
    rw [filterAfter, Filter.height_join, tokens]
    omega
  | k, .more first others, depth, h, before => by
    have hfirst := height_filter first fun n hn => h n (List.mem_append_left _ hn)
    have hothers := height_filterAfter others (fun n hn => h n (List.mem_append_right _ hn))
      (k.join before first.filter)
    rw [Filter.height_join] at hothers
    rw [filterAfter, tokens, connectives_append, connectives_token]
    omega

end

/-- The levels of a part within the nesting. Each sign adds a chain of either connective. -/
def levelLimit (depth : Nat) : Level → Nat
  | .unary => 2 * depth + 1
  | .chain .and => 2 * depth + 2
  | .chain .or => 2 * depth + 3

theorem levelLimit_chain (depth : Nat) (k : Connective) :
    levelLimit depth (.chain k) = levelLimit depth k.part + 1 := by
  cases k <;> rfl

mutual

/-- A chain adds one level to its parts. -/
theorem levels_filter : {level : Level} → (e : Tree level) → {depth : Nat} →
    (∀ n ∈ e.depths, n ≤ depth) → (above : Option Connective) →
    e.filter.levelsUnder above ≤ levelLimit depth level
  | _, .not inner, depth, h, above => by
    obtain ⟨less, rfl, hless⟩ := exists_depth_of_map h
    have hinner : _ ≤ 2 * less + 1 := levels_filter inner hless none
    rw [filter, Filter.levelsUnder, levelLimit]
    omega
  | _, .group inner, depth, h, above => by
    obtain ⟨less, rfl, hless⟩ := exists_depth_of_map (List.forall_mem_cons.1 h).2
    have hinner : _ ≤ 2 * less + 3 := levels_filter inner hless above
    rw [filter, levelLimit]
    omega
  | _, .comparison c, depth, _, above => by
    rw [filter, Filter.levelsUnder, levelLimit]
    omega
  | _, .one (k := k) only, depth, h, above => by
    have honly := levels_filter only h above
    rw [filter, levelLimit_chain]
    omega
  | _, .more (k := k) first others, depth, h, above => by
    have hfirst := levels_filter first (fun n hn => h n (List.mem_append_left _ hn)) (some k)
    have hothers := levels_filterAfter others (fun n hn => h n (List.mem_append_right _ hn))
      first.filter
    have habove := (others.filterAfter first.filter).levelsUnder_le_succ above (some k)
    rw [filter, levelLimit_chain]
    omega

theorem levels_filterAfter : {k : Connective} → (e : Tree (.chain k)) → {depth : Nat} →
    (∀ n ∈ e.depths, n ≤ depth) → (before : Filter) →
    (e.filterAfter before).levelsUnder (some k) ≤
      max (before.levelsUnder (some k)) (levelLimit depth k.part)
  | k, .one only, depth, h, before => by
    have honly := levels_filter only h (some k)
    rw [filterAfter, Filter.levelsUnder_join, if_pos rfl]
    omega
  | k, .more first others, depth, h, before => by
    have hfirst := levels_filter first (fun n hn => h n (List.mem_append_left _ hn)) (some k)
    have hothers := levels_filterAfter others (fun n hn => h n (List.mem_append_right _ hn))
      (k.join before first.filter)
    rw [Filter.levelsUnder_join, if_pos rfl] at hothers
    rw [filterAfter]
    omega

end

end Tree

/-! ## Queries -/

open Written

variable {now : Instant}

theorem exists_tree_of_parse {query : String} {f : Filter} (h : parse now query = .ok f) :
    ∃ lexemes, lex now query.toList = .ok lexemes ∧
      ∃ e : Tree.Expr, e.tokens = lexemes.map Lexeme.token ∧ e.filter = f ∧
        ∀ n ∈ e.depths, n ≤ nestingLimit := by
  obtain ⟨lexemes, hlex, hparse⟩ := Outcome.bind_eq_ok.1 h
  exact ⟨lexemes, hlex, exists_tree_of_parseTokens hparse⟩

/-- A written query gives the tokens of its elements. -/
theorem lex_textOf {pieces : List (Piece now)} (h : Apart pieces) :
    ∃ lexemes, lex now (textOf pieces) = .ok lexemes ∧
      lexemes.map Lexeme.token = pieces.map fun p => p.element.token := by
  obtain ⟨lexemes, hlex, hmap⟩ := lexFrom_textOf h [] rfl
  refine ⟨lexemes, hlex, List.ext_getElem? fun i => ?_⟩
  have hi := congrArg (fun l => l[i]?.map Prod.fst) hmap
  simpa only [List.getElem?_map, List.getElem?_mapIdx, Option.map_map, Function.comp_def] using hi

theorem blanks_space : Blanks [' '] := List.all_eq_true.1 rfl

def spaced (e : Element now) : Piece now := ⟨e, [' '], blanks_space⟩

/-- The query in which a space stands behind every element. -/
def spacedQuery (elements : List (Element now)) : String :=
  String.ofList (textOf (elements.map spaced))

theorem apart_spaced (elements : List (Element now)) : Apart (elements.map spaced) := by
  intro p hp
  obtain ⟨e, -, rfl⟩ := List.mem_map.1 (List.dropLast_subset _ hp)
  exact List.cons_ne_nil _ _

/-- A written query that has a tree gives its filter. -/
theorem parse_spacedQuery (e : Tree.Expr) (hdepth : ∀ n ∈ e.depths, n ≤ nestingLimit)
    {elements : List (Element now)} (htokens : elements.map Element.token = e.tokens) :
    parse now (spacedQuery elements) = .ok e.filter := by
  obtain ⟨lexemes, hlex, hlexemes⟩ := lex_textOf (apart_spaced elements)
  rw [parse, spacedQuery, String.toList_ofList, hlex]
  refine parseTokens_of_tree e hdepth (hlexemes.trans ?_)
  rw [List.map_map]
  exact htokens

/-- **The limit of nesting bounds a filter up to its chains.** It is at most as high as the limit and
the connectives of its query allow, and evaluating it takes no more nested calls; and with each chain
counted as one level its height has a bound of its own. -/
theorem height_of_parse {query : String} {f : Filter} (h : parse now query = .ok f) :
    ∃ lexemes, lex now query.toList = .ok lexemes ∧
      f.height ≤ 257 + connectives (lexemes.map Lexeme.token) ∧
      f.levels ≤ 515 ∧
      (∀ source calls, f.height ≤ calls → f.evalWithin source calls = some (f.eval source)) ∧
      ∀ name calls, f.height ≤ calls → f.referencesWithin name calls = some (f.references name) := by
  obtain ⟨lexemes, hlex, e, htokens, rfl, hdepth⟩ := exists_tree_of_parse h
  refine ⟨lexemes, hlex, ?_, ?_, ?_, ?_⟩
  · rw [← htokens]
    exact e.height_filter hdepth
  · exact e.levels_filter hdepth none
  · exact fun source _ hcalls => Filter.evalWithin_of_height_le source hcalls
  · exact fun name _ hcalls => Filter.referencesWithin_of_height_le name hcalls

/-- `kind = ''` -/
def noKind : Comparison := ⟨"kind", .eq, .text (.known [] false false)⟩

def noKindElements : List (Element now) :=
  [.name ⟨'k', ['i', 'n', 'd'], rfl, List.all_eq_true.1 rfl⟩, .sign .singleEquals,
    .string ⟨'\'', [], [], rfl, by simp⟩]

/-- `!(kind = '' || kind = '') && kind = ''` -/
def notEither : Tree.Expr :=
  .one (.more (.not (.group (.more (.one (.comparison noKind))
    (.one (.one (.comparison noKind)))))) (.one (.comparison noKind)))

def notEitherElements : List (Element now) :=
  .sign .not :: .sign .openGroup :: noKindElements ++ .sign .or :: noKindElements ++
    .sign .closeGroup :: .sign .and :: noKindElements

theorem height_of_parse_notEither :
    parse ⟨0, 0⟩ "! ( kind = '' || kind = '' ) && kind = '' " = .ok notEither.filter ∧
      ∃ lexemes, lex ⟨0, 0⟩ "! ( kind = '' || kind = '' ) && kind = '' ".toList = .ok lexemes ∧
        notEither.filter.height ≤ 257 + connectives (lexemes.map Lexeme.token) ∧
        notEither.filter.levels ≤ 515 ∧
        (∀ source, notEither.filter.evalWithin source 4 = some (notEither.filter.eval source)) ∧
        notEither.filter.referencesWithin "kind" 4 = some true := by
  have hquery : spacedQuery (notEitherElements : List (Element ⟨0, 0⟩)) =
      "! ( kind = '' || kind = '' ) && kind = '' " := rfl
  have hparse : parse ⟨0, 0⟩ "! ( kind = '' || kind = '' ) && kind = '' " = .ok notEither.filter :=
    hquery ▸ parse_spacedQuery notEither (by decide) rfl
  obtain ⟨lexemes, hlex, hheight, hlevels, heval, hreferences⟩ := height_of_parse hparse
  exact ⟨hparse, lexemes, hlex, hheight, hlevels, fun source => heval source 4 (by decide),
    hreferences "kind" 4 (by decide)⟩

/-! ## Chains -/

/-- A chain of one comparison and `n` more of them. -/
def orChain (c : Comparison) : Nat → Tree.Expr
  | 0 => .one (.one (.comparison c))
  | n + 1 => .more (.one (.comparison c)) (orChain c n)

/-- The filter of a chain: its first comparison lies deepest. -/
def orSpine (c : Comparison) : Nat → Filter
  | 0 => .compare c
  | n + 1 => .or (orSpine c n) (.compare c)

theorem filterAfter_orChain (c : Comparison) (n m : Nat) :
    (orChain c m).filterAfter (orSpine c n) = orSpine c (n + m + 1) := by
  induction m generalizing n with
  | zero => rfl
  | succ m ih =>
    have hsum : n + (m + 1) + 1 = n + 1 + m + 1 := by omega
    rw [hsum]
    exact ih (n + 1)

theorem filter_orChain (c : Comparison) (n : Nat) : (orChain c n).filter = orSpine c n := by
  cases n with
  | zero => rfl
  | succ n =>
    have hafter := filterAfter_orChain c 0 n
    rwa [Nat.zero_add] at hafter

theorem depths_orChain (c : Comparison) (n : Nat) : ∀ d ∈ (orChain c n).depths, d ≤ nestingLimit := by
  have hone : ∀ d ∈ (Tree.one (k := .and) (.comparison c)).depths, d ≤ nestingLimit := fun d hd => by
    obtain rfl := List.mem_singleton.1 hd
    exact Nat.zero_le _
  induction n with
  | zero => exact hone
  | succ n ih => exact depths_append hone ih

theorem height_orSpine (c : Comparison) (n : Nat) : (orSpine c n).height = n + 1 := by
  induction n with
  | zero => rfl
  | succ n ih =>
    rw [orSpine, Filter.height, Filter.height, ih]
    omega

theorem evalWithin_orSpine (source : Source) (c : Comparison) (n : Nat) :
    (orSpine c n).evalWithin source n = none := by
  induction n with
  | zero => rfl
  | succ n ih => rw [orSpine, Filter.evalWithin, ih]

theorem referencesWithin_orSpine (name : String) (c : Comparison) (n : Nat) :
    (orSpine c n).referencesWithin name n = none := by
  induction n with
  | zero => rfl
  | succ n ih => rw [orSpine, Filter.referencesWithin, ih]

/-- `kind = '' || kind = '' || …` -/
def orElements : Nat → List (Element now)
  | 0 => noKindElements
  | n + 1 => noKindElements ++ .sign .or :: orElements n

theorem map_token_orElements (n : Nat) :
    (orElements n : List (Element now)).map Element.token = (orChain noKind n).tokens := by
  induction n with
  | zero => rfl
  | succ n ih =>
    rw [orElements, List.map_append, List.map_cons, ih]
    rfl

theorem parse_orElements (now : Instant) (n : Nat) :
    parse now (spacedQuery (orElements n : List (Element now))) = .ok (orSpine noKind n) := by
  rw [parse_spacedQuery (orChain noKind n) (depths_orChain noKind n) (map_token_orElements n),
    filter_orChain]

/-- **Heights have no bound.** No height is that of the highest filter, and no number of nested calls is
enough for all of them. -/
theorem heights_unbounded :
    (¬ ∃ bound, ∀ now query f, parse now query = .ok f → f.height ≤ bound) ∧
    (¬ ∃ calls, ∀ now query f, parse now query = .ok f → ∀ source,
      f.evalWithin source calls = some (f.eval source)) ∧
    ¬ ∃ calls, ∀ now query f, parse now query = .ok f → ∀ name,
      f.referencesWithin name calls = some (f.references name) := by
  refine ⟨?_, ?_, ?_⟩
  · rintro ⟨bound, h⟩
    have hheight := h ⟨0, 0⟩ _ _ (parse_orElements ⟨0, 0⟩ bound)
    rw [height_orSpine] at hheight
    omega
  · rintro ⟨calls, h⟩
    have heval := h ⟨0, 0⟩ _ _ (parse_orElements ⟨0, 0⟩ calls) fun _ => none
    rw [evalWithin_orSpine] at heval
    cases heval
  · rintro ⟨calls, h⟩
    have hreferences := h ⟨0, 0⟩ _ _ (parse_orElements ⟨0, 0⟩ calls) "kind"
    rw [referencesWithin_orSpine] at hreferences
    cases hreferences

end MetadataSearch.Query
