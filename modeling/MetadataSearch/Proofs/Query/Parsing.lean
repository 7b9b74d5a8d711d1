import MetadataSearch.Proofs.Outcome
import MetadataSearch.Proofs.Query.Grammar

/-!
# The parser and the grammar

**Theorem (`parseTokens_eq_ok_iff`).** The parser takes a whole list of tokens and returns a filter iff
the list has a syntax tree with that filter in which no primary stands under more than 256 `!` and
`(`.

A reader returns its tokens with the proof that they are fewer; `front` forgets the proof, so that each
reader has plain equations. For every level there is one reader, and

- a tree is read from the front of a list, if what follows does not go on with it (`front_tree`), by
  induction on the tree, the nesting that is left going down with it;
- what a reader takes has a tree (`sound_unary`, `sound_chain`), by induction on the nesting that is
  left and, in a chain, on the number of tokens.

The nesting that is left belongs to a branch of the tree: both parts of a chain are read with that of
the chain, so siblings do not count against each other.
-/

namespace MetadataSearch.Query

/-! ## Readers without proofs -/

/-- What a reader takes and leaves. -/
def front (part : PartReader) (tokens : List Lexeme) : Except Error (Filter × List Lexeme) :=
  (part tokens).map fun p => (p.filter, p.rest)

/-- What a chain takes and leaves after its first part. -/
def onward (isConnective : Token → Bool) (join : Filter → Filter → Filter) (part : PartReader)
    (left : Filter) (tokens : List Lexeme) : Except Error (Filter × List Lexeme) :=
  (chainFrom isConnective join part left tokens).map Subtype.val

section

variable {isConnective : Token → Bool} {join : Filter → Filter → Filter} {part : PartReader}
  {left : Filter} {tokens : List Lexeme}

theorem front_chain : front (chain isConnective join part) tokens =
    front part tokens >>= fun r => onward isConnective join part r.1 r.2 := by
  rw [front, front, chain]
  cases part tokens with
  | error e => rfl
  | ok p =>
    show Except.map _ (chainFrom isConnective join part p.filter p.rest >>= _) =
      onward isConnective join part p.filter p.rest
    rw [onward]
    cases chainFrom isConnective join part p.filter p.rest <;> rfl

theorem onward_nil : onward isConnective join part left [] = .ok (left, []) := by
  rw [onward, chainFrom]
  rfl

theorem onward_stop {l : Lexeme} (h : isConnective l.token = false) :
    onward isConnective join part left (l :: tokens) = .ok (left, l :: tokens) := by
  rw [onward, chainFrom, if_neg (by rw [h]; decide)]
  rfl

theorem onward_more {l : Lexeme} (h : isConnective l.token = true) :
    onward isConnective join part left (l :: tokens) =
      front part tokens >>= fun r => onward isConnective join part (join left r.1) r.2 := by
  rw [onward, chainFrom, if_pos h, front]
  cases part tokens with
  | error e => rfl
  | ok p =>
    show Except.map _ (chainFrom isConnective join part (join left p.filter) p.rest >>= _) =
      onward isConnective join part (join left p.filter) p.rest
    rw [onward]
    cases chainFrom isConnective join part (join left p.filter) p.rest <;> rfl

end

/-! ## Unaries -/

section

variable {size depth : Nat} {start : List Char} {tokens : List Lexeme}

theorem front_not : front (unary size (depth + 1)) (⟨.not, start⟩ :: tokens) =
    (front (unary size depth) tokens).map fun r => (.not r.1, r.2) := by
  rw [front, front, unary]
  show Except.map _ (negation (unary size depth) _ tokens) = _
  rw [negation]
  cases unary size depth tokens <;> rfl

/-- What a group leaves after its parenthesis is closed. -/
def closing (size : Nat) (inner : Filter × List Lexeme) : Except Error (Filter × List Lexeme) :=
  match inner.2 with
  | ⟨.closeGroup, _⟩ :: rest => .ok (inner.1, rest)
  | rest => .error ⟨.expectedClose, offsetOf size rest⟩

theorem front_group : front (unary size (depth + 1)) (⟨.openGroup, start⟩ :: tokens) =
    front (expression (unary size depth)) tokens >>= closing size := by
  rw [front, front, unary]
  show Except.map _ (group size (unary size depth) _ tokens) = _
  rw [group]
  cases expression (unary size depth) tokens with
  | error e => rfl
  | ok p =>
    obtain ⟨f, rest, shorter⟩ := p
    cases rest with
    | nil => rfl
    | cons l rest =>
      obtain ⟨t, start⟩ := l
      cases t <;> rfl

theorem front_name {name : String} : front (unary size depth) (⟨.name name, start⟩ :: tokens) =
    (comparison size name ⟨.name name, start⟩ tokens).map fun p => (p.filter, p.rest) := by
  cases depth <;> rfl

end

/-! ## One reader a level -/

/-- The reader of a level in which `!` and `(` may still be nested `depth` times. -/
def reader (size depth : Nat) : Level → PartReader
  | .unary => unary size depth
  | .chain .and => chain Token.isAnd .and (unary size depth)
  | .chain .or => expression (unary size depth)

theorem front_reader_chain (size depth : Nat) (k : Connective) (tokens : List Lexeme) :
    front (reader size depth (.chain k)) tokens =
      front (reader size depth k.part) tokens >>= fun r =>
        onward k.isToken k.join (reader size depth k.part) r.1 r.2 := by
  cases k <;> exact front_chain

/-! ## Trees are read -/

theorem le_of_forall_map {depths : List Nat} {depth : Nat}
    (h : ∀ n ∈ depths.map (· + 1), n ≤ depth + 1) : ∀ n ∈ depths, n ≤ depth := fun n hn =>
  Nat.le_of_succ_le_succ (h (n + 1) (List.mem_map_of_mem hn))

theorem forall_map_le {depths : List Nat} {depth : Nat} (h : ∀ n ∈ depths, n ≤ depth) :
    ∀ n ∈ depths.map (· + 1), n ≤ depth + 1 := by
  intro m hm
  obtain ⟨n, hn, rfl⟩ := List.mem_map.1 hm
  exact Nat.succ_le_succ (h n hn)

/-- Every tree has a primary. -/
theorem depths_ne_nil : {level : Level} → (e : Tree level) → e.depths ≠ []
  | _, .not inner => fun h => depths_ne_nil inner (List.map_eq_nil_iff.1 h)
  | _, .group _ => List.cons_ne_nil _ _
  | _, .comparison _ => List.cons_ne_nil _ _
  | _, .one only => depths_ne_nil only
  | _, .more first _ => fun h => depths_ne_nil first (List.append_eq_nil_iff.1 h).1

/-- Under a sign there is one level of nesting less. -/
theorem exists_depth_of_map {level : Level} {e : Tree level} {depth : Nat}
    (h : ∀ n ∈ e.depths.map (· + 1), n ≤ depth) :
    ∃ less, depth = less + 1 ∧ ∀ n ∈ e.depths, n ≤ less := by
  obtain ⟨n, others, hdepths⟩ := List.exists_cons_of_ne_nil (depths_ne_nil e)
  have hn : n + 1 ≤ depth := h (n + 1) (List.mem_map_of_mem (hdepths ▸ List.mem_cons_self))
  obtain ⟨less, rfl⟩ : ∃ less, depth = less + 1 := ⟨depth - 1, by omega⟩
  exact ⟨less, rfl, le_of_forall_map h⟩

/-- The lexeme of the first token. -/
theorem exists_cons_of_map {ls : List Lexeme} {t : Token} {ts : List Token}
    (h : ls.map Lexeme.token = t :: ts) :
    ∃ start others, ls = ⟨t, start⟩ :: others ∧ others.map Lexeme.token = ts := by
  obtain ⟨⟨_, start⟩, others, rfl, rfl, hothers⟩ := List.map_eq_cons_iff.1 h
  exact ⟨start, others, rfl, hothers⟩

variable {size : Nat}

/-- A chain ends before what does not go on with it. -/
theorem onward_of_stops {k : Connective} {part : PartReader} {left : Filter} {rest : List Lexeme}
    (h : (Level.chain k).Stops (rest.map Lexeme.token)) :
    onward k.isToken k.join part left rest = .ok (left, rest) := by
  cases rest with
  | nil => exact onward_nil
  | cons l rest =>
    refine onward_stop ?_
    have hgoesOn : (Level.chain k).goesOn l.token = false := Level.stops_cons.1 h
    cases k with
    | and => exact hgoesOn
    | or => exact (Bool.or_eq_false_iff.1 hgoesOn).2

mutual

/-- A tree is read from the front of a list that does not go on with it. -/
theorem front_tree : {level : Level} → (e : Tree level) → {depth : Nat} → {ls rest : List Lexeme} →
    (∀ n ∈ e.depths, n ≤ depth) → ls.map Lexeme.token = e.tokens →
    level.Stops (rest.map Lexeme.token) →
    front (reader size depth level) (ls ++ rest) = .ok (e.filter, rest)
  | _, .not inner, depth, ls, rest, hdepth, htokens, hrest => by
    obtain ⟨less, rfl, hless⟩ := exists_depth_of_map hdepth
    obtain ⟨start, ls, rfl, hinner⟩ := exists_cons_of_map htokens
    have hread : front (unary size less) (ls ++ rest) = .ok (inner.filter, rest) :=
      front_tree inner hless hinner hrest
    rw [reader, List.cons_append, front_not, hread]
    rfl
  | _, .group inner, depth, ls, rest, hdepth, htokens, hrest => by
    obtain ⟨less, rfl, hless⟩ := exists_depth_of_map (List.forall_mem_cons.1 hdepth).2
    obtain ⟨start, ls, rfl, hmore⟩ := exists_cons_of_map htokens
    obtain ⟨ls, closed, rfl, hinner, hclosed⟩ := List.map_eq_append_iff.1 hmore
    obtain ⟨close, none, rfl, hnone⟩ := exists_cons_of_map hclosed
    obtain rfl := List.map_eq_nil_iff.1 hnone
    have hread : front (expression (unary size less)) (ls ++ ⟨.closeGroup, close⟩ :: rest) =
        .ok (inner.filter, ⟨.closeGroup, close⟩ :: rest) :=
      front_tree inner hless hinner (Level.stops_closeGroup _ _)
    rw [reader, List.cons_append, List.append_assoc, List.singleton_append, front_group, hread]
    rfl
  | _, .comparison c, depth, ls, rest, _, htokens, _ => by
    obtain ⟨start, ls, rfl, hop⟩ := exists_cons_of_map htokens
    obtain ⟨second, ls, rfl, hoperand⟩ := exists_cons_of_map hop
    obtain ⟨third, none, rfl, hnone⟩ := exists_cons_of_map hoperand
    obtain rfl := List.map_eq_nil_iff.1 hnone
    rw [reader, List.cons_append, front_name]
    rfl
  | _, .one only, depth, ls, rest, hdepth, htokens, hrest => by
    rw [front_reader_chain, front_tree only hdepth htokens (Level.stops_part hrest)]
    exact onward_of_stops hrest
  | _, .more (k := k) first others, depth, ls, rest, hdepth, htokens, hrest => by
    obtain ⟨ls, tail, rfl, hfirst, htail⟩ := List.map_eq_append_iff.1 htokens
    obtain ⟨start, tail, rfl, hothers⟩ := exists_cons_of_map htail
    have hbehind : k.part.Stops ((⟨k.token, start⟩ :: (tail ++ rest)).map Lexeme.token) :=
      Level.stops_token k _
    have hread := front_tree first (fun n hn => hdepth n (List.mem_append_left _ hn)) hfirst hbehind
    rw [front_reader_chain, List.append_assoc, List.cons_append, hread]
    exact onward_tree others (fun n hn => hdepth n (List.mem_append_right _ hn)) hothers hrest

/-- A chain goes on after its connective with the parts of a tree. -/
theorem onward_tree : {k : Connective} → (e : Tree (.chain k)) → {depth : Nat} → {before : Filter} →
    {start : List Char} → {ls rest : List Lexeme} → (∀ n ∈ e.depths, n ≤ depth) →
    ls.map Lexeme.token = e.tokens → (Level.chain k).Stops (rest.map Lexeme.token) →
    onward k.isToken k.join (reader size depth k.part) before (⟨k.token, start⟩ :: (ls ++ rest)) =
      .ok (e.filterAfter before, rest)
  | k, .one only, depth, before, start, ls, rest, hdepth, htokens, hrest => by
    rw [onward_more (Connective.isToken_iff.2 rfl),
      front_tree only hdepth htokens (Level.stops_part hrest)]
    exact onward_of_stops hrest
  | k, .more first others, depth, before, start, ls, rest, hdepth, htokens, hrest => by
    obtain ⟨ls, tail, rfl, hfirst, htail⟩ := List.map_eq_append_iff.1 htokens
    obtain ⟨next, tail, rfl, hothers⟩ := exists_cons_of_map htail
    have hbehind : k.part.Stops ((⟨k.token, next⟩ :: (tail ++ rest)).map Lexeme.token) :=
      Level.stops_token k _
    have hread := front_tree first (fun n hn => hdepth n (List.mem_append_left _ hn)) hfirst hbehind
    rw [onward_more (Connective.isToken_iff.2 rfl), List.append_assoc, List.cons_append, hread]
    exact onward_tree others (fun n hn => hdepth n (List.mem_append_right _ hn)) hothers hrest

end

/-! ## What is read has a tree -/

/-- What a reader takes, with the filter that it gives, is a tree of the level within the nesting. -/
def Sound (size depth : Nat) (level : Level) : Prop :=
  ∀ (tokens : List Lexeme) (f : Filter) (rest : List Lexeme),
    front (reader size depth level) tokens = .ok (f, rest) →
      ∃ (e : Tree level) (ls : List Lexeme), tokens = ls ++ rest ∧ ls.map Lexeme.token = e.tokens ∧
        e.filter = f ∧ ∀ n ∈ e.depths, n ≤ depth

theorem depths_append {k : Connective} {depth : Nat} {first : Tree k.part} {others : Tree (.chain k)}
    (hfirst : ∀ n ∈ first.depths, n ≤ depth) (hothers : ∀ n ∈ others.depths, n ≤ depth) :
    ∀ n ∈ (Tree.more first others).depths, n ≤ depth := by
  intro n hn
  rcases List.mem_append.1 hn with hn | hn
  · exact hfirst n hn
  · exact hothers n hn

/-- From a filter, a chain goes on with nothing, or with its connective and a tree. -/
def GoesOnTo (depth : Nat) (k : Connective) (left : Filter) (tokens : List Lexeme) (f : Filter)
    (rest : List Lexeme) : Prop :=
  (left = f ∧ tokens = rest) ∨
    ∃ (e : Tree (.chain k)) (start : List Char) (ls : List Lexeme),
      tokens = ⟨k.token, start⟩ :: (ls ++ rest) ∧ ls.map Lexeme.token = e.tokens ∧
        e.filterAfter left = f ∧ ∀ n ∈ e.depths, n ≤ depth

/-- A part and what the chain goes on with are a chain, both at the front and behind a filter. -/
theorem exists_chain {depth : Nat} {k : Connective} {first : Tree k.part}
    {ls behind rest : List Lexeme} {left f : Filter} (htokens : ls.map Lexeme.token = first.tokens)
    (hdepth : ∀ n ∈ first.depths, n ≤ depth) (h : GoesOnTo depth k left behind f rest) :
    ∃ (e : Tree (.chain k)) (more : List Lexeme), ls ++ behind = more ++ rest ∧
      more.map Lexeme.token = e.tokens ∧ (∀ n ∈ e.depths, n ≤ depth) ∧
      (left = first.filter → e.filter = f) ∧
      ∀ before, left = k.join before first.filter → e.filterAfter before = f := by
  rcases h with ⟨rfl, rfl⟩ | ⟨others, start, more, rfl, hmore, rfl, hdepths⟩
  · exact ⟨.one first, ls, rfl, htokens, hdepth, fun h => h.symm, fun _ h => h.symm⟩
  · refine ⟨.more first others, ls ++ ⟨k.token, start⟩ :: more, ?_, ?_, depths_append hdepth hdepths,
      ?_, ?_⟩
    · rw [List.append_assoc, List.cons_append]
    · rw [List.map_append, List.map_cons, htokens, hmore]
      rfl
    · rintro rfl
      rfl
    · rintro before rfl
      rfl

theorem goesOnTo_of_onward {depth : Nat} {k : Connective} (hpart : Sound size depth k.part)
    {left f : Filter} {tokens rest : List Lexeme}
    (h : onward k.isToken k.join (reader size depth k.part) left tokens = .ok (f, rest)) :
    GoesOnTo depth k left tokens f rest := by
  induction hlength : tokens.length using Nat.strongRecOn generalizing left tokens with
  | ind length ih =>
    cases tokens with
    | nil =>
      rw [onward_nil] at h
      obtain ⟨rfl, rfl⟩ := Prod.mk.inj (Except.ok.inj h)
      exact .inl ⟨rfl, rfl⟩
    | cons l tokens =>
      cases hl : k.isToken l.token with
      | false =>
        rw [onward_stop hl] at h
        obtain ⟨rfl, rfl⟩ := Prod.mk.inj (Except.ok.inj h)
        exact .inl ⟨rfl, rfl⟩
      | true =>
        rw [onward_more hl] at h
        obtain ⟨⟨g, behind⟩, hfirst, honward⟩ := Outcome.bind_eq_ok.1 h
        obtain ⟨first, ls, rfl, htokens, rfl, hdepth⟩ := hpart _ _ _ hfirst
        obtain ⟨_, start⟩ := l
        obtain rfl := Connective.isToken_iff.1 hl
        have hshorter : behind.length < length := by
          rw [← hlength, List.length_cons, List.length_append]
          omega
        obtain ⟨e, more, hls, hmore, hdepths, -, hfilter⟩ :=
          exists_chain htokens hdepth (ih behind.length hshorter honward rfl)
        exact .inr ⟨e, start, more, by rw [hls], hmore, hfilter left rfl, hdepths⟩

theorem sound_chain {depth : Nat} {k : Connective} (hpart : Sound size depth k.part) :
    Sound size depth (.chain k) := by
  intro tokens f rest h
  rw [front_reader_chain] at h
  obtain ⟨⟨g, behind⟩, hfirst, honward⟩ := Outcome.bind_eq_ok.1 h
  obtain ⟨first, ls, rfl, htokens, rfl, hdepth⟩ := hpart _ _ _ hfirst
  obtain ⟨e, more, hls, hmore, hdepths, hfilter, -⟩ :=
    exists_chain htokens hdepth (goesOnTo_of_onward hpart honward)
  exact ⟨e, more, hls, hmore, hfilter rfl, hdepths⟩

theorem sound_expression {depth : Nat} (h : Sound size depth .unary) :
    Sound size depth (.chain .or) := by
  have hand : Sound size depth (.chain .and) := sound_chain h
  exact sound_chain hand

theorem sound_name {depth : Nat} {name : String} {start : List Char} {tokens rest : List Lexeme}
    {f : Filter} (h : front (unary size depth) (⟨.name name, start⟩ :: tokens) = .ok (f, rest)) :
    ∃ (e : Tree .unary) (ls : List Lexeme), ⟨.name name, start⟩ :: tokens = ls ++ rest ∧
      ls.map Lexeme.token = e.tokens ∧ e.filter = f ∧ ∀ n ∈ e.depths, n ≤ depth := by
  rw [front_name] at h
  obtain ⟨p, hp, hresult⟩ := Outcome.map_eq_ok.1 h
  obtain ⟨rfl, rfl⟩ := Prod.mk.inj hresult
  rw [comparison.eq_def] at hp
  split at hp
  case h_1 op second operand third rest =>
    obtain rfl := Except.ok.inj hp
    refine ⟨.comparison ⟨name, op, operand⟩, [_, _, _], rfl, rfl, rfl, fun n hn => ?_⟩
    obtain rfl := List.mem_singleton.1 hn
    exact Nat.zero_le _
  all_goals cases hp

theorem exists_closing {inner : Filter × List Lexeme} {f : Filter} {rest : List Lexeme}
    (h : closing size inner = .ok (f, rest)) :
    inner.1 = f ∧ ∃ start, inner.2 = ⟨.closeGroup, start⟩ :: rest := by
  rw [closing] at h
  split at h
  case h_1 start behind hinner =>
    obtain ⟨rfl, rfl⟩ := Prod.mk.inj (Except.ok.inj h)
    exact ⟨rfl, start, hinner⟩
  case h_2 => cases h

theorem sound_unary (depth : Nat) : Sound size depth .unary := by
  induction depth with
  | zero =>
    intro tokens f rest h
    cases tokens with
    | nil => cases h
    | cons l tokens =>
      obtain ⟨t, start⟩ := l
      cases t with
      | name name => exact sound_name h
      | _ => cases h
  | succ depth ih =>
    intro tokens f rest h
    cases tokens with
    | nil => cases h
    | cons l tokens =>
      obtain ⟨t, start⟩ := l
      cases t with
      | name name => exact sound_name h
      | not =>
        rw [reader, front_not] at h
        obtain ⟨⟨g, behind⟩, hinner, hresult⟩ := Outcome.map_eq_ok.1 h
        obtain ⟨rfl, rfl⟩ := Prod.mk.inj hresult
        obtain ⟨inner, ls, rfl, htokens, rfl, hdepth⟩ := ih _ _ _ hinner
        refine ⟨.not inner, ⟨.not, start⟩ :: ls, rfl, ?_, rfl, ?_⟩
        · rw [List.map_cons, htokens]
          rfl
        · exact forall_map_le hdepth
      | openGroup =>
        rw [reader, front_group] at h
        obtain ⟨⟨g, behind⟩, hinner, hclosing⟩ := Outcome.bind_eq_ok.1 h
        obtain ⟨rfl, close, rfl⟩ := exists_closing hclosing
        obtain ⟨inner, ls, rfl, htokens, rfl, hdepth⟩ := sound_expression ih _ _ _ hinner
        refine ⟨.group inner, ⟨.openGroup, start⟩ :: (ls ++ [⟨.closeGroup, close⟩]), ?_, ?_, rfl, ?_⟩
        · rw [List.cons_append, List.append_assoc]
          rfl
        · rw [List.map_cons, List.map_append, htokens]
          rfl
        · exact List.forall_mem_cons.2 ⟨Nat.zero_le _, forall_map_le hdepth⟩
      | _ => cases h

/-! ## Whole lists -/

/-- A list with a tree is taken as a whole. -/
theorem parseTokens_of_tree (e : Tree.Expr) {lexemes : List Lexeme}
    (hdepth : ∀ n ∈ e.depths, n ≤ nestingLimit) (htokens : lexemes.map Lexeme.token = e.tokens) :
    parseTokens size lexemes = .ok e.filter := by
  have hread : front (expression (unary size nestingLimit)) (lexemes ++ []) = .ok (e.filter, []) :=
    front_tree e hdepth htokens (Level.stops_nil _)
  rw [List.append_nil] at hread
  obtain ⟨⟨f, rest, shorter⟩, hp, hresult⟩ := Outcome.map_eq_ok.1 hread
  obtain ⟨rfl, rfl⟩ := Prod.mk.inj hresult
  rw [parseTokens, hp]
  rfl

/-- A single comparison is a tree of its own. -/
theorem parseTokens_comparison {c : Comparison} {lexemes : List Lexeme}
    (h : lexemes.map Lexeme.token = [.name c.name, .comparator c.op, .value c.operand]) :
    parseTokens size lexemes = .ok (.compare c) := by
  let e : Tree.Expr := .one (.one (.comparison c))
  have hdepth : ∀ n ∈ e.depths, n ≤ nestingLimit := by
    intro n hn
    obtain rfl := List.mem_singleton.1 hn
    exact Nat.zero_le _
  exact parseTokens_of_tree e hdepth h

theorem exists_tree_of_parseTokens {lexemes : List Lexeme} {f : Filter}
    (h : parseTokens size lexemes = .ok f) :
    ∃ e : Tree.Expr, e.tokens = lexemes.map Lexeme.token ∧ e.filter = f ∧
      ∀ n ∈ e.depths, n ≤ nestingLimit := by
  obtain ⟨p, hp, h⟩ := Outcome.bind_eq_ok.1 h
  split at h
  case h_2 => cases h
  case h_1 hrest =>
    obtain rfl := Except.ok.inj h
    have hread : front (reader size nestingLimit (.chain .or)) lexemes = .ok (p.filter, []) := by
      rw [front, reader, hp, ← hrest]
      rfl
    obtain ⟨e, ls, rfl, htokens, hfilter, hdepth⟩ := sound_expression (sound_unary _) _ _ _ hread
    exact ⟨e, by rw [List.append_nil, htokens], hfilter, hdepth⟩

/-- **The parser accepts its grammar.** A list of tokens is taken as a whole, with this filter, iff it
has a tree with this filter and no primary of it stands under more than 256 signs; and it has at most
one tree, however deep. -/
theorem parseTokens_eq_ok_iff (size : Nat) (lexemes : List Lexeme) :
    (∀ f, parseTokens size lexemes = .ok f ↔
      ∃ e : Tree.Expr, e.tokens = lexemes.map Lexeme.token ∧ e.filter = f ∧
        ∀ n ∈ e.depths, n ≤ 256) ∧
    ∀ e₁ e₂ : Tree.Expr, e₁.tokens = lexemes.map Lexeme.token →
      e₂.tokens = lexemes.map Lexeme.token → e₁ = e₂ := by
  refine ⟨fun f => ⟨exists_tree_of_parseTokens, ?_⟩, fun e₁ e₂ h₁ h₂ => ?_⟩
  · rintro ⟨e, htokens, rfl, hdepth⟩
    exact parseTokens_of_tree e hdepth htokens.symm
  · exact Tree.tree_unique (h₁.trans h₂.symm)

end MetadataSearch.Query
