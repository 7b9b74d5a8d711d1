import MetadataSearch.Proofs.Query.Lexing
import MetadataSearch.Proofs.Query.Parsing

/-!
# Offsets into a query

**Theorem (`offsets_of_query`).** The offsets of the tokens of a query increase strictly, and each is the
number of bytes before the first character of its token. When a query is refused, the offset of the error
is at most its size in bytes and lies on a boundary of its characters.

A position is what is left of the query, so a token has one as long as its text is an end of the query.
Each scanner keeps within the text that it is given (`Stays`): what it leaves is an end of it, and an error
lies on one of its boundaries. The lexer goes on with what a scanner left, from which both facts follow for
all tokens by induction along the query.

The parser adds no position of its own. By induction on the nesting that is left, as in `sound_unary`, the
error of a reader is at one of its tokens or at the end of the query (`Points`).
-/

namespace MetadataSearch.Query

/-! ## Boundaries -/

/-- Between two characters, or at an end, of the text: so many bytes after its start. -/
def IsBoundary (text : List Char) (offset : Nat) : Prop :=
  ∃ before after, text = before ++ after ∧ Text.byteSize before = offset

theorem isBoundary_zero (text : List Char) : IsBoundary text 0 := ⟨[], text, rfl, rfl⟩

theorem isBoundary_append (before after : List Char) :
    IsBoundary (before ++ after) (Text.byteSize before) := ⟨before, after, rfl, rfl⟩

theorem isBoundary_size (text : List Char) : IsBoundary text (Text.byteSize text) :=
  ⟨text, [], (List.append_nil text).symm, rfl⟩

/-- A boundary of what is left of a text is one of the text. -/
theorem IsBoundary.behind {text : List Char} {distance : Nat} (h : IsBoundary text distance)
    (before : List Char) : IsBoundary (before ++ text) (Text.byteSize before + distance) := by
  obtain ⟨front, back, rfl, rfl⟩ := h
  rw [← Text.byteSize_append, ← List.append_assoc]
  exact isBoundary_append (before ++ front) back

theorem isBoundary_offsetAt {query text : List Char} (h : text <:+ query) :
    IsBoundary query (offsetAt (Text.byteSize query) text) := by
  obtain ⟨before, rfl⟩ := h
  rw [offsetAt_append]
  exact isBoundary_append before text

theorem byteSize_toList (s : String) : Text.byteSize s.toList = s.utf8ByteSize := by
  have hsize : ∀ text : List Char, Text.byteSize text = (String.ofList text).utf8ByteSize := by
    intro text
    induction text with
    | nil => rfl
    | cons c text ih =>
      rw [String.ofList_cons, String.utf8ByteSize_append, String.utf8ByteSize_singleton, ← ih]
      rfl
  rw [hsize, String.ofList_toList]

/-! ## Scanners -/

variable {now : Instant}

theorem suffix_of_scanQuoted? {quote : Char} {text content rest : List Char}
    (h : scanQuoted? quote text = some (content, rest)) : rest <:+ text := by
  fun_induction scanQuoted? quote text generalizing content rest with
  | case1 => cases h
  | case2 => cases h
  | case3 d after ih =>
    obtain ⟨⟨content, rest⟩, hmore, heq⟩ := Option.map_eq_some_iff.1 h
    obtain ⟨-, rfl⟩ := Prod.mk.inj heq
    exact ((ih hmore).trans (List.suffix_cons d after)).trans (List.suffix_cons _ _)
  | case4 after =>
    obtain ⟨-, rfl⟩ := Prod.mk.inj (Option.some.inj h)
    exact List.suffix_cons quote after
  | case5 d after hd hquote ih =>
    obtain ⟨⟨content, rest⟩, hmore, heq⟩ := Option.map_eq_some_iff.1 h
    obtain ⟨-, rfl⟩ := Prod.mk.inj heq
    exact (ih hmore).trans (List.suffix_cons d after)

/-- A scanner on a part of a query: what it leaves is the end of that part, and an error lies on a
boundary of it. -/
def Stays {α : Type} (text : List Char) (scan : Scan α) : Prop :=
  match scan with
  | .ok (_, rest) => rest <:+ text
  | .error (_, distance) => IsBoundary text distance

theorem stays_error {α : Type} (text : List Char) (cause : Cause) :
    Stays text (.error (cause, 0) : Scan α) := isBoundary_zero text

theorem stays_scanString (first quote : Char) (text : List Char) :
    Stays (first :: text) (scanString quote text) := by
  unfold scanString
  split
  · exact stays_error _ _
  · next content rest hquoted =>
    split
    · exact stays_error _ _
    · have hrest : rest <:+ first :: text :=
        (suffix_of_scanQuoted? hquoted).trans (List.suffix_cons first text)
      exact (List.dropWhile_suffix Char.isAlpha).trans hrest

theorem stays_scanNumber (first : Char) (text : List Char) :
    Stays (first :: text) (scanNumber first text) := by
  unfold scanNumber
  dsimp only
  split
  · exact (List.dropWhile_suffix isNumeralChar).trans (List.suffix_cons first text)
  · exact stays_error _ _

theorem suffix_of_scanArgument {text rest : List Char} {argument : Option (List Char)}
    (h : scanArgument text = some (argument, rest)) : rest <:+ text := by
  unfold scanArgument at h
  split at h
  · next inside =>
    split at h
    · next c after hdrop =>
      obtain ⟨-, rfl⟩ := Prod.mk.inj (Option.some.inj h)
      have hclose : c :: after <:+ inside := hdrop ▸ List.dropWhile_suffix (· != ')')
      exact ((List.suffix_cons c after).trans hclose).trans (List.suffix_cons '(' inside)
    · cases h
  · obtain ⟨-, rfl⟩ := Prod.mk.inj (Option.some.inj h)
    exact List.suffix_refl text

/-- A call that is not closed is refused where it opens, which is behind the dollar sign and the name. -/
theorem stays_scanTime (text : List Char) : Stays ('$' :: text) (scanTime now text) := by
  unfold scanTime
  dsimp only
  split
  · exact stays_error _ _
  · split
    · have hsplit : '$' :: text =
          ('$' :: text.takeWhile isNameChar) ++ text.dropWhile isNameChar := by
        rw [List.cons_append, List.takeWhile_append_dropWhile]
      rw [hsplit]
      exact isBoundary_append _ _
    · next argument rest hargument =>
      split
      · have hrest : rest <:+ text :=
          (suffix_of_scanArgument hargument).trans (List.dropWhile_suffix isNameChar)
        exact hrest.trans (List.suffix_cons '$' text)
      · exact stays_error _ _

/-- **Every scanner stays within the text it is given.** -/
theorem stays_scanToken (c : Char) (rest : List Char) :
    Stays (c :: rest) (scanToken now c rest) := by
  have hfirst : rest <:+ c :: rest := List.suffix_cons c rest
  unfold scanToken
  split
  case h_13 => exact stays_scanString _ _ _
  case h_14 => exact stays_scanString _ _ _
  case h_15 => exact stays_scanTime rest
  case h_16 =>
    split
    · exact stays_scanNumber c rest
    · split
      · exact (List.dropWhile_suffix isNameChar).trans hfirst
      · exact stays_error _ _
  -- Signs are taken with one character or with two.
  all_goals first | exact hfirst | exact (List.suffix_cons _ _).trans hfirst

/-! ## Tokens -/

theorem byteSize_le_of_suffix {text query : List Char} (h : text <:+ query) :
    Text.byteSize text ≤ Text.byteSize query := by
  obtain ⟨before, rfl⟩ := h
  rw [Text.byteSize_append]
  exact Nat.le_add_left _ _

theorem byteSize_lt_cons (c : Char) (rest : List Char) :
    Text.byteSize rest < Text.byteSize (c :: rest) :=
  Nat.lt_add_of_pos_left c.utf8Size_pos

/-- What a token leaves is shorter than what it starts with. -/
theorem suffix_of_scanToken {c : Char} {rest after : List Char} {t : Token}
    (h : scanToken now c rest = .ok (t, after)) : after <:+ rest := by
  have hstays : Stays (c :: rest) (scanToken now c rest) := stays_scanToken c rest
  rw [h] at hstays
  rcases List.suffix_cons_iff.1 hstays with rfl | hsuffix
  · exact absurd (length_le_of_scanToken h) (Nat.not_succ_le_self _)
  · exact hsuffix

/-- The lexeme is at the end of the text from its first character on, which is no blank, and that is
where its token was scanned. -/
def Lexeme.StandsIn (now : Instant) (text : List Char) (l : Lexeme) : Prop :=
  ∃ c rest after, l.start = c :: rest ∧ l.start <:+ text ∧ Text.isBlank c = false ∧
    scanToken now c rest = .ok (l.token, after)

theorem Lexeme.StandsIn.behind {text longer : List Char} {l : Lexeme} (h : l.StandsIn now text)
    (hsuffix : text <:+ longer) : l.StandsIn now longer := by
  obtain ⟨c, rest, after, hstart, hend, hblank, hscan⟩ := h
  exact ⟨c, rest, after, hstart, hend.trans hsuffix, hblank, hscan⟩

/-- **Tokens stand one behind the other.** -/
theorem standsIn_of_lexFrom {size : Nat} {text : List Char} {lexemes : List Lexeme}
    (h : lexFrom now size text = .ok lexemes) :
    (∀ l ∈ lexemes, l.StandsIn now text) ∧
      lexemes.Pairwise fun l m => Text.byteSize m.start < Text.byteSize l.start := by
  induction text using lexFrom.induct now generalizing lexemes with
  | case1 =>
    rw [lexFrom_nil] at h
    obtain rfl := Except.ok.inj h
    exact ⟨fun l hl => absurd hl List.not_mem_nil, List.Pairwise.nil⟩
  | case2 c rest hblank ih =>
    rw [lexFrom_blank hblank] at h
    obtain ⟨hstands, hsorted⟩ := ih h
    exact ⟨fun l hl => (hstands l hl).behind (List.suffix_cons c rest), hsorted⟩
  | case3 c rest hblank cause distance hscan =>
    rw [lexFrom_error (Bool.eq_false_iff.2 hblank) hscan] at h
    cases h
  | case4 c rest hblank t after hscan hlength ih =>
    rw [lexFrom_token (Bool.eq_false_iff.2 hblank) hscan] at h
    obtain ⟨more, hmore, rfl⟩ := Outcome.map_eq_ok.1 h
    obtain ⟨hstands, hsorted⟩ := ih hmore
    have hafter : after <:+ rest := suffix_of_scanToken hscan
    refine ⟨?_, List.pairwise_cons.2 ⟨fun m hm => ?_, hsorted⟩⟩
    · intro l hl
      rcases List.mem_cons.1 hl with rfl | hl
      · exact ⟨c, rest, after, rfl, List.suffix_refl _, Bool.eq_false_iff.2 hblank, hscan⟩
      · exact (hstands l hl).behind (hafter.trans (List.suffix_cons c rest))
    · obtain ⟨_, _, _, -, hend, -⟩ := hstands m hm
      exact Nat.lt_of_le_of_lt (byteSize_le_of_suffix (hend.trans hafter)) (byteSize_lt_cons c rest)

theorem isBoundary_of_lexFrom {query text : List Char} {e : Error} (htext : text <:+ query)
    (h : lexFrom now (Text.byteSize query) text = .error e) : IsBoundary query e.offset := by
  induction text using lexFrom.induct now generalizing e with
  | case1 =>
    rw [lexFrom_nil] at h
    cases h
  | case2 c rest hblank ih =>
    rw [lexFrom_blank hblank] at h
    exact ih ((List.suffix_cons c rest).trans htext) h
  | case3 c rest hblank cause distance hscan =>
    rw [lexFrom_error (Bool.eq_false_iff.2 hblank) hscan] at h
    obtain rfl := Except.error.inj h
    have hstays : Stays (c :: rest) (scanToken now c rest) := stays_scanToken c rest
    rw [hscan] at hstays
    obtain ⟨before, rfl⟩ := htext
    rw [offsetAt_append]
    exact IsBoundary.behind hstays before
  | case4 c rest hblank t after hscan hlength ih =>
    rw [lexFrom_token (Bool.eq_false_iff.2 hblank) hscan] at h
    have hafter : after <:+ c :: rest := (suffix_of_scanToken hscan).trans (List.suffix_cons c rest)
    exact ih (hafter.trans htext) (Outcome.map_eq_error.1 h)

/-! ## Errors of the parser -/

/-- The error is at one of the tokens, or at the end of the query. -/
def PointsAt (size : Nat) (tokens : List Lexeme) (e : Error) : Prop :=
  e.offset = size ∨ ∃ l ∈ tokens, e.offset = offsetAt size l.start

variable {size depth : Nat} {tokens : List Lexeme} {e : Error}

theorem PointsAt.mono {others : List Lexeme} (h : PointsAt size tokens e)
    (hsubset : tokens ⊆ others) : PointsAt size others e := by
  rcases h with hend | ⟨l, hl, hoffset⟩
  · exact .inl hend
  · exact .inr ⟨l, hsubset hl, hoffset⟩

theorem pointsAt_offsetOf (cause : Cause) (size : Nat) (tokens : List Lexeme) :
    PointsAt size tokens ⟨cause, offsetOf size tokens⟩ := by
  cases tokens with
  | nil => exact .inl rfl
  | cons l tokens => exact .inr ⟨l, List.mem_cons_self, rfl⟩

/-- The errors of a reader are at its tokens, or at the end. -/
def Points (size depth : Nat) (level : Level) : Prop :=
  ∀ tokens e, front (reader size depth level) tokens = .error e → PointsAt size tokens e

theorem pointsAt_onward {k : Connective} {left : Filter} (hsound : Sound size depth k.part)
    (hpoints : Points size depth k.part)
    (h : onward k.isToken k.join (reader size depth k.part) left tokens = .error e) :
    PointsAt size tokens e := by
  induction hlength : tokens.length using Nat.strongRecOn generalizing left tokens with
  | ind length ih =>
    cases tokens with
    | nil =>
      rw [onward_nil] at h
      cases h
    | cons l tokens =>
      cases hl : k.isToken l.token with
      | false =>
        rw [onward_stop hl] at h
        cases h
      | true =>
        rw [onward_more hl] at h
        rcases Outcome.bind_eq_error.1 h with hpart | ⟨⟨f, behind⟩, hpart, honward⟩
        · exact (hpoints _ _ hpart).mono (List.subset_cons_self l tokens)
        · obtain ⟨_, ls, rfl, -⟩ := hsound _ _ _ hpart
          have hshorter : behind.length < length := by
            rw [← hlength, List.length_cons, List.length_append]
            omega
          exact (ih behind.length hshorter honward rfl).mono
            (List.Subset.trans (List.subset_append_right ls behind) (List.subset_cons_self l _))

theorem points_chain {k : Connective} (hsound : Sound size depth k.part)
    (hpoints : Points size depth k.part) : Points size depth (.chain k) := by
  intro tokens e h
  rw [front_reader_chain] at h
  rcases Outcome.bind_eq_error.1 h with hpart | ⟨⟨f, behind⟩, hpart, honward⟩
  · exact hpoints _ _ hpart
  · obtain ⟨_, ls, rfl, -⟩ := hsound _ _ _ hpart
    exact (pointsAt_onward hsound hpoints honward).mono (List.subset_append_right ls behind)

theorem points_expression (hpoints : Points size depth .unary) : Points size depth (.chain .or) := by
  have hsound : Sound size depth .unary := sound_unary depth
  have hand : Points size depth (.chain .and) := points_chain hsound hpoints
  exact points_chain (sound_chain hsound : Sound size depth (.chain .and)) hand

theorem pointsAt_comparison {name : String} {first : Lexeme}
    (h : comparison size name first tokens = .error e) : PointsAt size tokens e := by
  rw [comparison.eq_def] at h
  split at h
  · cases h
  · obtain rfl := Except.error.inj h
    exact (pointsAt_offsetOf _ size _).mono (List.subset_cons_self _ _)
  · obtain rfl := Except.error.inj h
    exact pointsAt_offsetOf _ size _

theorem pointsAt_closing {inner : Filter × List Lexeme} (h : closing size inner = .error e) :
    PointsAt size inner.2 e := by
  rw [closing] at h
  split at h
  · cases h
  · obtain rfl := Except.error.inj h
    exact pointsAt_offsetOf _ size _

theorem points_unary (depth : Nat) : Points size depth .unary := by
  have hname : ∀ {depth name start tokens e},
      front (unary size depth) (⟨.name name, start⟩ :: tokens) = .error e →
        PointsAt size (⟨.name name, start⟩ :: tokens) e := fun h => by
    rw [front_name] at h
    exact (pointsAt_comparison (Outcome.map_eq_error.1 h)).mono (List.subset_cons_self _ _)
  induction depth with
  | zero =>
    intro tokens e h
    cases tokens with
    | nil =>
      obtain rfl := Except.error.inj h
      exact .inl rfl
    | cons l tokens =>
      obtain ⟨t, start⟩ := l
      cases t with
      | name name => exact hname h
      | not | openGroup =>
        obtain rfl := Except.error.inj h
        exact (pointsAt_offsetOf _ size tokens).mono (List.subset_cons_self _ _)
      | _ =>
        obtain rfl := Except.error.inj h
        exact .inr ⟨_, List.mem_cons_self, rfl⟩
  | succ depth ih =>
    intro tokens e h
    cases tokens with
    | nil =>
      obtain rfl := Except.error.inj h
      exact .inl rfl
    | cons l tokens =>
      obtain ⟨t, start⟩ := l
      cases t with
      | name name => exact hname h
      | not =>
        rw [reader, front_not] at h
        exact (ih _ _ (Outcome.map_eq_error.1 h)).mono (List.subset_cons_self _ _)
      | openGroup =>
        rw [reader, front_group] at h
        rcases Outcome.bind_eq_error.1 h with hinner | ⟨⟨f, behind⟩, hinner, hclosing⟩
        · exact (points_expression ih _ _ hinner).mono (List.subset_cons_self _ _)
        · obtain ⟨_, ls, rfl, -⟩ := sound_expression (sound_unary depth) _ _ _ hinner
          exact (pointsAt_closing hclosing).mono
            (List.Subset.trans (List.subset_append_right ls behind) (List.subset_cons_self _ _))
      | _ =>
        obtain rfl := Except.error.inj h
        exact .inr ⟨_, List.mem_cons_self, rfl⟩

/-- **An error of the parser is at a token or at the end.** -/
theorem pointsAt_of_parseTokens (h : parseTokens size tokens = .error e) : PointsAt size tokens e := by
  rcases Outcome.bind_eq_error.1 h with hread | ⟨p, hread, hrest⟩
  · refine points_expression (points_unary nestingLimit) tokens e ?_
    rw [front, reader, hread]
    rfl
  · have hfront : front (reader size nestingLimit (.chain .or)) tokens = .ok (p.filter, p.rest) := by
      rw [front, reader, hread]
      rfl
    obtain ⟨_, ls, htokens, -⟩ := sound_expression (sound_unary nestingLimit) _ _ _ hfront
    split at hrest
    · cases hrest
    · next l rest hp =>
      obtain rfl := Except.error.inj hrest
      refine .inr ⟨l, ?_, rfl⟩
      rw [htokens, hp]
      exact List.mem_append_right ls List.mem_cons_self

/-! ## Whole queries -/

theorem isBoundary_of_parse {query : String} (h : parse now query = .error e) :
    IsBoundary query.toList e.offset := by
  rcases Outcome.bind_eq_error.1 h with hlex | ⟨lexemes, hlex, hparse⟩
  · exact isBoundary_of_lexFrom (List.suffix_refl _) hlex
  · rcases pointsAt_of_parseTokens hparse with hend | ⟨l, hl, hoffset⟩
    · rw [hend]
      exact isBoundary_size _
    · obtain ⟨_, _, _, -, hstart, -⟩ := (standsIn_of_lexFrom hlex).1 l hl
      rw [hoffset]
      exact isBoundary_offsetAt hstart

theorem isValid_of_isBoundary {query : String} {offset : Nat} (h : IsBoundary query.toList offset) :
    offset ≤ query.utf8ByteSize ∧ String.Pos.Raw.IsValid query ⟨offset⟩ := by
  obtain ⟨before, after, hquery, rfl⟩ := h
  have hsplit : query = String.ofList before ++ String.ofList after := by
    rw [← String.ofList_append, ← hquery, String.ofList_toList]
  have hsize : Text.byteSize before = (String.ofList before).utf8ByteSize := by
    rw [← byteSize_toList, String.toList_ofList]
  rw [hsize]
  refine ⟨?_, String.Pos.Raw.isValid_iff_exists_append.2 ⟨_, _, hsplit, rfl⟩⟩
  rw [hsplit, String.utf8ByteSize_append]
  exact Nat.le_add_right _ _

/-- **Offsets point into the query.** -/
theorem offsets_of_query (now : Instant) (query : String) :
    (∀ lexemes, lex now query.toList = .ok lexemes →
      (lexemes.map fun l => offsetAt query.utf8ByteSize l.start).Pairwise (· < ·) ∧
      ∀ l ∈ lexemes, ∃ before c rest after, query.toList = before ++ c :: rest ∧
        offsetAt query.utf8ByteSize l.start = Text.byteSize before ∧
        Text.isBlank c = false ∧ scanToken now c rest = .ok (l.token, after)) ∧
    ∀ e, parse now query = .error e →
      e.offset ≤ query.utf8ByteSize ∧ String.Pos.Raw.IsValid query ⟨e.offset⟩ := by
  refine ⟨fun lexemes hlex => ?_, fun e h => isValid_of_isBoundary (isBoundary_of_parse h)⟩
  obtain ⟨hstands, hsorted⟩ := standsIn_of_lexFrom hlex
  rw [← byteSize_toList]
  constructor
  · rw [List.pairwise_map]
    refine hsorted.imp_of_mem fun {l m} hl _ hlt => ?_
    obtain ⟨_, _, _, -, hend, -⟩ := hstands l hl
    have hle := byteSize_le_of_suffix hend
    simp only [offsetAt]
    omega
  · intro l hl
    obtain ⟨c, rest, after, hstart, ⟨before, hquery⟩, hblank, hscan⟩ := hstands l hl
    rw [hstart] at hquery
    refine ⟨before, c, rest, after, hquery.symm, ?_, hblank, hscan⟩
    rw [← hquery, hstart, offsetAt_append]

/-- Names with a letter of two bytes, and signs where a comparator belongs. -/
def twoNames : String := "é && !ü"

def twoNamesLexemes : List Lexeme :=
  [⟨.name "é", "é && !ü".toList⟩, ⟨.and, "&& !ü".toList⟩, ⟨.not, "!ü".toList⟩, ⟨.name "ü", "ü".toList⟩]

theorem lex_twoNames : lex ⟨0, 0⟩ twoNames.toList = .ok twoNamesLexemes := by
  have hfirst : scanToken ⟨0, 0⟩ 'é' " && !ü".toList = .ok (.name "é", " && !ü".toList) := rfl
  have hand : scanToken ⟨0, 0⟩ '&' "& !ü".toList = .ok (.and, " !ü".toList) := rfl
  have hnot : scanToken ⟨0, 0⟩ '!' "ü".toList = .ok (.not, "ü".toList) := rfl
  have hlast : scanToken ⟨0, 0⟩ 'ü' [] = .ok (.name "ü", []) := rfl
  have hquery : twoNames.toList = 'é' :: " && !ü".toList := rfl
  have hspace : " && !ü".toList = ' ' :: '&' :: "& !ü".toList := rfl
  have hspace' : " !ü".toList = ' ' :: '!' :: "ü".toList := rfl
  have hu : "ü".toList = ['ü'] := rfl
  rw [lex, hquery, lexFrom_token rfl hfirst, hspace, lexFrom_blank rfl, lexFrom_token rfl hand,
    hspace', lexFrom_blank rfl, lexFrom_token rfl hnot, hu, lexFrom_token rfl hlast, lexFrom_nil]
  rfl

theorem offsets_of_query_twoNames :
    lex ⟨0, 0⟩ twoNames.toList = .ok twoNamesLexemes ∧
      twoNamesLexemes.map (fun l => offsetAt twoNames.utf8ByteSize l.start) = [0, 3, 6, 7] ∧
      [0, 3, 6, 7].Pairwise (· < ·) ∧
      parse ⟨0, 0⟩ twoNames = .error ⟨.expectedComparator, 3⟩ ∧
      3 ≤ twoNames.utf8ByteSize ∧ String.Pos.Raw.IsValid twoNames ⟨3⟩ := by
  have hparse : parse ⟨0, 0⟩ twoNames = .error ⟨.expectedComparator, 3⟩ := by
    rw [parse, lex_twoNames]
    rfl
  obtain ⟨htokens, herrors⟩ := offsets_of_query ⟨0, 0⟩ twoNames
  exact ⟨lex_twoNames, rfl, (htokens _ lex_twoNames).1, hparse, herrors _ hparse⟩

end MetadataSearch.Query
