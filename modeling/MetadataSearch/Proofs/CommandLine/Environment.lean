import MetadataSearch.CommandLine
import MetadataSearch.Proofs.Outcome
import MetadataSearch.Proofs.Settings.Roots

/-!
# Two readers of the environment

**Theorem (`read_environment`).** Let `Settings.ofEnvironment` ignore no value of an environment, and let an
argument list be an invocation in which no setting is given. In that environment the command line takes the
settings that `Settings.ofEnvironment` reads if the values are `Plain`, and refuses the arguments if not.

A plain value is spelled as it is meant: it is not blank, without blanks around it and in small letters,
and a flag is `true` or `false`. On plain values both readers agree. The settings also take capital letters,
blanks, blank values for unset ones and four more spellings of a flag, of all of which the command line takes
none.

Without options for the settings, both places of an argument list leave them open
(`Place.open_of_ofPieces`), so that each is read from the environment alone (`fallBack_eq_ok_iff`).
-/

namespace MetadataSearch

/-! ## Values -/

theorem Numeral.plain_of_readSize? {text : List Char} (h : (readSize? text).isSome) :
    text ≠ [] ∧ ∀ c ∈ text, Text.isBlank c = false := by
  have hdigits : ∀ digits : List Char, (readNat? digits).isSome →
      digits ≠ [] ∧ ∀ c ∈ digits, Text.isBlank c = false := by
    intro digits hread
    rw [readNat?] at hread
    split at hread
    case isTrue => cases hread
    case isFalse hall =>
      simp only [Bool.or_eq_true, List.isEmpty_iff, Bool.not_eq_true', not_or,
        Bool.not_eq_false, List.all_eq_true] at hall
      exact ⟨hall.1, fun c hc => Text.isBlank_of_isDigit (hall.2 c hc)⟩
  by_cases hplus : ∃ rest, text = '+' :: rest
  · obtain ⟨rest, rfl⟩ := hplus
    have hrest := hdigits rest (Option.isSome_of_isSome_bind h)
    refine ⟨List.cons_ne_nil _ _, fun c hc => ?_⟩
    rcases List.mem_cons.1 hc with rfl | hc
    · decide
    · exact hrest.2 c hc
  · rw [readSize?.eq_2 _ fun rest htext => hplus ⟨rest, htext⟩] at h
    exact hdigits text (Option.isSome_of_isSome_bind h)

namespace Settings

/-- No value is ignored. A value of roots never is as a whole. -/
structure Understood (environment : Environment) : Prop where
  engine : ∀ value ∈ setting? environment engineVariable, (EngineKind.ofName? value).isSome
  strictScope : ∀ value ∈ setting? environment strictScopeVariable, (readFlag? value).isSome
  textLimit : ∀ value ∈ setting? environment textLimitVariable,
    (Numeral.readSize? value.toList).isSome

/-- Each value is spelled as it is meant. Roots may be spelled in any way. -/
structure Plain (environment : Environment) : Prop where
  engine : ∀ value ∈ environment engineVariable,
    value ≠ "" ∧ trimmed value = value ∧ Text.smallLetters value = value
  strictScope : ∀ value ∈ environment strictScopeVariable, value = "true" ∨ value = "false"
  textLimit : ∀ value ∈ environment textLimitVariable, value ≠ "" ∧ trimmed value = value

variable {environment : Environment} {name value : String}

theorem setting?_of_none (h : environment name = none) : setting? environment name = none := by
  rw [setting?, h]
  rfl

theorem setting?_of_plain (h : environment name = some value) (hne : value ≠ "")
    (htrimmed : trimmed value = value) : setting? environment name = some value := by
  simp [setting?, h, htrimmed, hne]

/-! ## Reading plain values -/

theorem ofName?_of_plain (htrimmed : trimmed value = value) (hsmall : Text.smallLetters value = value) :
    EngineKind.ofName? value = EngineKind.ofExactName? value := by
  show EngineKind.ofExactName? (Text.smallLetters (trimmed value)) = _
  rw [htrimmed, hsmall]

theorem plain_of_ofExactName? (h : (EngineKind.ofExactName? value).isSome) :
    value ≠ "" ∧ trimmed value = value ∧ Text.smallLetters value = value := by
  have hall : ∀ entry ∈ EngineKind.names,
      entry.1 ≠ "" ∧ trimmed entry.1 = entry.1 ∧ Text.smallLetters entry.1 = entry.1 := by decide
  obtain ⟨kind, hkind⟩ := Option.isSome_iff_exists.1 h
  exact hall _ (Fields.mem_of_find? hkind)

theorem plain_of_readSize? (h : (Numeral.readSize? value.toList).isSome) :
    value ≠ "" ∧ trimmed value = value := by
  obtain ⟨hne, hblank⟩ := Numeral.plain_of_readSize? h
  refine ⟨?_, ?_⟩
  · rintro rfl
    exact hne rfl
  · rw [trimmed, Text.trim_eq_self hblank, String.ofList_toList]

theorem bind_engine_of_plain (h : Plain environment) :
    (setting? environment engineVariable).bind EngineKind.ofName? =
      (environment engineVariable).bind EngineKind.ofExactName? := by
  cases hvalue : environment engineVariable with
  | none => simp [setting?_of_none hvalue]
  | some value =>
    obtain ⟨hne, htrimmed, hsmall⟩ := h.engine value hvalue
    simp [setting?_of_plain hvalue hne htrimmed, ofName?_of_plain htrimmed hsmall]

theorem bind_flag_of_plain (h : Plain environment) :
    (setting? environment strictScopeVariable).bind readFlag? =
      (environment strictScopeVariable).bind CommandLine.readSwitch? := by
  cases hvalue : environment strictScopeVariable with
  | none => simp [setting?_of_none hvalue]
  | some value =>
    rcases h.strictScope value hvalue with rfl | rfl
    · rw [setting?_of_plain hvalue (by decide) (by decide)]
      decide
    · rw [setting?_of_plain hvalue (by decide) (by decide)]
      decide

theorem setting?_textLimit_of_plain (h : Plain environment) :
    setting? environment textLimitVariable = environment textLimitVariable := by
  cases hvalue : environment textLimitVariable with
  | none => exact setting?_of_none hvalue
  | some value =>
    obtain ⟨hne, htrimmed⟩ := h.textLimit value hvalue
    exact setting?_of_plain hvalue hne htrimmed

/-! ## Plain values that are understood -/

theorem isSome_ofExactName? (h : Understood environment) (hplain : Plain environment) :
    ∀ value ∈ environment engineVariable, (EngineKind.ofExactName? value).isSome := by
  intro value hvalue
  obtain ⟨hne, htrimmed, hsmall⟩ := hplain.engine value hvalue
  rw [← ofName?_of_plain htrimmed hsmall]
  exact h.engine value (setting?_of_plain hvalue hne htrimmed)

theorem isSome_readSwitch? (hplain : Plain environment) :
    ∀ value ∈ environment strictScopeVariable, (CommandLine.readSwitch? value).isSome := by
  intro value hvalue
  rcases hplain.strictScope value hvalue with rfl | rfl <;> rfl

theorem isSome_readSize? (h : Understood environment) (hplain : Plain environment) :
    ∀ value ∈ environment textLimitVariable, (Numeral.readSize? value.toList).isSome := by
  intro value hvalue
  exact h.textLimit value ((setting?_textLimit_of_plain hplain).trans hvalue)

/-- Roots are read alike whatever their spelling. -/
theorem bind_roots (environment : Environment) :
    ((setting? environment rootsVariable).bind (some ∘ readRoots)).getD default.roots =
      ((environment rootsVariable).map readRoots).getD default.roots := by
  cases hvalue : environment rootsVariable with
  | none => simp [setting?_of_none hvalue]
  | some value => exact roots_ofEnvironment hvalue

theorem policy_of_flag (flag : Option Bool) :
    (flag.map policyOf).getD default.policy =
      if flag = some true then .strict else default.policy := by
  rcases flag with _ | _ | _ <;> rfl

/-- **Plain values are read alike:** names exactly, flags as `true` or `false`, and blanks are not cut. -/
theorem ofEnvironment_of_plain (h : Plain environment) :
    ofEnvironment environment =
      { engineKind := ((environment engineVariable).bind EngineKind.ofExactName?).getD default.engineKind
        policy :=
          if (environment strictScopeVariable).bind CommandLine.readSwitch? = some true then .strict
          else default.policy
        roots := ((environment rootsVariable).map readRoots).getD default.roots
        textLimit := ((environment textLimitVariable).bind fun text =>
          Numeral.readSize? text.toList).getD default.textLimit } := by
  simp only [ofEnvironment, bind_engine_of_plain h, bind_flag_of_plain h, policy_of_flag,
    setting?_textLimit_of_plain h, bind_roots]

end Settings

namespace CommandLine

open Settings (Environment)

/-! ## Options that give no setting -/

/-- Whether an option gives a setting. -/
def Key.isSetting : Key → Bool
  | .engine | .strictScope | .roots | .textLimit => true
  | _ => false

def Piece.isSetting : Piece → Bool
  | .option key _ => key.isSetting
  | _ => false

/-- The pieces of an argument list, before the command and after it. -/
def piecesOf (arguments : List String) : List Piece :=
  let (leading, rest) := splitCommand leadingKeys arguments
  scan leadingKeys leading ++
    match rest with
    | none => []
    | some (name, trailing) =>
      match commandShape? name with
      | none => []
      | some (keys, _) => scan (Key.everywhere ++ keys) trailing

/-- No setting is given by an option. -/
def GivesNoSetting (arguments : List String) : Prop :=
  ∀ piece ∈ piecesOf arguments, piece.isSetting = false

instance (arguments : List String) : Decidable (GivesNoSetting arguments) :=
  inferInstanceAs (Decidable (∀ piece ∈ piecesOf arguments, piece.isSetting = false))

/-- The settings are left open. -/
structure OptionValues.Open (o : OptionValues) : Prop where
  engine : o.engine = none
  strictScope : o.strictScope = false
  roots : o.roots = none
  textLimit : o.textLimit = none

theorem OptionValues.open_empty : empty.Open := ⟨rfl, rfl, rfl, rfl⟩

/-- Other options leave the settings as they are. -/
theorem OptionValues.Open.set? {o next : OptionValues} {key : Key} {value : String} (h : o.Open)
    (hkey : key.isSetting = false) (hset : o.set? key value = some next) : next.Open := by
  cases key with
  | engine | strictScope | roots | textLimit => cases hkey
  | version => cases hset
  | verbose =>
    rw [OptionValues.set?] at hset
    split at hset
    · cases hset
    · obtain rfl := Option.some.inj hset
      exact ⟨h.engine, h.strictScope, h.roots, h.textLimit⟩
  | scope | limit | since | raw =>
    obtain ⟨_, -, rfl⟩ := Option.map_eq_some_iff.1 hset
    exact ⟨h.engine, h.strictScope, h.roots, h.textLimit⟩

theorem Place.open_of_ofPieces {room : Nat} {place result : Place} {pieces : List Piece}
    (h : place.options.Open) (hpieces : ∀ piece ∈ pieces, piece.isSetting = false)
    (hread : ofPieces room place pieces = .ok result) : result.options.Open := by
  fun_induction ofPieces room place pieces with
  | case1 =>
    obtain rfl := Except.ok.inj hread
    exact h
  | case3 =>
    obtain rfl := Except.ok.inj hread
    exact h
  | case5 place text rest hroom ih =>
    exact ih h (fun piece hpiece => hpieces piece (List.mem_cons_of_mem _ hpiece)) hread
  | case8 place key value rest hversion options hset ih =>
    have hkey := hpieces _ List.mem_cons_self
    exact ih (h.set? hkey hset) (fun piece hpiece => hpieces piece (List.mem_cons_of_mem _ hpiece)) hread
  | _ => cases hread

/-! ## Reading the environment -/

theorem eq_or_eq_of_readSwitch? {value : String} (h : (readSwitch? value).isSome) :
    value = "true" ∨ value = "false" := by
  rw [readSwitch?.eq_def] at h
  split at h
  · exact .inl rfl
  · exact .inr rfl
  · cases h

/-- An option that is nowhere given is read from the environment. -/
theorem fallBack_eq_ok_iff {α : Type} {inherited : Option String} {reader : String → Option α}
    {result : Option α} :
    fallBack none none inherited reader = .ok result ↔
      (∀ text ∈ inherited, (reader text).isSome) ∧ result = inherited.bind reader := by
  cases inherited with
  | none => simp [fallBack, @eq_comm _ result]
  | some text => cases hread : reader text <;> simp [fallBack, hread, @eq_comm _ result]

theorem misuse_of_fallBack {α : Type} {after before : Option α} {inherited : Option String}
    {reader : String → Option α} {refusal : Refusal}
    (h : fallBack after before inherited reader = .error refusal) : refusal = .misuse := by
  rw [fallBack.eq_def] at h
  split at h
  · cases h
  · split at h
    · cases h
    · split at h <;> cases h
      rfl

theorem switch_of_open {o : OptionValues} (h : o.Open) : switch o.strictScope = none := by
  rw [h.strictScope]
  rfl

/-- With the settings left open, those of the environment are taken iff its values are plain. -/
theorem settingsOf_eq_ok_iff {environment : Environment} (h : Settings.Understood environment)
    {before after : OptionValues} (hbefore : before.Open) (hafter : after.Open) {settings : Settings} :
    settingsOf environment before after = .ok settings ↔
      Settings.Plain environment ∧ settings = Settings.ofEnvironment environment := by
  rw [settingsOf, hbefore.engine, hafter.engine, switch_of_open hbefore, switch_of_open hafter,
    hbefore.roots, hafter.roots, hbefore.textLimit, hafter.textLimit]
  constructor
  · intro hread
    obtain ⟨engine, hengine, hread⟩ := Outcome.bind_eq_ok.1 hread
    obtain ⟨strict, hstrict, hread⟩ := Outcome.bind_eq_ok.1 hread
    obtain ⟨roots, hroots, hread⟩ := Outcome.bind_eq_ok.1 hread
    obtain ⟨limit, hlimit, hread⟩ := Outcome.bind_eq_ok.1 hread
    obtain ⟨hnames, rfl⟩ := fallBack_eq_ok_iff.1 hengine
    obtain ⟨hflags, rfl⟩ := fallBack_eq_ok_iff.1 hstrict
    obtain ⟨-, rfl⟩ := fallBack_eq_ok_iff.1 hroots
    obtain ⟨hsizes, rfl⟩ := fallBack_eq_ok_iff.1 hlimit
    have hplain : Settings.Plain environment :=
      ⟨fun value hvalue => Settings.plain_of_ofExactName? (hnames value hvalue),
        fun value hvalue => eq_or_eq_of_readSwitch? (hflags value hvalue),
        fun value hvalue => Settings.plain_of_readSize? (hsizes value hvalue)⟩
    refine ⟨hplain, ?_⟩
    simp [Settings.ofEnvironment_of_plain hplain, ← Except.ok.inj hread]
  · rintro ⟨hplain, rfl⟩
    have hengine := fallBack_eq_ok_iff.2 ⟨Settings.isSome_ofExactName? h hplain, rfl⟩
    have hflag := fallBack_eq_ok_iff.2 ⟨Settings.isSome_readSwitch? hplain, rfl⟩
    have hvalues : ∀ value ∈ environment Settings.rootsVariable, (some value).isSome :=
      fun _ _ => rfl
    have hroots := fallBack_eq_ok_iff.2 ⟨hvalues, rfl⟩
    have hlimit := fallBack_eq_ok_iff.2 ⟨Settings.isSome_readSize? h hplain, rfl⟩
    rw [Settings.ofEnvironment_of_plain hplain, hengine, hflag, hroots, hlimit]
    simp [bind, Except.bind, pure, Except.pure]

theorem misuse_of_settingsOf {environment : Environment} {before after : OptionValues}
    {refusal : Refusal} (h : settingsOf environment before after = .error refusal) :
    refusal = .misuse := by
  rw [settingsOf] at h
  rcases Outcome.bind_eq_error.1 h with h | ⟨engine, -, h⟩
  · exact misuse_of_fallBack h
  rcases Outcome.bind_eq_error.1 h with h | ⟨strict, -, h⟩
  · exact misuse_of_fallBack h
  rcases Outcome.bind_eq_error.1 h with h | ⟨roots, -, h⟩
  · exact misuse_of_fallBack h
  rcases Outcome.bind_eq_error.1 h with h | ⟨limit, -, h⟩
  · exact misuse_of_fallBack h
  · cases h

/-! ## Whole argument lists -/

/-- The argument list has these places and asks for the command, whatever the environment is. -/
inductive AsksFor (arguments : List String) : Place → Place → Command → Prop
  | intro {leading trailing : List String} {name : String} {keys : List Key} {room : Nat}
      {before after : Place} {command : Command}
      (hsplit : splitCommand leadingKeys arguments = (leading, some (name, trailing)))
      (hbefore : Place.read leadingKeys 0 leading = .ok before)
      (hshape : commandShape? name = some (keys, room))
      (hafter : Place.read (Key.everywhere ++ keys) room trailing = .ok after)
      (hcommand : Command.of? name after = some command) : AsksFor arguments before after command

theorem exists_asksFor_of_read {environment : Environment} {arguments : List String}
    {invocation : Invocation} (h : Invocation.read environment arguments = .ok invocation) :
    ∃ before after, AsksFor arguments before after invocation.command := by
  cases hsplit : splitCommand leadingKeys arguments with
  | mk leading rest =>
    simp only [Invocation.read, hsplit] at h
    obtain ⟨before, hbefore, h⟩ := Outcome.bind_eq_ok.1 h
    cases rest with
    | none => cases h
    | some named =>
      obtain ⟨name, trailing⟩ := named
      cases hshape : commandShape? name with
      | none =>
        simp only [hshape] at h
        cases h
      | some shape =>
        obtain ⟨keys, room⟩ := shape
        simp only [hshape] at h
        obtain ⟨after, hafter, h⟩ := Outcome.bind_eq_ok.1 h
        obtain ⟨settings, -, h⟩ := Outcome.bind_eq_ok.1 h
        cases hcommand : Command.of? name after with
        | none =>
          rw [hcommand] at h
          cases h
        | some command =>
          rw [hcommand] at h
          obtain rfl := Except.ok.inj h
          exact ⟨before, after, .intro hsplit hbefore hshape hafter hcommand⟩

/-- Only the settings depend on the environment. -/
theorem AsksFor.read_eq {arguments : List String} {before after : Place} {command : Command}
    (h : AsksFor arguments before after command) (environment : Environment) :
    Invocation.read environment arguments =
      (settingsOf environment before.options after.options).map fun settings => ⟨command, settings⟩ := by
  obtain ⟨hsplit, hbefore, hshape, hafter, hcommand⟩ := h
  simp only [Invocation.read, hsplit, hbefore, hshape, hafter, hcommand, bind, Except.bind]
  cases settingsOf environment before.options after.options <;> rfl

theorem AsksFor.isOpen {arguments : List String} {before after : Place} {command : Command}
    (h : AsksFor arguments before after command) (hnone : GivesNoSetting arguments) :
    before.options.Open ∧ after.options.Open := by
  obtain ⟨hsplit, hbefore, hshape, hafter, -⟩ := h
  simp only [GivesNoSetting, piecesOf, hsplit, hshape] at hnone
  exact ⟨Place.open_of_ofPieces OptionValues.open_empty
      (fun piece hpiece => hnone piece (List.mem_append_left _ hpiece)) hbefore,
    Place.open_of_ofPieces OptionValues.open_empty
      (fun piece hpiece => hnone piece (List.mem_append_right _ hpiece)) hafter⟩

/-- **The command line reads plain values as the settings do, and refuses others.** -/
theorem read_environment {environment : Environment} (h : Settings.Understood environment)
    {arguments : List String} (hopen : GivesNoSetting arguments) {invocation : Invocation}
    (hread : Invocation.read (fun _ => none) arguments = .ok invocation) :
    (Settings.Plain environment →
      Invocation.read environment arguments =
        .ok ⟨invocation.command, Settings.ofEnvironment environment⟩) ∧
    (¬ Settings.Plain environment →
      Invocation.read environment arguments = .error .misuse ∧
        ∀ files programs now, run files programs now environment arguments = ⟨2, ""⟩) := by
  obtain ⟨before, after, hasks⟩ := exists_asksFor_of_read hread
  obtain ⟨hbefore, hafter⟩ := hasks.isOpen hopen
  have hok : ∀ settings, settingsOf environment before.options after.options = .ok settings ↔
      Settings.Plain environment ∧ settings = Settings.ofEnvironment environment :=
    fun _ => settingsOf_eq_ok_iff h hbefore hafter
  rw [hasks.read_eq environment]
  constructor
  · intro hplain
    rw [(hok _).2 ⟨hplain, rfl⟩]
    rfl
  · intro hplain
    have hrefused : (settingsOf environment before.options after.options).map
        (fun settings => (⟨invocation.command, settings⟩ : Invocation)) = .error .misuse := by
      cases hsettings : settingsOf environment before.options after.options with
      | ok settings => exact absurd ((hok settings).1 hsettings).1 hplain
      | error refusal =>
        rw [misuse_of_settingsOf hsettings]
        rfl
    refine ⟨hrefused, fun files programs now => ?_⟩
    rw [run, hasks.read_eq environment, hrefused]

/-! ## Two environments -/

/-- The environment in which these values are set. -/
def environmentOf (values : Fields String) : Environment := fun name => Fields.find? name values

/-- Roots may have blanks around them, and a number may have a sign. -/
def plainValues : Fields String :=
  [(Settings.engineVariable, "fs"), (Settings.strictScopeVariable, "true"),
    (Settings.rootsVariable, " /l : docs"), (Settings.textLimitVariable, "+9")]

/-- A digit is understood as a flag, but it is not plain. -/
def digitFlag : Fields String := [(Settings.strictScopeVariable, "1")]

def searchDocs : List String := ["-v", "search", "hi", "--scope", "/docs"]

theorem understood_plainValues : Settings.Understood (environmentOf plainValues) :=
  ⟨by decide, by decide, by decide⟩

theorem plain_plainValues : Settings.Plain (environmentOf plainValues) :=
  ⟨by decide, by decide, by decide⟩

theorem understood_digitFlag : Settings.Understood (environmentOf digitFlag) :=
  ⟨by decide, by decide, by decide⟩

theorem not_plain_digitFlag : ¬ Settings.Plain (environmentOf digitFlag) := by
  intro hplain
  have hflag := hplain.strictScope "1" rfl
  revert hflag
  decide

/-- The plain values are taken. The digit, which the settings take for a yes, is refused. -/
theorem read_environment_digitFlag :
    Settings.Understood (environmentOf plainValues) ∧ Settings.Plain (environmentOf plainValues) ∧
      Settings.Understood (environmentOf digitFlag) ∧ ¬ Settings.Plain (environmentOf digitFlag) ∧
      GivesNoSetting searchDocs ∧
      Invocation.read (fun _ => none) searchDocs =
        .ok ⟨.search "hi" "/docs" none, Settings.default⟩ ∧
      Invocation.read (environmentOf plainValues) searchDocs =
        .ok ⟨.search "hi" "/docs" none, ⟨.files, .strict, [Path.ofText "/l"], 9⟩⟩ ∧
      (Settings.ofEnvironment (environmentOf digitFlag)).policy = .strict ∧
      Invocation.read (environmentOf digitFlag) searchDocs = .error .misuse := by
  have hopen : GivesNoSetting searchDocs := by decide
  have hread : Invocation.read (fun _ => none) searchDocs =
      .ok ⟨.search "hi" "/docs" none, Settings.default⟩ := by rfl
  have hsettings : Settings.ofEnvironment (environmentOf plainValues) =
      ⟨.files, .strict, [Path.ofText "/l"], 9⟩ := by
    decide
  have htaken := (read_environment understood_plainValues hopen hread).1 plain_plainValues
  have hrefused := (read_environment understood_digitFlag hopen hread).2 not_plain_digitFlag
  rw [hsettings] at htaken
  exact ⟨understood_plainValues, plain_plainValues, understood_digitFlag, not_plain_digitFlag, hopen,
    hread, htaken, by decide, hrefused.1⟩

end CommandLine

end MetadataSearch
