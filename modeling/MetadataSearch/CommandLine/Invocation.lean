import MetadataSearch.CommandLine.Options

/-!
# Invocations

An argument list names a command, with options before and after it. The options of the settings may
stand in both places; what stands after the command wins, and both win over the environment. The
environment is looked at wherever an option is not given, so that a variable that cannot be read is
refused unless the option is given in both places.

`Invocation.read` gives the invocation of an argument list.
-/

namespace MetadataSearch.CommandLine

/-- What is asked for, with all that it needs. -/
inductive Command where
  | search (text scope : String) (limit : Option Int64)
  | kind (name scope : String) (limit : Option Int64)
  | recent (since : Option String) (scope : String) (limit : Option Int64)
  | metadata (path : String)
  | query (raw scope : String) (limit : Option Int64)
  | tools

structure Invocation where
  command : Command
  settings : Settings

/-- Why there is no invocation. -/
inductive Refusal where
  | misuse
  /-- The version was asked for. -/
  | version
  deriving DecidableEq

/-! ## One place -/

/-- The options given at one place, and the words among them. -/
structure Place where
  options : OptionValues
  words : List String

namespace Place

/-- The options and words of pieces; no more words than `room`. -/
def ofPieces (room : Nat) (place : Place) : List Piece → Except Refusal Place
  | [] => .ok place
  | .malformed :: _ => .error .misuse
  | .words texts :: _ =>
    if place.words.length + texts.length ≤ room then .ok { place with words := place.words ++ texts }
    else .error .misuse
  | .word text :: rest =>
    if place.words.length < room then
      ofPieces room { place with words := place.words ++ [text] } rest
    else .error .misuse
  | .option .version _ :: _ => .error .version
  | .option key value :: rest =>
    match place.options.set? key value with
    | some options => ofPieces room { place with options := options } rest
    | none => .error .misuse

def read (keys : List Key) (room : Nat) (arguments : List String) : Except Refusal Place :=
  ofPieces room ⟨.empty, []⟩ (scan keys arguments)

end Place

/-! ## Commands -/

/-- The options that a command takes besides those of the settings, and the number of its words. -/
def commandShape? : String → Option (List Key × Nat)
  | "search" => some ([.scope, .limit], 1)
  | "kind" => some ([.scope, .limit], 1)
  | "recent" => some ([.since, .scope, .limit], 0)
  | "metadata" => some ([], 1)
  | "query" => some ([.raw, .scope, .limit], 0)
  | "tools" => some ([], 0)
  | _ => none

/-- The command of a name with these options and words, if nothing is missing. -/
def Command.of? (name : String) (place : Place) : Option Command := do
  let o := place.options
  match name, place.words with
  | "search", [text] => return .search text (← o.scope) o.limit
  | "kind", [word] => return .kind word (← o.scope) o.limit
  | "recent", [] => return .recent o.since (← o.scope) o.limit
  | "metadata", [path] => return .metadata (← OptionValues.readPath? path)
  | "query", [] => return .query (← o.raw) (← o.scope) o.limit
  | "tools", [] => return .tools
  | _, _ => none

/-! ## Settings -/

/-- The value of an option: given after the command, before it, or in the environment. -/
def fallBack {α : Type} (after before : Option α) (inherited : Option String)
    (reader : String → Option α) : Except Refusal (Option α) :=
  match after, before with
  | some value, some _ => .ok (some value)
  | _, _ =>
    match inherited with
    | none => .ok (after.orElse fun _ => before)
    | some text =>
      match reader text with
      | none => .error .misuse
      | some value => .ok (after.orElse fun _ => before.orElse fun _ => some value)

/-- The spelling of a flag in the environment. -/
def readSwitch? : String → Option Bool
  | "true" => some true
  | "false" => some false
  | _ => none

/-- A flag that was given. -/
def switch (given : Bool) : Option Bool := if given then some true else none

/-- The settings of the two places and the environment. -/
def settingsOf (environment : Settings.Environment) (before after : OptionValues) :
    Except Refusal Settings := do
  let engine ← fallBack after.engine before.engine (environment Settings.engineVariable)
    EngineKind.ofExactName?
  let strict ← fallBack (switch after.strictScope) (switch before.strictScope)
    (environment Settings.strictScopeVariable) readSwitch?
  let roots ← fallBack after.roots before.roots (environment Settings.rootsVariable) some
  let limit ← fallBack after.textLimit before.textLimit (environment Settings.textLimitVariable)
    fun text => Numeral.readSize? text.toList
  let default := Settings.default
  return {
    engineKind := engine.getD default.engineKind
    policy := if strict = some true then .strict else default.policy
    roots := (roots.map Settings.readRoots).getD default.roots
    textLimit := limit.getD default.textLimit }

/-! ## Whole argument lists -/

/-- The arguments before the command, its name, and those after it. Gives no name if something else
than a word comes first or nothing is left. -/
def splitCommand (keys : List Key) : List String → List String × Option (String × List String)
  | [] => ([], none)
  | argument :: rest =>
    if argument = "--" then (argument :: rest, none)
    else
      match readCluster? keys argument with
      | none => ([], some (argument, rest))
      | some ⟨_, none⟩ =>
        let (before, command) := splitCommand keys rest
        (argument :: before, command)
      | some ⟨_, some _⟩ =>
        match rest with
        | [] => ([argument], none)
        | value :: rest =>
          let (before, command) := splitCommand keys rest
          (argument :: value :: before, command)

/-- The options that may stand before the command. -/
def leadingKeys : List Key := .version :: Key.everywhere

def Invocation.read (environment : Settings.Environment) (arguments : List String) :
    Except Refusal Invocation := do
  let (leading, rest) := splitCommand leadingKeys arguments
  let before ← Place.read leadingKeys 0 leading
  match rest with
  | none => throw .misuse
  | some (name, trailing) =>
    match commandShape? name with
    | none => throw .misuse
    | some (keys, room) =>
      let after ← Place.read (Key.everywhere ++ keys) room trailing
      let settings ← settingsOf environment before.options after.options
      match Command.of? name after with
      | some command => return ⟨command, settings⟩
      | none => throw .misuse

end MetadataSearch.CommandLine
