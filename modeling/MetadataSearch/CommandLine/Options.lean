import MetadataSearch.Settings

/-!
# Options of the command line

An argument that starts with a dash, and is not the dash alone, holds options: `--name`,
`--name=VALUE`, or letters in a row of which the last may have a value, as in `-vl3`, `-l=3` and
`-l 3`. A value in an argument of its own must not start with a dash. After `--` every argument is a
word, and so is every argument without a dash before it.

- `scan` splits arguments into `Piece`s, up to the first one that is malformed.
- `OptionValues.set?` reads the value of an option. No option may be given twice.
-/

namespace MetadataSearch.CommandLine

inductive Key where
  | verbose
  | version
  | engine
  | strictScope
  | roots
  | textLimit
  | scope
  | limit
  | since
  | raw
  deriving DecidableEq

namespace Key

/-- The name after two dashes. -/
def long : Key → String
  | .verbose => "verbose"
  | .version => "version"
  | .engine => "engine"
  | .strictScope => "strict-scope"
  | .roots => "allowed-roots"
  | .textLimit => "text-content-max-bytes"
  | .scope => "scope"
  | .limit => "limit"
  | .since => "since"
  | .raw => "raw"

/-- The letter after one dash. -/
def short? : Key → Option Char
  | .verbose => some 'v'
  | .version => some 'V'
  | .scope => some 's'
  | .limit => some 'l'
  | _ => none

def takesValue : Key → Bool
  | .verbose | .version | .strictScope => false
  | _ => true

/-- The options that may stand before and after the command. -/
def everywhere : List Key := [.verbose, .engine, .strictScope, .roots, .textLimit]

end Key

/-! ## Splitting arguments -/

/-- A part of an argument list. An option without a value has the empty text. -/
inductive Piece where
  | option (key : Key) (value : String)
  | word (text : String)
  /-- Every argument from here on is a word. -/
  | words (texts : List String)
  | malformed

/-- The options in one argument, and a last one whose value is still to come. -/
structure Cluster where
  pieces : List Piece
  pending : Option Key

def Cluster.malformed : Cluster := ⟨[.malformed], none⟩

/-- Letters in a row. -/
def readLetters (keys : List Key) : List Char → Cluster
  | [] => ⟨[], none⟩
  | c :: rest =>
    match keys.find? fun key => key.short? == some c with
    | none => .malformed
    | some key =>
      if key.takesValue then
        match rest with
        | [] => ⟨[], some key⟩
        | '=' :: value => ⟨[.option key (String.ofList value)], none⟩
        | value => ⟨[.option key (String.ofList value)], none⟩
      else
        let cluster := readLetters keys rest
        ⟨.option key "" :: cluster.pieces, cluster.pending⟩

/-- An option by its name, with an attached value if there is one. -/
def readName (keys : List Key) (text : List Char) : Cluster :=
  let name := String.ofList (text.takeWhile (· != '='))
  match keys.find? fun key => key.long == name, text.dropWhile (· != '=') with
  | none, _ => .malformed
  | some key, [] => if key.takesValue then ⟨[], some key⟩ else ⟨[.option key ""], none⟩
  | some key, _ :: value =>
    if key.takesValue then ⟨[.option key (String.ofList value)], none⟩ else .malformed

/-- The options in an argument; `none` if it is a word. -/
def readCluster? (keys : List Key) (argument : String) : Option Cluster :=
  match argument.toList with
  | '-' :: '-' :: text => some (readName keys text)
  | ['-'] => none
  | '-' :: text => some (readLetters keys text)
  | _ => none

/-- Whether an argument cannot be the value of the option before it. -/
def startsOption (argument : String) : Bool :=
  match argument.toList with
  | '-' :: _ :: _ => true
  | _ => false

/-- The pieces of an argument list. -/
def scan (keys : List Key) : List String → List Piece
  | [] => []
  | argument :: rest =>
    if argument = "--" then [.words rest]
    else
      match readCluster? keys argument with
      | none => .word argument :: scan keys rest
      | some ⟨pieces, none⟩ => pieces ++ scan keys rest
      | some ⟨pieces, some key⟩ =>
        match rest with
        | [] => pieces ++ [.malformed]
        | value :: rest =>
          if startsOption value then pieces ++ [.malformed]
          else pieces ++ .option key value :: scan keys rest

/-! ## Values -/

/-- The options given at one place, before the command or after it. -/
structure OptionValues where
  verbose : Bool
  engine : Option EngineKind
  strictScope : Bool
  roots : Option String
  textLimit : Option UInt64
  scope : Option String
  limit : Option Int64
  since : Option String
  raw : Option String

namespace OptionValues

def empty : OptionValues := ⟨false, none, false, none, none, none, none, none, none⟩

/-- The value of an option that was not given before and can be read. -/
def once? {α : Type} (old : Option α) (value : Option α) : Option (Option α) :=
  if old.isSome then none else value.map some

/-- Paths must not be empty. -/
def readPath? (text : String) : Option String := if text = "" then none else some text

/-- The options with one more. -/
def set? (o : OptionValues) (key : Key) (value : String) : Option OptionValues :=
  match key with
  | .verbose => if o.verbose then none else some { o with verbose := true }
  | .strictScope => if o.strictScope then none else some { o with strictScope := true }
  | .version => none
  | .engine => (once? o.engine (EngineKind.ofExactName? value)).map ({ o with engine := · })
  | .roots => (once? o.roots (some value)).map ({ o with roots := · })
  | .textLimit => (once? o.textLimit (Numeral.readSize? value.toList)).map ({ o with textLimit := · })
  | .scope => (once? o.scope (readPath? value)).map ({ o with scope := · })
  | .limit => (once? o.limit (Numeral.readInt64? value.toList)).map ({ o with limit := · })
  | .since => (once? o.since (some value)).map ({ o with since := · })
  | .raw => (once? o.raw (some value)).map ({ o with raw := · })

end OptionValues

end MetadataSearch.CommandLine
