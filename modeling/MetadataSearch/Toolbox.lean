import MetadataSearch.Tool
import MetadataSearch.Tool.Answer
import MetadataSearch.Tool.Arguments
import MetadataSearch.Tool.Limit

/-!
# Calls of tools

A toolbox answers calls of tools over one engine. A call is vetted first: its arguments, and the
paths among them, are turned into a `Request`, or the call is refused. Only a request is carried out
on the engine. So a refused call does nothing, and the engine never sees a scope or path that was not
vetted.

- `Toolbox.vet` and `Toolbox.vetRaw` vet a call of a tool and a query written by the caller.
- `Toolbox.perform` carries out a request and notes the calls that it makes on the engine.
- `Toolbox.call` and `Toolbox.callRaw` give the answer together with these calls.
-/

namespace MetadataSearch

/-- How a scope is checked. -/
inductive ScopePolicy where
  /-- The engine decides what a missing directory means. -/
  | lenient
  /-- It has to be an existing directory, and its location is used in place of it. -/
  | strict
  deriving DecidableEq

/-- With no roots there is no fence. The clock stands at `now`. -/
structure Toolbox where
  engine : Engine
  files : FileTree
  policy : ScopePolicy
  roots : List Path
  now : Instant

/-- What is asked of the engine. -/
inductive Request where
  | find (predicate : Predicate) (scope : Path) (limit : Nat)
  /-- The attributes of the file at a settled path, which the caller spelled as `asked`. -/
  | describe (asked path : Path)
  deriving DecidableEq

namespace Toolbox

/-! ## Vetting -/

/-- A path fault as the error of a call. -/
def refusePath {α : Type} (outcome : Except PathFault α) : Except ToolError α :=
  outcome.mapError fun fault => .invalidArgument (.path fault)

/-- Refuses a path outside of the roots. -/
def checkAllowed (box : Toolbox) (path : Path) : Except ToolError Unit := do
  let _ ← refusePath (box.files.withinAny box.roots path)

/-- The scope among the arguments of a tool. -/
def scopeArgument (box : Toolbox) (arguments : Arguments) : Except ToolError Path := do
  let scope ←
    match box.policy with
    | .lenient => arguments.path "scope"
    | .strict => arguments.scope box.files "scope"
  box.checkAllowed scope
  return scope

/-- The scope of a query written by the caller. -/
def checkedScope (box : Toolbox) (path : Path) : Except ToolError Path := do
  if !Path.isAbsolute path then throw (.invalidArgument (.notAbsolute "scope" path.text))
  let scope ←
    match box.policy with
    | .lenient => pure path
    | .strict => do
      let location ← refusePath (box.files.scope path)
      pure (Path.ofLocation location)
  box.checkAllowed scope
  return scope

def limitOf (arguments : Arguments) : Nat := Limit.ofRequest (arguments.integer? "limit")

/-- A date as the argument `since` has it: RFC 3339, or a bare date. -/
def readSince? (text : String) : Option Instant :=
  let trimmed := Text.trim text.toList
  (Instant.readRfc3339? trimmed).orElse fun _ => Instant.readDate? trimmed

/-- How far back recent files go if no date is given. -/
def defaultLookback : Int := 7 * Instant.secondsPerDay

/-- The date since which files are recent. -/
def sinceOf (box : Toolbox) (arguments : Arguments) : Except ToolError Instant :=
  match arguments.text? "since" with
  | none => .ok ⟨box.now.seconds - defaultLookback, box.now.nanos⟩
  | some text =>
    match readSince? text with
    | some t => .ok t
    | none => .error (.invalidArgument (.unreadableDate text))

def vetSearch (box : Toolbox) (arguments : Arguments) : Except ToolError Request := do
  let text ← arguments.text "query"
  let scope ← box.scopeArgument arguments
  return .find (Predicate.naturalText text) scope (limitOf arguments)

def vetSearchByKind (box : Toolbox) (arguments : Arguments) : Except ToolError Request := do
  let name ← arguments.text "kind"
  let scope ← box.scopeArgument arguments
  match Kind.ofName? name with
  | some kind => return .find (Predicate.ofKind kind) scope (limitOf arguments)
  | none => throw (.invalidArgument (.unknownKind name))

def vetRecentFiles (box : Toolbox) (arguments : Arguments) : Except ToolError Request := do
  let scope ← box.scopeArgument arguments
  let since ← box.sinceOf arguments
  return .find (Predicate.modifiedSince since.format) scope (limitOf arguments)

def vetGetMetadata (box : Toolbox) (arguments : Arguments) : Except ToolError Request := do
  let asked ← arguments.path "path"
  let location ← refusePath (box.files.settled asked)
  let path := Path.ofLocation location
  box.checkAllowed path
  if (box.files.node? path).isSome then return .describe asked path
  else throw (.fileNotFound asked.text)

def vet (box : Toolbox) (tool : Tool) (arguments : Arguments) : Except ToolError Request :=
  match tool with
  | .search => box.vetSearch arguments
  | .getMetadata => box.vetGetMetadata arguments
  | .searchByKind => box.vetSearchByKind arguments
  | .recentFiles => box.vetRecentFiles arguments

/-- Vets a query written by the caller. -/
def vetRaw (box : Toolbox) (fragment : String) (path : Path) (limit : Option Int64) :
    Except ToolError Request := do
  let predicate ← (Predicate.raw fragment).mapError fun fault => .invalidArgument (.predicate fault)
  let scope ← box.checkedScope path
  return .find predicate scope (Limit.ofRequest limit)

/-! ## Carrying out -/

/-- The text of the answer to a request, and the calls made on the engine. -/
def perform (box : Toolbox) : Request → Except ToolError String × List Engine.Call
  | .find predicate scope limit =>
    match Search.run box.engine predicate.text [scope] (some limit) with
    | (.ok results, calls) => (.ok (Answer.ofResults (Limit.keep limit results)), calls)
    | (.error e, calls) => (.error (.queryFailed e), calls)
  | .describe asked path =>
    match box.engine.itemAt? path with
    | some item => (.ok (Answer.ofAttributes item.attributes), [.item path])
    | none => (.error (.fileNotFound asked.text), [.item path])

/-- The answer to a call that has been vetted. -/
def answer (box : Toolbox) (vetted : Except ToolError Request) : Answer × List Engine.Call :=
  match vetted with
  | .error e => (.ofOutcome (.error e), [])
  | .ok request =>
    let (outcome, calls) := box.perform request
    (.ofOutcome outcome, calls)

/-- Calls the tool of a name. -/
def call (box : Toolbox) (name : String) (arguments : Arguments) : Answer × List Engine.Call :=
  box.answer <|
    match Tool.ofName? name with
    | some tool => box.vet tool arguments
    | none => .error (.unknownTool name)

/-- Runs a query written by the caller. -/
def callRaw (box : Toolbox) (fragment : String) (path : Path) (limit : Option Int64) :
    Answer × List Engine.Call :=
  box.answer (box.vetRaw fragment path limit)

end Toolbox

end MetadataSearch
