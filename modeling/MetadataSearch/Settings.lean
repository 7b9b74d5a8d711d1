import MetadataSearch.Engine.Files
import MetadataSearch.Engine.Index
import MetadataSearch.Text.Ascii
import MetadataSearch.Toolbox

/-!
# Settings

Which engine answers, how scopes are checked, which roots fence the file tree in, and how much of a
file is read as text. `Settings.ofEnvironment` reads them from four environment variables; blanks
around a value do not matter, and a value that cannot be read leaves the default.
-/

namespace MetadataSearch

inductive EngineKind where
  /-- The desktop's index. -/
  | index
  /-- The files themselves. -/
  | files
  deriving DecidableEq

namespace EngineKind

def name : EngineKind → String
  | .index => "mdfind"
  | .files => "filesystem"

/-- The names by which an engine may be chosen. -/
def names : List (String × EngineKind) :=
  [("mdfind", .index), ("spotlight", .index), ("filesystem", .files), ("fs", .files)]

/-- The engine of this exact name. -/
def ofExactName? (name : String) : Option EngineKind := Fields.find? name names

/-- The engine of a name in either letter case, with any blanks around it. -/
def ofName? (text : String) : Option EngineKind :=
  ofExactName? (Text.smallLetters (String.ofList (Text.trim text.toList)))

end EngineKind

structure Settings where
  engineKind : EngineKind
  policy : ScopePolicy
  roots : List Path
  /-- The number of bytes that are read of a file as its text. -/
  textLimit : UInt64
  deriving DecidableEq

namespace Settings

def default : Settings := ⟨.files, .lenient, [], .ofNat defaultTextLimit⟩

/-! ## Variables -/

/-- The environment: the values of variables by name. -/
abbrev Environment := String → Option String

def engineVariable : String := "SPOTLIGHT_MCP_ENGINE"
def strictScopeVariable : String := "SPOTLIGHT_MCP_STRICT_SCOPE"
def rootsVariable : String := "SPOTLIGHT_MCP_ALLOWED_ROOTS"
def textLimitVariable : String := "SPOTLIGHT_MCP_TEXT_CONTENT_MAX_BYTES"

/-- The text without the blanks around it. -/
def trimmed (text : String) : String := String.ofList (Text.trim text.toList)

/-- The value of a variable without the blanks around it, unless it is blank. -/
def setting? (environment : Environment) (name : String) : Option String :=
  ((environment name).map trimmed).filter (· != "")

/-- A yes or no. -/
def readFlag? (text : String) : Option Bool :=
  let small := Text.smallLetters text
  if ["1", "true", "yes"].contains small then some true
  else if ["0", "false", "no"].contains small then some false
  else none

/-- The absolute paths among entries with colons between them. -/
def readRoots (text : String) : List Path :=
  ((text.toList.splitOn ':').map fun entry => Text.encode (Text.trim entry)).filter Path.isAbsolute

def policyOf (strict : Bool) : ScopePolicy := if strict then .strict else .lenient

def ofEnvironment (environment : Environment) : Settings :=
  let read {α : Type} (name : String) (reader : String → Option α) : Option α :=
    (setting? environment name).bind reader
  { engineKind := (read engineVariable EngineKind.ofName?).getD default.engineKind
    policy := ((read strictScopeVariable readFlag?).map policyOf).getD default.policy
    roots := (read rootsVariable (some ∘ readRoots)).getD default.roots
    textLimit :=
      (read textLimitVariable fun text => Numeral.readSize? text.toList).getD default.textLimit }

/-! ## What they set up -/

def engine (settings : Settings) (files : FileTree) (programs : IndexPrograms) (now : Instant) :
    Engine :=
  match settings.engineKind with
  | .index => .ofIndex programs
  | .files => .ofFiles files settings.textLimit.toNat now

def toolbox (settings : Settings) (files : FileTree) (programs : IndexPrograms) (now : Instant) :
    Toolbox :=
  { engine := settings.engine files programs now
    files := files
    policy := settings.policy
    roots := settings.roots
    now := now }

end Settings

end MetadataSearch
