import MetadataSearch.Catalog
import MetadataSearch.Toolbox

/-!
# Sessions

A client talks to a toolbox in JSON-RPC messages, following the Model Context Protocol. The server
says first what it offers; it answers pings, lists its tools, and calls a tool. An answer carries the
identifier of the message. The error of a tool is an ordinary answer that is marked as an error.
-/

namespace MetadataSearch

namespace Session

/-- What a message asks for. -/
inductive Method where
  | ping
  | listTools
  | callTool (name : String) (arguments : Arguments)

structure Message where
  id : Json
  method : Method

/-- The arguments of a call, which may be left out. -/
def readArguments? (j : Option Json) : Option Arguments :=
  match j with
  | none | some .null => some .none
  | some (.object fields) => some ⟨fields⟩
  | some _ => none

def readMethod? (fields : Fields Json) : Option Method := do
  match ← (← fields.find? "method").asString? with
  | "ping" => return .ping
  | "tools/list" => return .listTools
  | "tools/call" =>
    let params ← (← fields.find? "params").asObject?
    let name ← (← params.find? "name").asString?
    return .callTool name (← readArguments? (params.find? "arguments"))
  | _ => none

/-- The message of a JSON value, if it is one of those that are answered here. -/
def Message.ofJson? (j : Json) : Option Message := do
  let fields ← j.asObject?
  return ⟨← fields.find? "id", ← readMethod? fields⟩

/-- The result of a call as the protocol has it. -/
def callResult (answer : Answer) : Json :=
  .ofPairs
    [ ("content", .array [.ofPairs [("type", .string "text"), ("text", .string answer.text)]]),
      ("isError", .bool answer.isError) ]

/-- The response to the message with this identifier. -/
def response (id result : Json) : Json :=
  .ofPairs [("jsonrpc", .string "2.0"), ("id", id), ("result", result)]

/-- What the server offers: tools, and instructions for them. -/
def greeting : Json :=
  .ofPairs
    [ ("capabilities", .ofPairs [("tools", .object [])]),
      ("instructions", .string Catalog.instructions) ]

def result (box : Toolbox) : Method → Json
  | .ping => .object []
  | .listTools => .ofPairs [("tools", Catalog.descriptors)]
  | .callTool name arguments => callResult (box.call name arguments).1

def respond (box : Toolbox) (message : Message) : Json :=
  response message.id (result box message.method)

end Session

end MetadataSearch
