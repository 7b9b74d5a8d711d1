import MetadataSearch.Json.Token

/-!
# Reading JSON

A machine that takes one token at a time. Its stack holds the arrays and objects that are open, the
innermost first; its phase says what may come next. An object keeps the last value of each name, in
ascending order of names.

- `Json.Reading.step` takes a token.
- `Json.readFront?` runs the machine until a value is complete, `Json.read?` over a whole text. Arrays
  and objects may be open to a given depth at most; `Json.depthLimit` is the usual one.
-/

namespace MetadataSearch.Json

/-- An open array with the items so far, the last one first, or an open object with the members so
far and the name whose value is being read. -/
inductive Frame where
  | array (items : List Json)
  | object (fields : Fields Json) (name : String)

/-- What may come next. -/
inductive Phase where
  /-- A value. -/
  | value
  /-- A value, or the end of the array that was just opened. -/
  | firstItem
  /-- A name, or the end of the object that was just opened. -/
  | firstName
  /-- A name of an object with these members so far. -/
  | name (fields : Fields Json)
  /-- A colon after a name. -/
  | colon (fields : Fields Json) (name : String)
  /-- What follows a whole value. -/
  | after (j : Json)

structure Reading where
  stack : List Frame
  phase : Phase

namespace Reading

def start : Reading := ⟨[], .value⟩

/-- A token that begins a value. -/
def beginValue? (depth : Nat) (stack : List Frame) : Token → Option Reading
  | .openArray => if stack.length < depth then some ⟨.array [] :: stack, .firstItem⟩ else none
  | .openObject => if stack.length < depth then some ⟨stack, .firstName⟩ else none
  | .string s => some ⟨stack, .after (.string s)⟩
  | .scalar j => some ⟨stack, .after j⟩
  | _ => none

/-- A token after a whole value, which belongs to the innermost open array or object. -/
def afterValue? (stack : List Frame) (j : Json) : Token → Option Reading
  | .comma =>
    match stack with
    | .array items :: rest => some ⟨.array (j :: items) :: rest, .value⟩
    | .object fields name :: rest => some ⟨rest, .name (fields.insert name j)⟩
    | [] => none
  | .closeArray =>
    match stack with
    | .array items :: rest => some ⟨rest, .after (.array (j :: items).reverse)⟩
    | _ => none
  | .closeObject =>
    match stack with
    | .object fields name :: rest => some ⟨rest, .after (.object (fields.insert name j))⟩
    | _ => none
  | _ => none

/-- The machine after one token; `none` where no JSON text goes on with it. -/
def step (depth : Nat) (r : Reading) (t : Token) : Option Reading :=
  match r.phase, t with
  | .value, t => beginValue? depth r.stack t
  | .firstItem, .closeArray =>
    match r.stack with
    | .array [] :: rest => some ⟨rest, .after (.array [])⟩
    | _ => none
  | .firstItem, t => beginValue? depth r.stack t
  | .firstName, .closeObject => some ⟨r.stack, .after (.object [])⟩
  | .firstName, .string name => some ⟨r.stack, .colon [] name⟩
  | .name fields, .string name => some ⟨r.stack, .colon fields name⟩
  | .colon fields name, .colon => some ⟨.object fields name :: r.stack, .value⟩
  | .after j, t => afterValue? r.stack j t
  | _, _ => none

/-- The value, if the machine has read one and nothing is open. -/
def result? (r : Reading) : Option Json :=
  match r.stack, r.phase with
  | [], .after j => some j
  | _, _ => none

/-- Runs the machine on a text until a value is complete. Gives the value and the text after it. -/
def run? (depth : Nat) (r : Reading) (text : List Char) : Option (Json × List Char) :=
  match r.result? with
  | some j => some (j, text)
  | none =>
    match text with
    | [] => none
    | c :: rest =>
      if isSpace c then r.run? depth rest
      else
        match h : token? c rest with
        | none => none
        | some (t, after) =>
          have := length_le_of_token? h
          (r.step depth t).bind fun next => next.run? depth after
termination_by text.length

end Reading

/-- The depth to which arrays and objects may be nested. -/
def depthLimit : Nat := 127

/-- The value at the front of a text, and the text after it. -/
def readFront? (depth : Nat) (text : List Char) : Option (Json × List Char) :=
  Reading.start.run? depth text

/-- The value of a whole text; only blanks may follow it. -/
def read? (depth : Nat) (text : List Char) : Option Json :=
  match readFront? depth text with
  | some (j, rest) => if rest.all isSpace then some j else none
  | none => none

end MetadataSearch.Json
