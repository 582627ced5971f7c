import DocSelect.Json.Draft
import DocSelect.Json.Printer
import DocSelect.Tree.Node

/-!
# Document trees as JSON

A node is an object with the member `type` and optionally `children`, `value` and `identifier`,
for which `null` stands for none; all other members are attributes. A node is made of the draft
of a text, checks members in the order of the text and reports the first problem. Writing puts
the four named members first.
-/

namespace DocSelect

/-- What was found where something else was due. -/
inductive Found where
  | null
  | bool (b : Bool)
  | number (n : Number)
  | string (s : String)
  | sequence
  | map
deriving DecidableEq, Repr

/-- The words for what was found. -/
def Found.text : Found → String
  | null => "null"
  | bool b => "boolean `" ++ (if b then "true" else "false") ++ "`"
  | number (.whole n) => "integer `" ++ (Number.whole n).text ++ "`"
  | number (.double d) => "floating point `" ++ d.text ++ "`"
  | string s => "string " ++ Text.quoted s
  | sequence => "sequence"
  | map => "map"

/-- What was due. -/
inductive Due where
  | string
  | sequence
  | node
deriving DecidableEq, Repr

/-- The words for what was due. -/
def Due.text : Due → String
  | string => "a string"
  | sequence => "a sequence"
  | node => "struct Node"

/-- Why a text or a value is not a document tree. -/
inductive TreeError where
  /-- The text is not JSON. -/
  | fault (fault : Fault)
  | missingType
  | duplicate (name : String)
  | invalidType (found : Found) (due : Due)
deriving DecidableEq, Repr

/-- The message of an error; texts that are not JSON have none of their own. -/
def TreeError.message : TreeError → String
  | fault .malformed => "<Syntax>"
  | fault .truncated => "<Eof>"
  | missingType => "missing field `type`"
  | duplicate name => "duplicate field `" ++ name ++ "`"
  | invalidType found due => "invalid type: " ++ found.text ++ ", expected " ++ due.text

namespace Draft

/-- The fault of a draft, or the problem that it is not what was due. -/
def reject (d : Draft) (due : Due) : TreeError :=
  match d with
  | .null => .invalidType .null due
  | .bool b => .invalidType (.bool b) due
  | .number n => .invalidType (.number n) due
  | .string s => .invalidType (.string s) due
  | .array _ _ => .invalidType .sequence due
  | .object _ _ => .invalidType .map due
  | .broken fault => .fault fault

/-- A text. -/
def asString (d : Draft) : Except TreeError String :=
  match d with
  | .string s => .ok s
  | d => .error (d.reject .string)

/-- A text or none. -/
def asOptionalString (d : Draft) : Except TreeError (Option String) :=
  match d with
  | .null => .ok none
  | d => d.asString.map some

end Draft

/-- The members of a node that have been read. -/
structure NodeDraft where
  type : Option String
  children : Option (Option (List Node))
  value : Option (Option String)
  identifier : Option (Option String)
  attributes : Members Json

namespace NodeDraft

/-- Nothing read yet. -/
def empty : NodeDraft := ⟨none, none, none, none, []⟩

/-- The node, if its type was read. -/
def toNode (d : NodeDraft) : Except TreeError Node :=
  match d.type with
  | none => .error .missingType
  | some type =>
    let content : Content := ⟨type, d.value.join, d.identifier.join, d.attributes⟩
    .ok (match d.children.join with
      | none => .leaf content
      | some cs => .parent content cs)

end NodeDraft

/-- Refuses a member that was there before. -/
def refuseSecond (name : String) (seen : Bool) : Except TreeError Unit :=
  if seen then .error (.duplicate name) else .ok ()

mutual
/-- The node of a draft, or the first problem. -/
def Node.ofDraft : Draft → Except TreeError Node
  | .object members stop => do
    let d ← Node.readMembers .empty members
    (Draft.close stop).mapError .fault
    d.toNode
  | .null => .error (.invalidType .null .node)
  | .bool b => .error (.invalidType (.bool b) .node)
  | .number n => .error (.invalidType (.number n) .node)
  | .string s => .error (.invalidType (.string s) .node)
  | .array _ _ => .error (.invalidType .sequence .node)
  | .broken fault => .error (.fault fault)

/-- Reads members into what was read before. -/
def Node.readMembers (d : NodeDraft) : List (String × Draft) → Except TreeError NodeDraft
  | [] => .ok d
  | (name, item) :: rest => do
    if name = "type" then
      refuseSecond name d.type.isSome
      let type ← item.asString
      Node.readMembers { d with type := some type } rest
    else if name = "children" then
      refuseSecond name d.children.isSome
      let children ← Node.readChildren item
      Node.readMembers { d with children := some children } rest
    else if name = "value" then
      refuseSecond name d.value.isSome
      let value ← item.asOptionalString
      Node.readMembers { d with value := some value } rest
    else if name = "identifier" then
      refuseSecond name d.identifier.isSome
      let identifier ← item.asOptionalString
      Node.readMembers { d with identifier := some identifier } rest
    else
      let value ← item.value.mapError .fault
      Node.readMembers { d with attributes := Members.insert name value d.attributes } rest

/-- The children of a node, or none. -/
def Node.readChildren : Draft → Except TreeError (Option (List Node))
  | .array items stop => do
    let nodes ← Node.ofDrafts items
    (Draft.close stop).mapError .fault
    return some nodes
  | .null => .ok none
  | .bool b => .error (.invalidType (.bool b) .sequence)
  | .number n => .error (.invalidType (.number n) .sequence)
  | .string s => .error (.invalidType (.string s) .sequence)
  | .object _ _ => .error (.invalidType .map .sequence)
  | .broken fault => .error (.fault fault)

/-- The nodes of some drafts, or the first problem. -/
def Node.ofDrafts : List Draft → Except TreeError (List Node)
  | [] => .ok []
  | item :: rest => do
    let node ← Node.ofDraft item
    return node :: (← Node.ofDrafts rest)
end

/-- The node that a JSON value is. -/
def Node.ofJson (value : Json) : Except TreeError Node := Node.ofDraft (.ofJson value)

/-- The node of what a reader has made of a JSON text, or the first problem. Behind the node the
text must end. -/
def Node.ofReading (reading : Draft × Option Fault) : Except TreeError Node := do
  let node ← Node.ofDraft reading.1
  (Draft.close reading.2).mapError .fault
  return node

/-- The named members and the attributes, in the order in which they are written. -/
def Content.members (c : Content) (children : Option Json) : List (String × Json) :=
  ("type", .string c.type) :: (children.map ("children", ·)).toList
    ++ (c.value.map (("value", .string ·))).toList
    ++ (c.identifier.map (("identifier", .string ·))).toList
    ++ c.attributes

mutual
/-- The object of a node, with its members in the order in which they are written. -/
def Node.toWritten : Node → Json
  | .leaf c => .object (c.members none)
  | .parent c cs => .object (c.members (some (.array (Node.toWrittenAll cs))))

/-- The objects of some nodes. -/
def Node.toWrittenAll : List Node → List Json
  | [] => []
  | t :: ts => Node.toWritten t :: Node.toWrittenAll ts
end

/-- The JSON text of a node. -/
def Node.write (n : Node) : String := n.toWritten.write

mutual
/-- The JSON value of a node, members by name. -/
def Node.toJson : Node → Json
  | .leaf c => .object (Members.ofList (c.members none))
  | .parent c cs => .object (Members.ofList (c.members (some (.array (Node.toJsonAll cs)))))

/-- The JSON values of some nodes. -/
def Node.toJsonAll : List Node → List Json
  | [] => []
  | t :: ts => Node.toJson t :: Node.toJsonAll ts
end

end DocSelect
