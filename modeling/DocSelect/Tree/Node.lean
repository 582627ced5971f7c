import DocSelect.Tree.Basic

/-!
# Document nodes

The nodes of document trees have a type, optionally a value and an identifier, and any other
attributes by name. Type, value and identifier can also be asked for as attributes; they win
over attributes of these names.
-/

namespace DocSelect

/-- The contents of a document node. -/
structure Content where
  type : String
  value : Option String
  identifier : Option String
  attributes : Members Json
deriving DecidableEq, Inhabited

namespace Content

/-- Contents with nothing but a type. -/
def ofType (type : String) : Content := ⟨type, none, none, []⟩

/-- Gives an attribute a value. -/
def withAttribute (c : Content) (name : String) (value : Json) : Content :=
  { c with attributes := Members.insert name value c.attributes }

/-- The attribute of a name. -/
def attribute? (c : Content) (name : String) : Option Json :=
  if name = "type" then some (.string c.type)
  else if name = "value" then c.value.map .string
  else if name = "identifier" then c.identifier.map .string
  else Members.get? c.attributes name

end Content

/-- Contents answer what tests ask of a node. -/
instance : Element Content where
  type := Content.type
  attribute? := Content.attribute?
  identifier? := Content.identifier
  value? := Content.value

/-- A document tree. -/
abbrev Node := Tree Content

namespace Node

/-- A leaf with a type. -/
def ofType (type : String) : Node := .leaf (.ofType type)

/-- A leaf with a type and a value. -/
def ofText (type value : String) : Node := .leaf { Content.ofType type with value := some value }

/-- A parent with a type. -/
def ofChildren (type : String) (children : List Node) : Node :=
  .parent (Content.ofType type) children

/-- Changes the contents of the root. -/
def mapContent (f : Content → Content) : Node → Node
  | .leaf c => .leaf (f c)
  | .parent c cs => .parent (f c) cs

/-- Gives the root a value. -/
def withValue (n : Node) (value : String) : Node :=
  n.mapContent fun c ↦ { c with value := some value }

/-- Gives the root an identifier. -/
def withIdentifier (n : Node) (identifier : String) : Node :=
  n.mapContent fun c ↦ { c with identifier := some identifier }

/-- Gives an attribute of the root a value. -/
def withAttribute (n : Node) (name : String) (value : Json) : Node :=
  n.mapContent fun c ↦ c.withAttribute name value

end Node

/-- Contents of which only the type and the other attributes can be asked for. -/
structure PlainContent where
  type : String
  attributes : Members Json
deriving DecidableEq, Inhabited

/-- Plain contents have a type alone to answer with. -/
instance : Element PlainContent where
  type := PlainContent.type
  attribute? c name := Members.get? c.attributes name

mutual
/-- The tree with plain contents. -/
def Node.toPlain : Node → Tree PlainContent
  | .leaf c => .leaf ⟨c.type, c.attributes⟩
  | .parent c cs => .parent ⟨c.type, c.attributes⟩ (Node.toPlainAll cs)

/-- The trees with plain contents. -/
def Node.toPlainAll : List Node → List (Tree PlainContent)
  | [] => []
  | t :: ts => Node.toPlain t :: Node.toPlainAll ts
end

end DocSelect
