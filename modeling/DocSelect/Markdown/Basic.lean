import DocSelect.Tree.Node

/-!
# Markdown documents

The nodes of a Markdown document are containers with children, literals with a text, and voids
with neither. Each kind of node has a type name and fields; as a document tree a node has the
same name, its fields as attributes, and its children in the same order. A field without value
is an attribute with the value `null`.
-/

namespace DocSelect

/-- The alignment of a table column. -/
inductive Alignment where
  | left
  | right
  | center
deriving DecidableEq, Repr, Inhabited

/-- How a reference names its definition. -/
inductive ReferenceKind where
  | shortcut
  | collapsed
  | full
deriving DecidableEq, Repr, Inhabited

/-- The kinds of Markdown nodes that have children. -/
inductive Container where
  | root
  | blockquote
  | footnoteDefinition (identifier : String) (label : Option String)
  | list (ordered : Bool) (start : Option Nat) (spread : Bool)
  | listItem (spread : Bool) (checked : Option Bool)
  | heading (depth : Nat)
  | paragraph
  | table (align : List (Option Alignment))
  | tableRow
  | tableCell
  | emphasis
  | strong
  | delete
  | link (url : String) (title : Option String)
  | linkReference (kind : ReferenceKind) (identifier : String) (label : Option String)
  | jsxFlowElement (name : Option String)
  | jsxTextElement (name : Option String)
deriving DecidableEq, Repr, Inhabited

/-- The kinds of Markdown nodes that have a text. -/
inductive Literal where
  | code (lang : Option String) (info : Option String)
  | math (info : Option String)
  | inlineCode
  | inlineMath
  | text
  | html
  | yaml
  | toml
  | scriptModule
  | textExpression
  | flowExpression
deriving DecidableEq, Repr, Inhabited

/-- The kinds of Markdown nodes that have neither children nor a text. -/
inductive Void where
  | image (url alt : String) (title : Option String)
  | imageReference (alt : String) (kind : ReferenceKind) (identifier : String)
      (label : Option String)
  | definition (url : String) (title : Option String) (identifier : String)
      (label : Option String)
  | footnoteReference (identifier : String) (label : Option String)
  | lineBreak
  | thematicBreak
deriving DecidableEq, Repr, Inhabited

/-- A Markdown document, or a part of one. -/
inductive Markdown where
  | container (kind : Container) (children : List Markdown)
  | literal (kind : Literal) (value : String)
  | void (kind : Void)
deriving Inhabited

/-- The value of an alignment; a column without one has `null`. -/
def Alignment.toJson : Option Alignment → Json
  | none => .null
  | some left => .string "left"
  | some right => .string "right"
  | some center => .string "center"

/-- The name of a kind of reference. -/
def ReferenceKind.name : ReferenceKind → String
  | shortcut => "shortcut"
  | collapsed => "collapsed"
  | full => "full"

namespace Content

/-- Contents with a type and some attributes. -/
def ofFields (type : String) (fields : List (String × Json)) : Content :=
  ⟨type, none, none, Members.ofList fields⟩

/-- Contents that refer to something by an identifier, with the label it was written with. -/
def ofReference (type identifier : String) (label : Option String)
    (fields : List (String × Json)) : Content :=
  { ofFields type (fields ++ [("label", .ofOption label)]) with identifier := some identifier }

end Content

/-- The contents of a container. -/
def Container.content : Container → Content
  | root => .ofType "root"
  | blockquote => .ofType "blockquote"
  | footnoteDefinition identifier label => .ofReference "footnoteDefinition" identifier label []
  | list ordered start spread =>
    .ofFields "list" [("ordered", .bool ordered),
      ("start", start.elim .null fun n ↦ .ofInt n), ("spread", .bool spread)]
  | listItem spread checked =>
    .ofFields "listItem" [("spread", .bool spread), ("checked", checked.elim .null .bool)]
  | heading depth => .ofFields "heading" [("depth", .ofInt depth)]
  | paragraph => .ofType "paragraph"
  | table align => .ofFields "table" [("align", .array (align.map Alignment.toJson))]
  | tableRow => .ofType "tableRow"
  | tableCell => .ofType "tableCell"
  | emphasis => .ofType "emphasis"
  | strong => .ofType "strong"
  | delete => .ofType "delete"
  | link url title => .ofFields "link" [("url", .string url), ("title", .ofOption title)]
  | linkReference kind identifier label =>
    .ofReference "linkReference" identifier label [("referenceType", .string kind.name)]
  | jsxFlowElement name => .ofFields "mdxJsxFlowElement" [("name", .ofOption name)]
  | jsxTextElement name => .ofFields "mdxJsxTextElement" [("name", .ofOption name)]

/-- The contents of a literal, its text aside. -/
def Literal.content : Literal → Content
  | code lang info => .ofFields "code" [("lang", .ofOption lang), ("meta", .ofOption info)]
  | math info => .ofFields "math" [("meta", .ofOption info)]
  | inlineCode => .ofType "inlineCode"
  | inlineMath => .ofType "inlineMath"
  | text => .ofType "text"
  | html => .ofType "html"
  | yaml => .ofType "yaml"
  | toml => .ofType "toml"
  | scriptModule => .ofType "mdxjsEsm"
  | textExpression => .ofType "mdxTextExpression"
  | flowExpression => .ofType "mdxFlowExpression"

/-- The contents of a void. -/
def Void.content : Void → Content
  | image url alt title =>
    .ofFields "image" [("url", .string url), ("alt", .string alt), ("title", .ofOption title)]
  | imageReference alt kind identifier label =>
    .ofReference "imageReference" identifier label
      [("alt", .string alt), ("referenceType", .string kind.name)]
  | definition url title identifier label =>
    .ofReference "definition" identifier label
      [("url", .string url), ("title", .ofOption title)]
  | footnoteReference identifier label => .ofReference "footnoteReference" identifier label []
  | lineBreak => .ofType "break"
  | thematicBreak => .ofType "thematicBreak"

mutual
/-- The document tree of a Markdown document. -/
def Markdown.toNode : Markdown → Node
  | .container kind children => .parent kind.content (Markdown.toNodes children)
  | .literal kind value => .leaf { kind.content with value := some value }
  | .void kind => .leaf kind.content

/-- The document trees of some Markdown documents. -/
def Markdown.toNodes : List Markdown → List Node
  | [] => []
  | m :: ms => m.toNode :: Markdown.toNodes ms
end

end DocSelect
