import DocSelect.Markdown.Basic
import DocSelect.Proofs.Tree.Order

/-!
# Markdown documents as trees

The tree of a Markdown document has the trees of the document's parts at the same paths and in the
same order. Its children, values and identifiers are those of the parts, so a node never has both
children and a value, and the text of the tree is that of the literals one after the other.
-/

namespace DocSelect

/-! ### Kinds of nodes -/

/-- The identifier that a container refers to something by, if it is of such a kind. -/
def Container.identifier? : Container → Option String
  | footnoteDefinition identifier _ | linkReference _ identifier _ => some identifier
  | root | blockquote | list _ _ _ | listItem _ _ | heading _ | paragraph | table _ | tableRow
  | tableCell | emphasis | strong | delete | link _ _ | jsxFlowElement _ | jsxTextElement _ => none

/-- The identifier that a void refers to something by, if it is of such a kind. -/
def Void.identifier? : Void → Option String
  | imageReference _ _ identifier _ | definition _ _ identifier _
  | footnoteReference identifier _ => some identifier
  | image _ _ _ | lineBreak | thematicBreak => none

private theorem Container.value_content (kind : Container) : kind.content.value = none := by
  cases kind <;> rfl

private theorem Container.identifier_content (kind : Container) :
    kind.content.identifier = kind.identifier? := by
  cases kind <;> rfl

private theorem Literal.identifier_content (kind : Literal) : kind.content.identifier = none := by
  cases kind <;> rfl

private theorem Void.value_content (kind : Void) : kind.content.value = none := by
  cases kind <;> rfl

private theorem Void.identifier_content (kind : Void) :
    kind.content.identifier = kind.identifier? := by
  cases kind <;> rfl

namespace Markdown

/-! ### Parts of documents -/

/-- The children of a part, if it is of a kind that has children. -/
def children? : Markdown → Option (List Markdown)
  | container _ children => some children
  | literal _ _ | void _ => none

/-- The text of a part, if it is of a kind that has one. -/
def value? : Markdown → Option String
  | literal _ value => some value
  | container _ _ | void _ => none

/-- The identifier of a part, if it is of a kind that refers to something. -/
def identifier? : Markdown → Option String
  | container kind _ => kind.identifier?
  | void kind => kind.identifier?
  | literal _ _ => none

/-- The part at a path. -/
def at? (m : Markdown) : Path → Option Markdown
  | [] => some m
  | i :: path => (m.children?.bind (·[i]?)).bind (·.at? path)

mutual
/-- The parts of a document, in document order. -/
def parts : Markdown → List Markdown
  | container kind children => container kind children :: partsOfAll children
  | literal kind value => [literal kind value]
  | void kind => [void kind]

/-- The parts of some documents, in document order. -/
def partsOfAll : List Markdown → List Markdown
  | [] => []
  | m :: ms => m.parts ++ partsOfAll ms
end

/-- The texts of the literals of a document, in document order. -/
def literals (m : Markdown) : List String := m.parts.filterMap value?

private theorem toNodes_eq_map (ms : List Markdown) : toNodes ms = ms.map toNode := by
  induction ms with
  | nil => rfl
  | cons m ms ih => rw [toNodes, ih, List.map_cons]

/-! ### Conversion -/

@[simp] private theorem children?_toNode (m : Markdown) :
    m.toNode.children? = m.children?.map (List.map toNode) := by
  cases m with
  | container kind children => rw [toNode, toNodes_eq_map]; rfl
  | literal | void => rw [toNode]; rfl

private theorem value_toNode (m : Markdown) : m.toNode.content.value = m.value? := by
  cases m with
  | container kind children => rw [toNode]; exact kind.value_content
  | literal kind value => rw [toNode]; rfl
  | void kind => rw [toNode]; exact kind.value_content

private theorem identifier_toNode (m : Markdown) : m.toNode.content.identifier = m.identifier? := by
  cases m with
  | container kind children => rw [toNode]; exact kind.identifier_content
  | literal kind value => rw [toNode]; exact kind.identifier_content
  | void kind => rw [toNode]; exact kind.identifier_content

/-- The tree of a document has the trees of its parts at their paths. -/
theorem at?_toNode (m : Markdown) (path : Path) :
    m.toNode.at? path = (m.at? path).map toNode := by
  induction path generalizing m with
  | nil => rfl
  | cons i path ih =>
    cases m with
    | container kind children =>
      rw [toNode, toNodes_eq_map, Tree.at?, at?, List.getElem?_map, Option.bind_map,
        Option.map_bind]
      exact congrArg _ (funext ih)
    | literal | void => rw [toNode]; rfl

mutual
/-- The nodes of the tree of a document are the trees of its parts, in the same order. -/
theorem map_tree_placesAt : (m : Markdown) → (path : Path) →
    (m.toNode.placesAt path).map Place.tree = m.parts.map toNode
  | .container kind children, path => by
    rw [toNode, Tree.placesAt, parts, List.map_cons, List.map_cons,
      map_tree_placesBelow children, toNode]
  | .literal kind value, path => by
    rw [toNode, Tree.placesAt, parts, List.map_singleton, List.map_singleton, toNode]
  | .void kind, path => by
    rw [toNode, Tree.placesAt, parts, List.map_singleton, List.map_singleton, toNode]

/-- The nodes of the trees of some documents are the trees of their parts. -/
theorem map_tree_placesBelow : (ms : List Markdown) → (path : Path) → (index : Nat) →
    (Tree.placesBelow path index (toNodes ms)).map Place.tree = (partsOfAll ms).map toNode
  | [], path, index => by
    rw [toNodes, Tree.placesBelow, partsOfAll]
    rfl
  | m :: ms, path, index => by
    rw [toNodes, Tree.placesBelow, partsOfAll, List.map_append, List.map_append,
      map_tree_placesAt m, map_tree_placesBelow ms]
end

mutual
/-- The text of the tree of a document is made up of the texts of the literals. -/
theorem chars_toNode : (m : Markdown) →
    m.toNode.chars = (m.parts.filterMap value?).flatMap String.toList
  | .container kind children => by
    have hvalue : Element.value? kind.content = none := kind.value_content
    rw [toNode, Tree.chars, hvalue, parts, List.filterMap_cons_none rfl]
    exact charsOfAll_toNodes children
  | .literal kind value => by
    rw [toNode, parts]
    simp [Tree.chars, Element.value?, value?]
  | .void kind => by
    have hvalue : Element.value? kind.content = none := kind.value_content
    rw [toNode, Tree.chars, hvalue, parts]
    rfl

/-- The text of the trees of some documents is made up of the texts of their literals. -/
theorem charsOfAll_toNodes : (ms : List Markdown) →
    Tree.charsOfAll (toNodes ms) = ((partsOfAll ms).filterMap value?).flatMap String.toList
  | [] => by
    rw [toNodes, partsOfAll]
    rfl
  | m :: ms => by
    rw [toNodes, Tree.charsOfAll, partsOfAll, List.filterMap_append, List.flatMap_append,
      chars_toNode m, charsOfAll_toNodes ms]
end

private theorem text_toNode (m : Markdown) : m.toNode.text = String.join m.literals := by
  rw [Tree.text, chars_toNode, ← literals, ← String.toList_join, String.ofList_toList]

/-- Whether a node is what a part of a document becomes: it has children if the part is of a kind
that has, a value if it is of a kind that has a text, never both, the same text in the same order,
and the identifier of the part. -/
structure Mirrors (m : Markdown) (n : Node) : Prop where
  children : n.children? = m.children?.map (List.map toNode)
  value : n.content.value = m.value?
  apart : n.children? = none ∨ n.content.value = none
  inOrder : n.places.map Place.tree = m.parts.map toNode
  text : n.text = String.join m.literals
  identifier : n.content.identifier = m.identifier?

private theorem mirrors_toNode (m : Markdown) : m.Mirrors m.toNode where
  children := m.children?_toNode
  value := m.value_toNode
  apart := by
    rw [children?_toNode, value_toNode]
    cases m with
    | container => exact .inr rfl
    | literal | void => exact .inl rfl
  inOrder := m.map_tree_placesAt []
  text := m.text_toNode
  identifier := m.identifier_toNode

/-- The tree of a document has a node at a path exactly if the document has a part there, and the
node is what the part becomes. -/
theorem mirrors_at? (m : Markdown) (path : Path) :
    Option.Rel Mirrors (m.at? path) (m.toNode.at? path) := by
  rw [at?_toNode]
  cases m.at? path with
  | none => exact .none
  | some part => exact .some part.mirrors_toNode

end Markdown

end DocSelect
