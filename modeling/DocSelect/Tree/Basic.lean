import DocSelect.Json.Basic
import DocSelect.Text.Blank

/-!
# Trees

A tree's nodes carry contents of some kind and are leaves or parents; a parent may have no
children and is still no leaf. What selectors ask about a node's own contents is the class
`Element`. A node is identified by its place: the path of child indexes from the root.
-/

namespace DocSelect

/-- A tree with contents of a kind. -/
inductive Tree (α : Type) where
  | leaf (content : α)
  | parent (content : α) (children : List (Tree α))

/-- Whether a value of the attribute `class` names a class: as a word of a text, or as an item
of an array. -/
def namesClass (value : Json) (name : String) : Bool :=
  match value with
  | .string s => (Text.words s.toList).contains name.toList
  | .array items => items.any fun item ↦ item.string? == some name
  | _ => false

/-- What selectors can ask about the contents of a node. Only the type and the attributes have
to be given. -/
class Element (α : Type) where
  type : α → String
  attribute? : α → String → Option Json
  identifier? : α → Option String := fun _ ↦ none
  value? : α → Option String := fun _ ↦ none
  hasClass : α → String → Bool := fun a name ↦ (attribute? a "class").any (namesClass · name)

/-- Child indexes from the root down to a node. -/
abbrev Path := List Nat

namespace Tree

variable {α : Type}

/-- A leaf. -/
instance [Inhabited α] : Inhabited (Tree α) := ⟨.leaf default⟩

/-- The contents of the root. -/
def content : Tree α → α
  | leaf a => a
  | parent a _ => a

/-- The children of the root, if it is no leaf. -/
def children? : Tree α → Option (List (Tree α))
  | leaf _ => none
  | parent _ cs => some cs

/-- The same root with other children. -/
def withChildren (t : Tree α) (cs : List (Tree α)) : Tree α := .parent t.content cs

/-- The subtree at a path. -/
def at? (t : Tree α) : Path → Option (Tree α)
  | [] => some t
  | i :: path =>
    match t with
    | leaf _ => none
    | parent _ cs => (cs[i]?).bind fun child ↦ child.at? path

/-- Other children leave the contents as they are. -/
@[simp] theorem content_withChildren (t : Tree α) (cs : List (Tree α)) :
    (t.withChildren cs).content = t.content := rfl

/-- The children that are given are the children. -/
@[simp] theorem children?_withChildren (t : Tree α) (cs : List (Tree α)) :
    (t.withChildren cs).children? = some cs := rfl

section Text

variable [Element α]

/-- The type of the root. -/
def type (t : Tree α) : String := Element.type t.content

mutual
/-- The text of a tree: the value of its root, or else the texts of its children in order. -/
def chars : Tree α → List Char
  | leaf a => ((Element.value? a).getD "").toList
  | parent a cs =>
    match Element.value? a with
    | some value => value.toList
    | none => charsOfAll cs

/-- The texts of some trees, in order. -/
def charsOfAll : List (Tree α) → List Char
  | [] => []
  | t :: ts => t.chars ++ charsOfAll ts
end

/-- The text of a tree. -/
def text (t : Tree α) : String := String.ofList t.chars

end Text

end Tree

/-- A node of a tree: the subtree it is the root of, and the path to it. -/
structure Place (α : Type) where
  path : Path
  tree : Tree α

namespace Place

variable {α : Type}

/-- The root of a tree. -/
def root (t : Tree α) : Place α := ⟨[], t⟩

/-- The children of a node, in order. -/
def children (p : Place α) : List (Place α) :=
  (p.tree.children?.getD []).mapIdx fun i t ↦ ⟨p.path ++ [i], t⟩

/-- The node of a tree at a path. -/
def ofPath? (t : Tree α) (path : Path) : Option (Place α) :=
  (t.at? path).map fun subtree ↦ ⟨path, subtree⟩

end Place

end DocSelect
