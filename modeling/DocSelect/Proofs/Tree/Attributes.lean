import DocSelect.Markdown.Basic
import DocSelect.Tree.Exchange
import DocSelect.Tree.Lift
import DocSelect.Tree.Prune
import DocSelect.Proofs.Json.Draft
import DocSelect.Proofs.Tree.Located

/-!
# The attributes of document trees

A node has four members of its own, and reading it takes only the others for attributes. Trees of
Markdown documents have no attributes of these names either, and no rewrite adds any. So whatever
trees are made of, at no node does an attribute stand in the way of a member of the node's own.
-/

namespace DocSelect

open Outcome

/-! ### Regular attributes -/

/-- The names of the members that nodes have of their own. -/
def Attributes.reserved : List String := ["type", "children", "value", "identifier"]

/-- Attributes by name, none with the name of a member that nodes have of their own. -/
structure Attributes.Regular (attributes : Members Json) : Prop where
  sorted : attributes.Sorted
  values : ∀ a ∈ attributes, a.2.Sorted
  free : ∀ a ∈ attributes, a.1 ∉ reserved

/-- A tree all of whose contents have regular attributes. -/
def Node.Regular (n : Node) : Prop := ∀ c ∈ n.contents, Attributes.Regular c.attributes

namespace Attributes

variable {attributes : Members Json}

/-- Four names are reserved. -/
theorem mem_reserved {name : String} : name ∈ reserved ↔
    name = "type" ∨ name = "children" ∨ name = "value" ∨ name = "identifier" := by
  simp [reserved]

private theorem regular_nil : Regular [] := ⟨List.Pairwise.nil, nofun, nofun⟩

/-- One more attribute keeps them regular if its name is free. -/
theorem Regular.insert {name : String} {value : Json} (h : Regular attributes)
    (hname : name ∉ reserved) (hvalue : value.Sorted) :
    Regular (Members.insert name value attributes) where
  sorted := Members.sorted_insert h.sorted
  values a ha := by
    rcases Members.mem_insert ha with rfl | ha
    · exact hvalue
    · exact h.values a ha
  free a ha := by
    rcases Members.mem_insert ha with rfl | ha
    · exact hname
    · exact h.free a ha

/-- Fields with free names make regular attributes. -/
theorem regular_ofList {fields : List (String × Json)}
    (h : ∀ a ∈ fields, a.1 ∉ reserved ∧ a.2.Sorted) : Regular (Members.ofList fields) where
  sorted := Members.sorted_ofList fields
  values a ha := (h a (Members.mem_of_mem_ofList ha)).2
  free a ha := (h a (Members.mem_of_mem_ofList ha)).1

/-- No attribute has a reserved name. -/
theorem Regular.get?_eq_none {name : String} (h : Regular attributes) (hname : name ∈ reserved) :
    Members.get? attributes name = none := by
  rw [Members.get?_eq_none_iff, List.mem_map]
  rintro ⟨a, ha, rfl⟩
  exact h.free a ha hname

end Attributes

/-! ### Reading -/

/-- What has been read before and after one more member. -/
inductive NodeDraft.Takes (d : NodeDraft) : String → Draft → NodeDraft → Prop where
  | type {item : Draft} {type : String} (hnew : d.type = none) (h : item.asString = .ok type) :
      Takes d "type" item { d with type := some type }
  | children {item : Draft} {children : Option (List Node)} (hnew : d.children = none)
      (h : Node.readChildren item = .ok children) :
      Takes d "children" item { d with children := some children }
  | value {item : Draft} {value : Option String} (hnew : d.value = none)
      (h : item.asOptionalString = .ok value) :
      Takes d "value" item { d with value := some value }
  | identifier {item : Draft} {identifier : Option String} (hnew : d.identifier = none)
      (h : item.asOptionalString = .ok identifier) :
      Takes d "identifier" item { d with identifier := some identifier }
  | other {name : String} {item : Draft} {value : Json} (hfree : name ∉ Attributes.reserved)
      (h : item.value = .ok value) :
      Takes d name item { d with attributes := Members.insert name value d.attributes }

/-- A member that was there before is refused, and no other. -/
theorem refuseSecond_eq_ok {name : String} {β : Type} {before : Option β} {u : Unit} :
    refuseSecond name before.isSome = .ok u ↔ before = none := by
  cases before <;> simp [refuseSecond]

namespace Node

/-- Members are read one after the other. -/
theorem readMembers_cons_eq_ok {d d' : NodeDraft} {name : String} {item : Draft}
    {rest : List (String × Draft)} :
    readMembers d ((name, item) :: rest) = .ok d' ↔
      ∃ next, d.Takes name item next ∧ readMembers next rest = .ok d' := by
  rw [readMembers]
  constructor
  · intro h
    split at h
    · next hname =>
      subst hname
      obtain ⟨_, hnew, h⟩ := bind_eq_ok.1 h
      obtain ⟨type, htype, h⟩ := bind_eq_ok.1 h
      exact ⟨_, .type (refuseSecond_eq_ok.1 hnew) htype, h⟩
    split at h
    · next hname =>
      subst hname
      obtain ⟨_, hnew, h⟩ := bind_eq_ok.1 h
      obtain ⟨children, hchildren, h⟩ := bind_eq_ok.1 h
      exact ⟨_, .children (refuseSecond_eq_ok.1 hnew) hchildren, h⟩
    split at h
    · next hname =>
      subst hname
      obtain ⟨_, hnew, h⟩ := bind_eq_ok.1 h
      obtain ⟨value, hvalue, h⟩ := bind_eq_ok.1 h
      exact ⟨_, .value (refuseSecond_eq_ok.1 hnew) hvalue, h⟩
    split at h
    · next hname =>
      subst hname
      obtain ⟨_, hnew, h⟩ := bind_eq_ok.1 h
      obtain ⟨identifier, hidentifier, h⟩ := bind_eq_ok.1 h
      exact ⟨_, .identifier (refuseSecond_eq_ok.1 hnew) hidentifier, h⟩
    · next htype hchildren hvalue hidentifier =>
      obtain ⟨value, hv, h⟩ := bind_eq_ok.1 h
      have hfree : name ∉ Attributes.reserved := by
        simp [Attributes.mem_reserved, htype, hchildren, hvalue, hidentifier]
      exact ⟨_, .other hfree (mapError_eq_ok.1 hv), h⟩
  · rintro ⟨next, htakes, h⟩
    cases htakes with
    | type hnew hitem =>
      rw [if_pos rfl, hnew, hitem]
      exact h
    | children hnew hitem =>
      rw [if_neg (by decide), if_pos rfl, hnew, hitem]
      exact h
    | value hnew hitem =>
      rw [if_neg (by decide), if_neg (by decide), if_pos rfl, hnew, hitem]
      exact h
    | identifier hnew hitem =>
      rw [if_neg (by decide), if_neg (by decide), if_neg (by decide), if_pos rfl, hnew, hitem]
      exact h
    | other hfree hitem =>
      simp only [Attributes.mem_reserved, not_or] at hfree
      obtain ⟨htype, hchildren, hvalue, hidentifier⟩ := hfree
      rw [if_neg htype, if_neg hchildren, if_neg hvalue, if_neg hidentifier, hitem]
      exact h

end Node

/-- Regular attributes and, if there are any, regular children have been read. -/
structure NodeDraft.Regular (d : NodeDraft) : Prop where
  attributes : Attributes.Regular d.attributes
  children : ∀ cs, d.children = some (some cs) → ∀ n ∈ cs, n.Regular

private theorem NodeDraft.regular_empty : NodeDraft.empty.Regular :=
  ⟨Attributes.regular_nil, fun _ h ↦ by cases h⟩

/-- One more member keeps what has been read regular if its nodes are. -/
theorem NodeDraft.Takes.regular {d d' : NodeDraft} {name : String} {item : Draft}
    (h : d.Takes name item d') (hd : d.Regular)
    (hitem : ∀ cs, Node.readChildren item = .ok (some cs) → ∀ n ∈ cs, n.Regular) :
    d'.Regular := by
  cases h with
  | type | value | identifier => exact ⟨hd.attributes, hd.children⟩
  | children _ h =>
    refine ⟨hd.attributes, fun cs hcs ↦ hitem cs ?_⟩
    rw [h, Option.some.inj hcs]
  | other hfree h => exact ⟨hd.attributes.insert hfree (Draft.sorted_of_value item h), hd.children⟩

namespace Node

private theorem mem_contentsOfAll {c : Content} {ns : List Node} :
    c ∈ Tree.contentsOfAll ns ↔ ∃ n ∈ ns, c ∈ n.contents := by
  induction ns with
  | nil => simp [Tree.contentsOfAll]
  | cons n ns ih => rw [Tree.contentsOfAll, List.mem_append, ih, List.exists_mem_cons_iff]

/-- A leaf is regular if its attributes are. -/
theorem regular_leaf {c : Content} : Regular (.leaf c) ↔ Attributes.Regular c.attributes := by
  simp [Regular, Tree.contents]

/-- A parent is regular if its attributes and children are. -/
theorem regular_parent {c : Content} {cs : List Node} :
    Regular (.parent c cs) ↔ Attributes.Regular c.attributes ∧ ∀ n ∈ cs, n.Regular := by
  simp only [Regular, Tree.contents, List.forall_mem_cons, mem_contentsOfAll]
  refine and_congr_right fun _ ↦ ⟨fun h n hn c hc ↦ h c ⟨n, hn, hc⟩, ?_⟩
  rintro h c ⟨n, hn, hc⟩
  exact h n hn c hc

/-- The attributes of the root of a regular tree are regular. -/
theorem Regular.content {n : Node} (h : n.Regular) : Attributes.Regular n.content.attributes := by
  cases n with
  | leaf c => exact regular_leaf.1 h
  | parent c cs => exact (regular_parent.1 h).1

/-- A node is regular if what was read for it is. -/
theorem regular_toNode {d : NodeDraft} {n : Node} (hd : d.Regular) (h : d.toNode = .ok n) :
    n.Regular := by
  unfold NodeDraft.toNode at h
  split at h
  · cases h
  · obtain rfl := Except.ok.inj h
    split
    · exact regular_leaf.2 hd.attributes
    · next cs hcs =>
      exact regular_parent.2 ⟨hd.attributes, hd.children cs (Option.join_eq_some_iff.1 hcs)⟩

mutual
/-- What is read is regular. -/
theorem regular_ofDraft : (draft : Draft) → {n : Node} → ofDraft draft = .ok n → n.Regular
  | .object members stop, n, h => by
    rw [ofDraft] at h
    obtain ⟨d, hd, h⟩ := bind_eq_ok.1 h
    obtain ⟨_, _, h⟩ := bind_eq_ok.1 h
    exact regular_toNode (regular_readMembers members NodeDraft.regular_empty hd) h
  | .null, _, h | .bool _, _, h | .number _, _, h | .string _, _, h | .array _ _, _, h
  | .broken _, _, h => by
    rw [ofDraft] at h
    cases h

/-- Reading members keeps what was read before regular. -/
theorem regular_readMembers : (members : List (String × Draft)) → {d d' : NodeDraft} →
    d.Regular → readMembers d members = .ok d' → d'.Regular
  | [], _, _, hd, h => by
    rw [readMembers] at h
    rwa [← Except.ok.inj h]
  | (name, item) :: rest, _, _, hd, h => by
    obtain ⟨next, htakes, h⟩ := readMembers_cons_eq_ok.1 h
    exact regular_readMembers rest (htakes.regular hd fun cs ↦ regular_readChildren item) h

/-- The children that are read are regular. -/
theorem regular_readChildren : (item : Draft) → {cs : List Node} →
    readChildren item = .ok (some cs) → ∀ n ∈ cs, n.Regular
  | .array items stop, cs, h => by
    rw [readChildren] at h
    obtain ⟨ns, hns, h⟩ := bind_eq_ok.1 h
    obtain ⟨_, _, h⟩ := bind_eq_ok.1 h
    rw [← Option.some.inj (Except.ok.inj h)]
    exact regular_ofDrafts items hns
  | .null, _, h | .bool _, _, h | .number _, _, h | .string _, _, h | .object _ _, _, h
  | .broken _, _, h => by
    rw [readChildren] at h
    cases h

/-- All nodes that are read are regular. -/
theorem regular_ofDrafts : (items : List Draft) → {ns : List Node} → ofDrafts items = .ok ns →
    ∀ n ∈ ns, n.Regular
  | [], _, h => by
    rw [ofDrafts] at h
    rw [← Except.ok.inj h]
    exact nofun
  | item :: rest, _, h => by
    rw [ofDrafts] at h
    obtain ⟨n, hn, h⟩ := bind_eq_ok.1 h
    obtain ⟨ns, hns, h⟩ := bind_eq_ok.1 h
    rw [← Except.ok.inj h]
    exact List.forall_mem_cons.2 ⟨regular_ofDraft item hn, regular_ofDrafts rest hns⟩
end

end Node

/-! ### Markdown -/

private theorem Json.sorted_ofOption (text : Option String) : (Json.ofOption text).Sorted := by
  cases text <;> trivial

private theorem Alignment.sorted_toJson (a : Option Alignment) : (Alignment.toJson a).Sorted := by
  rcases a with _ | _ | _ | _ <;> trivial

namespace Content

variable {type : String} {fields : List (String × Json)}

private theorem regular_ofFields (h : ∀ a ∈ fields, a.1 ∉ Attributes.reserved ∧ a.2.Sorted) :
    Attributes.Regular (ofFields type fields).attributes :=
  Attributes.regular_ofList h

private theorem regular_ofReference {identifier : String} {label : Option String}
    (h : ∀ a ∈ fields, a.1 ∉ Attributes.reserved ∧ a.2.Sorted) :
    Attributes.Regular (ofReference type identifier label fields).attributes := by
  refine Attributes.regular_ofList (List.forall_mem_append.2 ⟨h, ?_⟩)
  simp [Attributes.reserved, Json.sorted_ofOption]

end Content

/-- The fields of a container are regular attributes. -/
theorem Container.regular_content (kind : Container) :
    Attributes.Regular kind.content.attributes := by
  cases kind with
  | root | blockquote | paragraph | tableRow | tableCell | emphasis | strong | delete =>
    exact Attributes.regular_nil
  | footnoteDefinition | linkReference =>
    exact Content.regular_ofReference (by simp [Attributes.reserved, Json.Sorted])
  | list ordered start spread =>
    cases start <;>
      exact Content.regular_ofFields (by simp [Attributes.reserved, Json.Sorted, Json.ofInt])
  | listItem spread checked =>
    cases checked <;> exact Content.regular_ofFields (by simp [Attributes.reserved, Json.Sorted])
  | heading =>
    exact Content.regular_ofFields (by simp [Attributes.reserved, Json.Sorted, Json.ofInt])
  | table align =>
    have halign : (Json.array (align.map Alignment.toJson)).Sorted := by
      simp [Json.Sorted, Json.allSorted_iff, Alignment.sorted_toJson]
    exact Content.regular_ofFields (by simp [Attributes.reserved, halign])
  | link | jsxFlowElement | jsxTextElement =>
    exact Content.regular_ofFields
      (by simp [Attributes.reserved, Json.Sorted, Json.sorted_ofOption])

/-- The fields of a literal are regular attributes. -/
theorem Literal.regular_content (kind : Literal) :
    Attributes.Regular kind.content.attributes := by
  cases kind with
  | code | math =>
    exact Content.regular_ofFields (by simp [Attributes.reserved, Json.sorted_ofOption])
  | inlineCode | inlineMath | text | html | yaml | toml | scriptModule | textExpression
  | flowExpression => exact Attributes.regular_nil

/-- The fields of a void are regular attributes. -/
theorem Void.regular_content (kind : Void) : Attributes.Regular kind.content.attributes := by
  cases kind with
  | image =>
    exact Content.regular_ofFields
      (by simp [Attributes.reserved, Json.Sorted, Json.sorted_ofOption])
  | imageReference | definition | footnoteReference =>
    exact Content.regular_ofReference
      (by simp [Attributes.reserved, Json.Sorted, Json.sorted_ofOption])
  | lineBreak | thematicBreak => exact Attributes.regular_nil

mutual
/-- The tree of a Markdown document is regular. -/
theorem Markdown.regular_toNode : (m : Markdown) → m.toNode.Regular
  | .container kind children => by
    rw [toNode]
    exact Node.regular_parent.2 ⟨kind.regular_content, Markdown.regular_toNodes children⟩
  | .literal kind _ => by
    rw [toNode]
    exact Node.regular_leaf.2 kind.regular_content
  | .void kind => by
    rw [toNode]
    exact Node.regular_leaf.2 kind.regular_content

/-- The trees of Markdown documents are regular. -/
theorem Markdown.regular_toNodes : (ms : List Markdown) → ∀ n ∈ toNodes ms, n.Regular
  | [] => by
    rw [toNodes]
    exact nofun
  | m :: ms => by
    rw [toNodes]
    exact List.forall_mem_cons.2 ⟨Markdown.regular_toNode m, Markdown.regular_toNodes ms⟩
end

/-! ### Rewriting -/

namespace Tree

variable {α σ : Type}

section Prune

variable {keep : Place α → σ → Bool × σ} {cascade : Bool}

mutual
/-- Pruning a subtree adds no contents. -/
theorem contents_rebuild : (t : Tree α) → (path : Path) → (state : σ) →
    (contentsOfAll (t.rebuild keep cascade path state).1.toList).Sublist t.contents
  | .leaf a, path, state => by
    rw [rebuild]
    dsimp only
    split <;> simp [contentsOfAll, contents]
  | .parent a cs, path, state => by
    rw [rebuild]
    dsimp only
    split
    · dsimp only
      split
      · exact List.nil_sublist _
      · rw [Option.toList_some, contentsOfAll, contentsOfAll, List.append_nil, contents, contents]
        exact (contents_rebuildAll cs path 0 _).cons_cons a
    · exact List.nil_sublist _

/-- Pruning siblings adds no contents. -/
theorem contents_rebuildAll : (ts : List (Tree α)) → (path : Path) → (index : Nat) →
    (state : σ) →
    (contentsOfAll (rebuildAll keep cascade path index ts state).1).Sublist (contentsOfAll ts)
  | [], _, _, _ => List.Sublist.refl _
  | t :: ts, path, index, state => by
    rw [rebuildAll, contentsOfAll]
    dsimp only
    rw [contentsOfAll_append]
    exact (contents_rebuild t _ _).append (contents_rebuildAll ts _ _ _)
end

end Prune

section Lift

variable [Element α] {type : String}

/-- Unwrapping leaves all contents, or those of the children. -/
theorem contents_unwrap (t : Tree α) : (contentsOfAll (t.unwrap type)).Sublist t.contents := by
  cases t with
  | leaf a => simp [unwrap, contentsOfAll]
  | parent a cs =>
    rw [unwrap]
    split
    · exact List.sublist_cons_self a _
    · simp [contentsOfAll]

mutual
/-- Lifting adds no contents. -/
theorem contents_lift : (t : Tree α) → (t.lift type).contents.Sublist t.contents
  | .leaf a => by rw [lift]
  | .parent a cs => by
    rw [lift, contents, contents]
    exact (contents_liftAll cs).cons_cons a

/-- Lifting siblings adds no contents. -/
theorem contents_liftAll : (ts : List (Tree α)) →
    (contentsOfAll (liftAll type ts)).Sublist (contentsOfAll ts)
  | [] => by rw [liftAll]
  | t :: ts => by
    rw [liftAll, contentsOfAll_append, contentsOfAll]
    exact ((contents_unwrap _).trans (contents_lift t)).append (contents_liftAll ts)
end

end Lift

/-- What a filter with a state leaves of a tree has no contents but those of the tree. -/
theorem contents_filterWith {keep : Place α → σ → Bool × σ} {cascade : Bool} {state : σ}
    {t r : Tree α} (h : (t.filterWith keep cascade state).1 = some r) :
    r.contents.Sublist t.contents := by
  have hsub : (contentsOfAll (t.filterWith keep cascade state).1.toList).Sublist t.contents :=
    contents_rebuild t [] state
  rwa [h, Option.toList_some, contentsOfAll, contentsOfAll, List.append_nil] at hsub

end Tree

namespace Node

/-- The document trees that there are: made of JSON values, of what readers make of JSON texts or of
Markdown, and then filtered, rejected from and lifted any number of times. -/
inductive Made : Node → Prop where
  | ofJson {value : Json} {n : Node} (h : Node.ofJson value = .ok n) : Made n
  | reading {reading : Draft × Option Fault} {n : Node} (h : Node.ofReading reading = .ok n) :
      Made n
  | markdown (m : Markdown) : Made m.toNode
  | filter {σ : Type} (keep : Place Content → σ → Bool × σ) (cascade : Bool) (state : σ)
      {n r : Node} (hn : Made n) (h : (n.filterWith keep cascade state).1 = some r) : Made r
  | reject {σ : Type} (remove : Place Content → σ → Bool × σ) (cascade : Bool) (state : σ)
      {n r : Node} (hn : Made n) (h : (n.rejectWith remove cascade state).1 = some r) : Made r
  | lift (type : String) {n : Node} (hn : Made n) : Made (n.lift type)

/-- The attributes of all document trees are regular. -/
theorem Made.regular {n : Node} (h : n.Made) : n.Regular := by
  induction h with
  | ofJson h => exact regular_ofDraft _ h
  | reading h =>
    obtain ⟨n, hn, h⟩ := bind_eq_ok.1 h
    obtain ⟨_, _, h⟩ := bind_eq_ok.1 h
    rw [← Except.ok.inj h]
    exact regular_ofDraft _ hn
  | markdown m => exact m.regular_toNode
  | filter keep cascade state _ h ih =>
    exact fun c hc ↦ ih c ((Tree.contents_filterWith h).subset hc)
  | reject remove cascade state _ h ih =>
    exact fun c hc ↦ ih c ((Tree.contents_filterWith h).subset hc)
  | lift type _ ih => exact fun c hc ↦ ih c ((Tree.contents_lift _).subset hc)

end Node

end DocSelect
