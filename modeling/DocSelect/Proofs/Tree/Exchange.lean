import DocSelect.Proofs.Tree.Attributes

/-!
# Document trees and their JSON values

Reading an object takes the members of a node's own by name and all others for attributes, so the
order of members does not matter and what is read is known from looking names up. Hence a tree
with regular attributes is read back from its value, and the value of a tree that was read is the
value that it was read from, without the members of `null` that stand for none.
-/

namespace DocSelect

open Outcome

/-! ### Reading by lookups -/

/-- What has been read is what the members under some names say. -/
structure NodeDraft.Holds (d : NodeDraft) (lookup : String → Option Json) : Prop where
  type : (lookup "type").map (fun v ↦ (Draft.ofJson v).asString) = d.type.map .ok
  children : (lookup "children").map (fun v ↦ Node.readChildren (.ofJson v)) = d.children.map .ok
  value : (lookup "value").map (fun v ↦ (Draft.ofJson v).asOptionalString) = d.value.map .ok
  identifier :
    (lookup "identifier").map (fun v ↦ (Draft.ofJson v).asOptionalString) = d.identifier.map .ok
  sorted : d.attributes.Sorted
  attributes : ∀ name, Members.get? d.attributes name =
    if name ∈ Attributes.reserved then none else lookup name

namespace NodeDraft

variable {d d' next : NodeDraft} {lookup lookup' : String → Option Json} {name : String}
  {value : Json}

private theorem holds_empty : empty.Holds fun _ ↦ none := by
  refine ⟨rfl, rfl, rfl, rfl, List.Pairwise.nil, fun name ↦ ?_⟩
  rw [ite_self]
  rfl

/-- Members say one thing. -/
theorem Holds.unique (h : d.Holds lookup) (h' : d'.Holds lookup) : d = d' := by
  have inj {β : Type} {a b : Option β} {o : Option (Except TreeError β)}
      (ha : o = a.map .ok) (hb : o = b.map .ok) : a = b :=
    Option.map_injective (fun _ _ ↦ Except.ok.inj) (ha.symm.trans hb)
  have hattributes : d.attributes = d'.attributes :=
    h.sorted.ext h'.sorted fun name ↦ (h.attributes name).trans (h'.attributes name).symm
  obtain ⟨type, children, value, identifier, attributes⟩ := d
  obtain ⟨type', children', value', identifier', attributes'⟩ := d'
  obtain rfl : type = type' := inj h.type h'.type
  obtain rfl : children = children' := inj h.children h'.children
  obtain rfl : value = value' := inj h.value h'.value
  obtain rfl : identifier = identifier' := inj h.identifier h'.identifier
  obtain rfl : attributes = attributes' := hattributes
  rfl

private theorem attributes_update (hd : d.Holds lookup) (hname : name ∈ Attributes.reserved)
    (other : String) :
    Members.get? d.attributes other = if other ∈ Attributes.reserved then none
      else Function.update lookup name (some value) other := by
  rw [hd.attributes]
  split
  · rfl
  · next hother =>
    rw [Function.update_of_ne]
    rintro rfl
    exact hother hname

/-- One more member says what is read from it. -/
theorem Takes.holds (h : d.Takes name (.ofJson value) next) (hd : d.Holds lookup)
    (hvalue : value.Sorted) : next.Holds (Function.update lookup name (some value)) := by
  cases h with
  | type _ h =>
    exact ⟨by simp [h], by simpa using hd.children, by simpa using hd.value,
      by simpa using hd.identifier, hd.sorted, attributes_update (d := d) hd (by decide)⟩
  | children _ h =>
    exact ⟨by simpa using hd.type, by simp [h], by simpa using hd.value,
      by simpa using hd.identifier, hd.sorted, attributes_update (d := d) hd (by decide)⟩
  | value _ h =>
    exact ⟨by simpa using hd.type, by simpa using hd.children, by simp [h],
      by simpa using hd.identifier, hd.sorted, attributes_update (d := d) hd (by decide)⟩
  | identifier _ h =>
    exact ⟨by simpa using hd.type, by simpa using hd.children, by simpa using hd.value,
      by simp [h], hd.sorted, attributes_update (d := d) hd (by decide)⟩
  | @other _ _ read hfree h =>
    obtain rfl : value = read := Except.ok.inj ((Draft.value_ofJson value hvalue).symm.trans h)
    have hother {own : String} (hown : own ∈ Attributes.reserved) :
        Function.update lookup name (some value) own = lookup own := by
      rw [Function.update_of_ne]
      rintro rfl
      exact hfree hown
    refine ⟨?_, ?_, ?_, ?_, Members.sorted_insert hd.sorted, fun other ↦ ?_⟩
    · rw [hother (by decide)]
      exact hd.type
    · rw [hother (by decide)]
      exact hd.children
    · rw [hother (by decide)]
      exact hd.value
    · rw [hother (by decide)]
      exact hd.identifier
    · rw [Members.get?_insert, hd.attributes]
      by_cases heq : name = other
      · subst heq
        rw [if_pos rfl, if_neg hfree, Function.update_self]
      · rw [if_neg heq, Function.update_of_ne (Ne.symm heq)]

/-- A member that was not there before can be read if it can be part of what was read. -/
private theorem exists_read {β : Type} {f : Json → Except TreeError β} {before after : Option Json}
    {a b : Option β} (hbefore : before.map f = a.map .ok) (hnew : before = none)
    (hafter : after.map f = b.map .ok) (hsome : after = some value) :
    a = none ∧ ∃ c, f value = .ok c := by
  subst hnew hsome
  refine ⟨Option.map_eq_none_iff.1 hbefore.symm, ?_⟩
  cases b with
  | none => cases hafter
  | some c => exact ⟨c, Option.some.inj hafter⟩

/-- A member under a new name is taken if some node has it. -/
theorem Holds.exists_takes (hd : d.Holds lookup) (hnew : lookup name = none)
    (hd' : d'.Holds lookup') (hsome : lookup' name = some value) (hvalue : value.Sorted) :
    ∃ next, d.Takes name (.ofJson value) next := by
  by_cases hname : name ∈ Attributes.reserved
  · rcases Attributes.mem_reserved.1 hname with rfl | rfl | rfl | rfl
    · obtain ⟨hunset, type, h⟩ := exists_read hd.type hnew hd'.type hsome
      exact ⟨_, .type hunset h⟩
    · obtain ⟨hunset, children, h⟩ := exists_read hd.children hnew hd'.children hsome
      exact ⟨_, .children hunset h⟩
    · obtain ⟨hunset, text, h⟩ := exists_read hd.value hnew hd'.value hsome
      exact ⟨_, .value hunset h⟩
    · obtain ⟨hunset, text, h⟩ := exists_read hd.identifier hnew hd'.identifier hsome
      exact ⟨_, .identifier hunset h⟩
  · exact ⟨_, .other hname (Draft.value_ofJson value hvalue)⟩

end NodeDraft

namespace Members

variable {members : Members Json} {lookup : String → Option Json}

/-- The members under names, where others may have been before. -/
def after (members : Members Json) (lookup : String → Option Json) (name : String) : Option Json :=
  (get? members name).or (lookup name)

/-- Members are looked up one after the other. -/
theorem after_update {name : String} {value : Json} (hnew : name ∉ members.map Prod.fst) :
    after members (Function.update lookup name (some value)) =
      after ((name, value) :: members) lookup := by
  funext other
  rw [after, after, get?_cons]
  split
  · next heq =>
    subst heq
    rw [get?_eq_none_iff.2 hnew, Function.update_self]
    rfl
  · next hne => rw [Function.update_of_ne (Ne.symm hne)]

private theorem after_none : after members (fun _ ↦ none) = get? members := by
  funext name
  exact Option.or_none

end Members

namespace Node

/-- Members of different names are read to what they say, if a node has them. -/
theorem readMembers_eq_ok_iff {members : List (String × Json)} {d d' : NodeDraft}
    {lookup : String → Option Json} (hmembers : (members.map Prod.fst).Nodup)
    (hvalues : ∀ m ∈ members, m.2.Sorted) (hd : d.Holds lookup)
    (hnew : ∀ m ∈ members, lookup m.1 = none) :
    readMembers d (Draft.ofMembers members) = .ok d' ↔ d'.Holds (Members.after members lookup) := by
  -- What the members before have said is carried along as `lookup`.
  induction members generalizing d lookup with
  | nil =>
    rw [Draft.ofMembers, readMembers]
    constructor
    · intro h
      rw [← Except.ok.inj h]
      exact hd
    · intro h
      rw [hd.unique h]
  | cons member rest ih =>
    obtain ⟨name, value⟩ := member
    obtain ⟨hfresh, hrest⟩ := List.nodup_cons.1 hmembers
    obtain ⟨hvalue, hvalues⟩ := List.forall_mem_cons.1 hvalues
    obtain ⟨hname, hnew⟩ := List.forall_mem_cons.1 hnew
    have hnew' : ∀ m ∈ rest, Function.update lookup name (some value) m.1 = none := by
      intro m hm
      rw [Function.update_of_ne, hnew m hm]
      rintro rfl
      exact hfresh (List.mem_map.2 ⟨m, hm, rfl⟩)
    have step {next : NodeDraft} (htakes : d.Takes name (.ofJson value) next) :
        readMembers next (Draft.ofMembers rest) = .ok d' ↔
          d'.Holds (Members.after ((name, value) :: rest) lookup) := by
      rw [ih hrest hvalues (htakes.holds hd hvalue) hnew', Members.after_update hfresh]
    rw [Draft.ofMembers, readMembers_cons_eq_ok]
    constructor
    · rintro ⟨next, htakes, h⟩
      exact (step htakes).1 h
    · intro h
      have hsome : Members.after ((name, value) :: rest) lookup name = some value := by
        simp [Members.after, Members.get?_cons]
      obtain ⟨next, htakes⟩ := hd.exists_takes hname h hsome hvalue
      exact ⟨next, htakes, (step htakes).2 h⟩

/-- The members of an object are read to what looking them up says. -/
theorem readMembers_empty_eq_ok_iff {members : Members Json} {d : NodeDraft}
    (h : (Json.object members).Sorted) :
    readMembers .empty (Draft.ofMembers members) = .ok d ↔ d.Holds (Members.get? members) := by
  rw [Json.Sorted] at h
  rw [readMembers_eq_ok_iff h.1.nodup (Json.membersSorted_iff.1 h.2) NodeDraft.holds_empty
    fun _ _ ↦ rfl, Members.after_none]

end Node

/-! ### Reading what was written -/

/-- The member of a name that a node with some contents and children has. -/
def Content.member? (c : Content) (children : Option Json) (name : String) : Option Json :=
  if name = "type" then some (.string c.type)
  else if name = "children" then children
  else if name = "value" then c.value.map .string
  else if name = "identifier" then c.identifier.map .string
  else Members.get? c.attributes name

/-- Under a free name a node has its attribute. -/
theorem Content.member?_of_free {c : Content} {children : Option Json} {name : String}
    (h : name ∉ Attributes.reserved) :
    c.member? children name = Members.get? c.attributes name := by
  simp only [Attributes.mem_reserved, not_or] at h
  obtain ⟨htype, hchildren, hvalue, hidentifier⟩ := h
  rw [member?, if_neg htype, if_neg hchildren, if_neg hvalue, if_neg hidentifier]

/-- The names of the members that are written for a node with regular attributes occur once. -/
theorem Content.nodup_members {c : Content} (h : Attributes.Regular c.attributes)
    (children : Option Json) : ((c.members children).map Prod.fst).Nodup := by
  have optional {β : Type} (own : String) (o : Option β) (f : β → Json) :
      ((o.map fun b ↦ (own, f b)).toList.map Prod.fst).Sublist [own] := by
    cases o <;> simp
  rw [members, List.map_append, List.nodup_append]
  set own := ("type", Json.string c.type) :: (children.map ("children", ·)).toList
    ++ (c.value.map (("value", .string ·))).toList
    ++ (c.identifier.map (("identifier", .string ·))).toList with hown
  have hsub : (own.map Prod.fst).Sublist Attributes.reserved := by
    rw [hown, List.map_append, List.map_append, List.map_cons]
    have htype := (optional "children" children id).cons_cons "type"
    exact (htype.append (optional "value" _ _)).append (optional "identifier" _ _)
  refine ⟨hsub.nodup (by decide), h.sorted.nodup, fun name hname _ hother heq ↦ ?_⟩
  obtain ⟨a, ha, rfl⟩ := List.mem_map.1 hother
  exact h.free a ha (heq ▸ hsub.subset hname)

/-- The members that are written for a node with regular attributes are looked up by name. -/
theorem Content.get?_members {c : Content} (h : Attributes.Regular c.attributes)
    (children : Option Json) :
    Members.get? (Members.ofList (c.members children)) = c.member? children := by
  have optional {β : Type} (own name : String) (o : Option β) (f : β → Json) :
      Members.get? (o.map fun b ↦ (own, f b)).toList name =
        if name = own then o.map f else none := by
    cases o <;> simp [Members.get?_cons, eq_comm]
  funext name
  rw [Members.get?_ofList (nodup_members h children), members, member?]
  by_cases hname : name ∈ Attributes.reserved
  · have hnone := h.get?_eq_none hname
    rcases Attributes.mem_reserved.1 hname with rfl | rfl | rfl | rfl <;>
      simp [Members.get?_append, Members.get?_cons, optional, hnone]
  · simp only [Attributes.mem_reserved, not_or] at hname
    obtain ⟨htype, hchildren, hvalue, hidentifier⟩ := hname
    simp [Members.get?_append, Members.get?_cons, optional, htype, Ne.symm htype, hchildren,
      hvalue, hidentifier]

namespace Node

private theorem toJson_eq (n : Node) : n.toJson =
    .object (Members.ofList
      (n.content.members (n.children?.map fun cs ↦ .array (toJsonAll cs)))) := by
  cases n with
  | leaf c => rw [toJson]; rfl
  | parent c cs => rw [toJson]; rfl

end Node

/-- What has been read makes up a node. -/
theorem NodeDraft.toNode_eq_ok {d : NodeDraft} {n : Node} :
    d.toNode = .ok n ↔ d.type = some n.content.type ∧ d.children.join = n.children? ∧
      d.value.join = n.content.value ∧ d.identifier.join = n.content.identifier ∧
      d.attributes = n.content.attributes := by
  obtain ⟨type, children, value, identifier, attributes⟩ := d
  unfold toNode
  cases type with
  | none => simp
  | some type =>
    dsimp only
    generalize children.join = children
    generalize value.join = value
    generalize identifier.join = identifier
    constructor
    · intro h
      obtain rfl := Except.ok.inj h
      cases children <;> exact ⟨rfl, rfl, rfl, rfl, rfl⟩
    · rintro ⟨htype, rfl, rfl, rfl, rfl⟩
      obtain rfl := Option.some.inj htype
      cases n <;> rfl

namespace Node

/-- The object of a node with regular attributes is sorted if its children are. -/
theorem sorted_members {c : Content} (h : Attributes.Regular c.attributes) {children : Option Json}
    (hchildren : ∀ v, children = some v → v.Sorted) :
    (Json.object (Members.ofList (c.members children))).Sorted := by
  rw [Json.Sorted]
  refine ⟨Members.sorted_ofList _, Json.membersSorted_iff.2 fun member hm ↦ ?_⟩
  have hm := Members.mem_of_mem_ofList hm
  simp only [Content.members, List.cons_append, List.mem_cons, List.mem_append,
    Option.mem_toList, Option.map_eq_some_iff] at hm
  rcases hm with rfl | ((⟨v, hv, rfl⟩ | ⟨text, _, rfl⟩) | ⟨text, _, rfl⟩) | ha
  · trivial
  · exact hchildren v hv
  · trivial
  · trivial
  · exact h.values member ha

mutual
/-- A tree with regular attributes has a sorted value. -/
theorem sorted_toJson : (n : Node) → n.Regular → n.toJson.Sorted
  | .leaf c, h => by
    rw [toJson]
    exact sorted_members (regular_leaf.1 h) nofun
  | .parent c cs, h => by
    obtain ⟨hc, hcs⟩ := regular_parent.1 h
    rw [toJson]
    refine sorted_members hc fun v hv ↦ ?_
    rw [← Option.some.inj hv, Json.Sorted]
    exact allSorted_toJsonAll cs hcs

/-- Trees with regular attributes have sorted values. -/
theorem allSorted_toJsonAll : (ns : List Node) → (∀ n ∈ ns, n.Regular) →
    Json.AllSorted (toJsonAll ns)
  | [], _ => by
    rw [toJsonAll]
    trivial
  | n :: ns, h => by
    obtain ⟨hn, hns⟩ := List.forall_mem_cons.1 h
    rw [toJsonAll, Json.AllSorted]
    exact ⟨sorted_toJson n hn, allSorted_toJsonAll ns hns⟩
end

/-- A node with regular attributes is read back from its value if its children are. -/
theorem ofJson_of_children {n : Node} (h : n.Regular) (hchildren : ∀ cs, n.children? = some cs →
    ofDrafts (Draft.ofItems (toJsonAll cs)) = .ok cs) : Node.ofJson n.toJson = .ok n := by
  have hc := h.content
  let d : NodeDraft := ⟨some n.content.type, n.children?.map some, n.content.value.map some,
    n.content.identifier.map some, n.content.attributes⟩
  let children := n.children?.map fun cs ↦ Json.array (toJsonAll cs)
  have hd : d.Holds (n.content.member? children) := by
    refine ⟨rfl, ?_, ?_, ?_, hc.sorted, fun name ↦ ?_⟩
    · show (n.children?.map fun cs ↦ Json.array (toJsonAll cs)).map
        (fun v ↦ readChildren (.ofJson v)) = (n.children?.map some).map .ok
      rw [Option.map_map, Option.map_map]
      refine Option.map_congr fun cs hcs ↦ ?_
      show readChildren (Draft.ofJson (.array (toJsonAll cs))) = .ok (some cs)
      rw [Draft.ofJson, readChildren, hchildren cs hcs]
      rfl
    · show (n.content.value.map Json.string).map (fun v ↦ (Draft.ofJson v).asOptionalString) =
        (n.content.value.map some).map .ok
      rw [Option.map_map, Option.map_map]
      rfl
    · show (n.content.identifier.map Json.string).map
        (fun v ↦ (Draft.ofJson v).asOptionalString) = (n.content.identifier.map some).map .ok
      rw [Option.map_map, Option.map_map]
      rfl
    · split
      · next hname => exact hc.get?_eq_none hname
      · next hname => rw [Content.member?_of_free hname]
  rw [← Content.get?_members hc] at hd
  have hsorted := sorted_toJson n h
  rw [toJson_eq] at hsorted ⊢
  have hread := (readMembers_empty_eq_ok_iff hsorted).2 hd
  have join {β : Type} (o : Option β) : (o.map some).join = o := by cases o <;> rfl
  have hnode : d.toNode = .ok n :=
    NodeDraft.toNode_eq_ok.2 ⟨rfl, join _, join _, join _, rfl⟩
  rw [Node.ofJson, Draft.ofJson, ofDraft, hread]
  exact hnode

mutual
/-- A tree with regular attributes is read back from its value. -/
theorem ofJson_toJson : (n : Node) → n.Regular → Node.ofJson n.toJson = .ok n
  | .leaf c, h => ofJson_of_children h nofun
  | .parent c cs, h => by
    refine ofJson_of_children h fun ds hds ↦ ?_
    rw [← Option.some.inj hds]
    exact ofDrafts_toJsonAll cs (regular_parent.1 h).2

/-- Trees with regular attributes are read back from their values. -/
theorem ofDrafts_toJsonAll : (ns : List Node) → (∀ n ∈ ns, n.Regular) →
    ofDrafts (Draft.ofItems (toJsonAll ns)) = .ok ns
  | [], _ => by rw [toJsonAll, Draft.ofItems, ofDrafts]
  | n :: ns, h => by
    obtain ⟨hn, hns⟩ := List.forall_mem_cons.1 h
    have hread : ofDraft (Draft.ofJson n.toJson) = .ok n := ofJson_toJson n hn
    rw [toJsonAll, Draft.ofItems, ofDrafts, hread, ofDrafts_toJsonAll ns hns]
    rfl
end

end Node

/-! ### Writing what was read -/

/-- The names of the members that a node may do without. -/
def Attributes.optional : List String := ["children", "value", "identifier"]

namespace Json

mutual
/-- The value of a node without the members of `null` that stand for none, at every level. -/
def strip : Json → Json
  | .object members => .object (stripMembers members)
  | value => value

/-- The values of some nodes without these members. -/
def stripAll : List Json → List Json
  | [] => []
  | item :: rest => strip item :: stripAll rest

/-- The members of a node without those of `null` that stand for none, here and below. -/
def stripMembers : List (String × Json) → List (String × Json)
  | [] => []
  | (name, value) :: rest =>
    if name ∈ Attributes.optional ∧ value.isNull = true then stripMembers rest
    else (name, if name = "children" then stripChildren value else value) :: stripMembers rest

/-- The children of a node without these members. -/
def stripChildren : Json → Json
  | .array items => .array (stripAll items)
  | value => value
end

/-- What is left of a member. -/
def stripMember? (name : String) (value : Json) : Option Json :=
  if name ∈ Attributes.optional ∧ value.isNull = true then none
  else some (if name = "children" then stripChildren value else value)

private theorem stripMember?_children :
    stripMember? "children" = fun v ↦ if v.isNull = true then none else some v.stripChildren := by
  funext v
  simp [stripMember?, Attributes.optional]

private theorem stripMember?_optional {name : String} (h : name ∈ Attributes.optional)
    (hname : name ≠ "children") :
    stripMember? name = fun v ↦ if v.isNull = true then none else some v := by
  funext v
  simp [stripMember?, h, hname]

private theorem stripMember?_other {name : String} (h : name ∉ Attributes.optional) :
    stripMember? name = some := by
  have hname : name ≠ "children" := by
    rintro rfl
    exact h (by decide)
  funext v
  simp [stripMember?, h, hname]

/-- Stripping keeps the names that are left in their order. -/
theorem names_stripMembers (members : Members Json) :
    ((stripMembers members).map Prod.fst).Sublist (members.map Prod.fst) := by
  induction members with
  | nil =>
    rw [stripMembers]
  | cons member rest ih =>
    obtain ⟨name, value⟩ := member
    rw [stripMembers]
    split
    · exact ih.cons name
    · exact ih.cons_cons name

private theorem sorted_stripMembers {members : Members Json} (h : members.Sorted) :
    Members.Sorted (stripMembers members) := by
  have hnames : (members.map Prod.fst).Pairwise (· < ·) := List.pairwise_map.2 h
  exact List.pairwise_map.1 (hnames.sublist (names_stripMembers members))

/-- Members of different names are stripped one by one. -/
theorem get?_stripMembers {members : Members Json} (h : (members.map Prod.fst).Nodup)
    (name : String) : Members.get? (stripMembers members) name =
      (Members.get? members name).bind (stripMember? name) := by
  induction members with
  | nil =>
    rw [stripMembers]
    rfl
  | cons member rest ih =>
    obtain ⟨own, value⟩ := member
    obtain ⟨hnew, hrest⟩ := List.nodup_cons.1 h
    rw [stripMembers, Members.get?_cons]
    by_cases hname : own = name
    · subst hname
      rw [if_pos rfl, Option.bind_some, stripMember?]
      split
      · rw [ih hrest, Members.get?_eq_none_iff.2 hnew]
        rfl
      · rw [Members.get?_cons, if_pos rfl]
    · rw [if_neg hname, ← ih hrest]
      split
      · rfl
      · rw [Members.get?_cons, if_neg hname]

end Json

/-- Only a text is read as one. -/
theorem Draft.eq_string_of_asString {v : Json} {text : String}
    (h : (Draft.ofJson v).asString = .ok text) : v = .string text := by
  cases v with
  | string => rw [Except.ok.inj h]
  | null | bool | number | array | object => cases h

namespace Node

/-- A text that was read, or `null` for none. -/
theorem map_string_of_read {before : Option Json} {text : Option (Option String)}
    (h : before.map (fun v ↦ (Draft.ofJson v).asOptionalString) = text.map .ok) :
    text.join.map .string = before.bind fun v ↦ if v.isNull = true then none else some v := by
  cases before with
  | none =>
    obtain rfl := Option.map_eq_none_iff.1 h.symm
    rfl
  | some v =>
    cases text with
    | none => cases h
    | some text =>
      have h : (Draft.ofJson v).asOptionalString = .ok text := Option.some.inj h
      cases v with
      | null | string =>
        obtain rfl := Except.ok.inj h
        rfl
      | bool | number | array | object => cases h

/-- Children that were read, or `null` for none. -/
theorem map_array_of_read {before : Option Json} {children : Option (Option (List Node))}
    (h : before.map (fun v ↦ readChildren (.ofJson v)) = children.map .ok)
    (hchildren : ∀ cs items, children.join = some cs → before = some (.array items) →
      ofDrafts (Draft.ofItems items) = .ok cs → toJsonAll cs = Json.stripAll items) :
    children.join.map (fun cs ↦ .array (toJsonAll cs)) =
      before.bind fun v ↦ if v.isNull = true then none else some v.stripChildren := by
  cases before with
  | none =>
    obtain rfl := Option.map_eq_none_iff.1 h.symm
    rfl
  | some v =>
    cases children with
    | none => cases h
    | some children =>
      have h : readChildren (.ofJson v) = .ok children := Option.some.inj h
      cases v with
      | null =>
        obtain rfl := Except.ok.inj h
        rfl
      | array items =>
        rw [Draft.ofJson, readChildren] at h
        obtain ⟨cs, hcs, h⟩ := bind_eq_ok.1 h
        obtain rfl := Except.ok.inj h
        show some (Json.array (toJsonAll cs)) = some (Json.array items).stripChildren
        rw [Json.stripChildren, hchildren cs items rfl rfl hcs]
      | bool | number | string | object => cases h

/-- The value of a node that was read is its object without the members that stand for none, if
that holds of its children. -/
theorem toJson_of_children {members : Members Json} (hmembers : (Json.object members).Sorted)
    {n : Node} (h : Node.ofJson (.object members) = .ok n)
    (hchildren : ∀ cs items, n.children? = some cs → Json.AllSorted items →
      ofDrafts (Draft.ofItems items) = .ok cs → toJsonAll cs = Json.stripAll items) :
    n.toJson = .object (Json.stripMembers members) := by
  have hregular := (regular_ofDraft _ h).content
  rw [Node.ofJson, Draft.ofJson, ofDraft] at h
  obtain ⟨d, hd, h⟩ := bind_eq_ok.1 h
  have hd := (readMembers_empty_eq_ok_iff hmembers).1 hd
  obtain ⟨htype, hcs, hvalue, hidentifier, hattributes⟩ := NodeDraft.toNode_eq_ok.1 h
  rw [Json.Sorted] at hmembers
  rw [toJson_eq]
  -- Both are objects in order, so it is enough to look up every name in them.
  refine congrArg Json.object ((Members.sorted_ofList _).ext
    (Json.sorted_stripMembers hmembers.1) fun name ↦ ?_)
  rw [Content.get?_members hregular, Json.get?_stripMembers hmembers.1.nodup]
  by_cases hname : name ∈ Attributes.reserved
  · rcases Attributes.mem_reserved.1 hname with rfl | rfl | rfl | rfl
    · have hread := hd.type
      rw [htype] at hread
      obtain ⟨v, hv, hread⟩ := Option.map_eq_some_iff.1 hread
      rw [Json.stripMember?_other (by decide), Option.bind_fun_some, hv]
      exact congrArg some (Draft.eq_string_of_asString hread).symm
    · show n.children?.map _ = _
      rw [← hcs, map_array_of_read hd.children, Json.stripMember?_children]
      intro cs items hjoin hitems
      have hitem := Json.membersSorted_iff.1 hmembers.2 _
        ((Members.get?_eq_some_iff hmembers.1.nodup).1 hitems)
      rw [Json.Sorted] at hitem
      exact hchildren cs items (hcs.symm.trans hjoin) hitem
    · show n.content.value.map _ = _
      rw [← hvalue, map_string_of_read hd.value,
        Json.stripMember?_optional (by decide) (by decide)]
    · show n.content.identifier.map _ = _
      rw [← hidentifier, map_string_of_read hd.identifier,
        Json.stripMember?_optional (by decide) (by decide)]
  · have hother : name ∉ Attributes.optional := fun h ↦ hname (List.mem_cons_of_mem "type" h)
    rw [Content.member?_of_free hname, ← hattributes, hd.attributes, if_neg hname,
      Json.stripMember?_other hother, Option.bind_fun_some]

/-- Only objects are read as nodes. -/
theorem exists_members {value : Json} {n : Node} (h : Node.ofJson value = .ok n) :
    ∃ members, value = .object members := by
  cases value with
  | object members => exact ⟨members, rfl⟩
  | null | bool | number | string | array =>
    rw [Node.ofJson, Draft.ofJson, ofDraft] at h
    cases h

-- The recursion is on the tree that was read, whose children were read from an array of items.
mutual
/-- The value of a tree that was read is the value that it was read from, stripped. -/
theorem toJson_of_ofJson : (n : Node) → {value : Json} → value.Sorted →
    Node.ofJson value = .ok n → n.toJson = value.strip
  | .leaf c, _, hvalue, h => by
    obtain ⟨members, rfl⟩ := exists_members h
    rw [Json.strip]
    exact toJson_of_children hvalue h nofun
  | .parent c cs, _, hvalue, h => by
    obtain ⟨members, rfl⟩ := exists_members h
    rw [Json.strip]
    refine toJson_of_children hvalue h fun ds items hds ↦ ?_
    rw [← Option.some.inj hds]
    exact toJsonAll_of_ofDrafts cs

/-- The values of trees that were read are those that they were read from, stripped. -/
theorem toJsonAll_of_ofDrafts : (ns : List Node) → {items : List Json} → Json.AllSorted items →
    ofDrafts (Draft.ofItems items) = .ok ns → toJsonAll ns = Json.stripAll items
  | [], [], _, _ => by rw [toJsonAll, Json.stripAll]
  | [], item :: rest, _, h => by
    rw [Draft.ofItems, ofDrafts] at h
    obtain ⟨n, _, h⟩ := bind_eq_ok.1 h
    obtain ⟨ns, _, h⟩ := bind_eq_ok.1 h
    cases h
  | _ :: _, [], _, h => by
    rw [Draft.ofItems, ofDrafts] at h
    cases h
  | n :: ns, item :: rest, hitems, h => by
    rw [Json.AllSorted] at hitems
    rw [Draft.ofItems, ofDrafts] at h
    obtain ⟨m, hm, h⟩ := bind_eq_ok.1 h
    obtain ⟨ms, hms, h⟩ := bind_eq_ok.1 h
    obtain ⟨rfl, rfl⟩ := List.cons.inj (Except.ok.inj h)
    rw [toJsonAll, Json.stripAll, toJson_of_ofJson m hitems.1 hm,
      toJsonAll_of_ofDrafts ms hitems.2 hms]
end

/-- Every document tree has no attribute with the name of a member of the nodes' own and is read
back from its JSON value, and every JSON value that is a document tree is its value, without the
members of `null` that stand for none. -/
theorem exchange_round_trip :
    (∀ n : Node, n.Made →
      (∀ p ∈ n.places, ∀ name ∈ ["type", "children", "value", "identifier"],
        Members.get? p.tree.content.attributes name = none) ∧
      Node.ofJson n.toJson = .ok n) ∧
    ∀ (value : Json) (n : Node), value.Sorted → Node.ofJson value = .ok n →
      n.toJson = value.strip := by
  refine ⟨fun n hn ↦ ⟨fun p hp name hname ↦ ?_, ofJson_toJson n hn.regular⟩,
    fun value n hvalue h ↦ toJson_of_ofJson n hvalue h⟩
  have hcontent : p.tree.content ∈ n.contents := by
    rw [← Tree.map_content_placesAt n []]
    exact List.mem_map.2 ⟨p, hp, rfl⟩
  exact (hn.regular _ hcontent).get?_eq_none hname

/-- A quote of two texts, written with members of `null`, loses its first text. -/
theorem exchange_round_trip_quote :
    let text (value : String) : Json :=
      .object [("children", .null), ("type", .string "text"), ("value", .string value)]
    let value : Json := .object [("alt", .null), ("children", .array [text "a", text "b"]),
      ("identifier", .null), ("type", .string "quote")]
    let quote : Content := { Content.ofType "quote" with attributes := [("alt", .null)] }
    let n : Node := .parent quote [Node.ofText "text" "a", Node.ofText "text" "b"]
    let r : Node := .parent quote [Node.ofText "text" "b"]
    value.Sorted ∧ Node.ofJson value = .ok n ∧ n.toJson = value.strip ∧
      (n.rejectWith (fun p (_ : Unit) ↦ (p.path == [0], ())) true ()).1 = some r ∧
      Node.ofJson r.toJson = .ok r := by
  intro text value quote n r
  have hvalue : value.Sorted := by
    simp only [value, text, Json.Sorted, Json.AllSorted, Json.MembersSorted, Members.Sorted]
    decide
  have hn : Node.ofJson value = .ok n := rfl
  have hr : (n.rejectWith (fun p (_ : Unit) ↦ (p.path == [0], ())) true ()).1 = some r := rfl
  have hmade : r.Made := .reject _ true () (.ofJson hn) hr
  exact ⟨hvalue, hn, exchange_round_trip.2 value n hvalue hn, hr,
    (exchange_round_trip.1 r hmade).2⟩

end Node

end DocSelect
