import DocSelect.Json.Draft
import DocSelect.Proofs.Members
import DocSelect.Proofs.Outcome

/-!
# Drafts and their values

Whatever order a text has its members in, the value that its draft denotes has them in the order
of their names. A value that is sorted already is the value of its own draft.
-/

namespace DocSelect

open Outcome

namespace Json

/-- Items are sorted if each of them is. -/
theorem allSorted_iff {items : List Json} : AllSorted items ↔ ∀ item ∈ items, item.Sorted := by
  induction items with
  | nil => simp [AllSorted]
  | cons item rest ih => rw [AllSorted, ih, List.forall_mem_cons]

/-- The values of members are sorted if each of them is. -/
theorem membersSorted_iff {members : List (String × Json)} :
    MembersSorted members ↔ ∀ member ∈ members, member.2.Sorted := by
  induction members with
  | nil => simp [MembersSorted]
  | cons member rest ih => rw [MembersSorted, ih, List.forall_mem_cons]

end Json

namespace Draft

mutual
/-- The value of a draft is sorted. -/
theorem sorted_of_value : (d : Draft) → {value : Json} → d.value = .ok value → value.Sorted
  | .null, _, h | .bool _, _, h | .number _, _, h | .string _, _, h => by
    rw [Draft.value] at h
    rw [← Except.ok.inj h]
    trivial
  | .array items stop, _, h => by
    rw [Draft.value] at h
    obtain ⟨values, hv, h⟩ := bind_eq_ok.1 h
    obtain ⟨_, _, h⟩ := bind_eq_ok.1 h
    rw [← Except.ok.inj h, Json.Sorted]
    exact allSorted_of_values items hv
  | .object members stop, _, h => by
    rw [Draft.value] at h
    obtain ⟨values, hv, h⟩ := bind_eq_ok.1 h
    obtain ⟨_, _, h⟩ := bind_eq_ok.1 h
    rw [← Except.ok.inj h, Json.Sorted]
    have hsorted := membersSorted_of_memberValues members hv
    refine ⟨Members.sorted_ofList values, Json.membersSorted_iff.2 fun member hm ↦ ?_⟩
    exact Json.membersSorted_iff.1 hsorted member (Members.mem_of_mem_ofList hm)
  | .broken _, _, h => by
    rw [Draft.value] at h
    cases h

/-- The values of drafts are sorted. -/
theorem allSorted_of_values : (items : List Draft) → {values : List Json} →
    Draft.values items = .ok values → Json.AllSorted values
  | [], _, h => by
    rw [Draft.values] at h
    rw [← Except.ok.inj h]
    trivial
  | item :: rest, _, h => by
    rw [Draft.values] at h
    obtain ⟨value, hv, h⟩ := bind_eq_ok.1 h
    obtain ⟨values, hvs, h⟩ := bind_eq_ok.1 h
    rw [← Except.ok.inj h, Json.AllSorted]
    exact ⟨sorted_of_value item hv, allSorted_of_values rest hvs⟩

/-- The values of members are sorted. -/
theorem membersSorted_of_memberValues : (members : List (String × Draft)) →
    {values : List (String × Json)} → memberValues members = .ok values →
    Json.MembersSorted values
  | [], _, h => by
    rw [memberValues] at h
    rw [← Except.ok.inj h]
    trivial
  | (name, item) :: rest, _, h => by
    rw [memberValues] at h
    obtain ⟨value, hv, h⟩ := bind_eq_ok.1 h
    obtain ⟨values, hvs, h⟩ := bind_eq_ok.1 h
    rw [← Except.ok.inj h, Json.MembersSorted]
    exact ⟨sorted_of_value item hv, membersSorted_of_memberValues rest hvs⟩
end

mutual
/-- A sorted value is the value of its draft. -/
theorem value_ofJson : (value : Json) → value.Sorted → (ofJson value).value = .ok value
  | .null, _ | .bool _, _ | .number _, _ | .string _, _ => by rw [ofJson, Draft.value]
  | .array items, h => by
    rw [Json.Sorted] at h
    rw [ofJson, Draft.value, values_ofItems items h]
    rfl
  | .object members, h => by
    rw [Json.Sorted] at h
    rw [ofJson, Draft.value, memberValues_ofMembers members h.2]
    show Except.ok (Json.object (Members.ofList members)) = _
    rw [Members.ofList_eq_self h.1]

/-- Sorted values are the values of their drafts. -/
theorem values_ofItems : (items : List Json) → Json.AllSorted items →
    Draft.values (ofItems items) = .ok items
  | [], _ => by rw [ofItems, Draft.values]
  | item :: rest, h => by
    rw [Json.AllSorted] at h
    rw [ofItems, Draft.values, value_ofJson item h.1, values_ofItems rest h.2]
    rfl

/-- Members with sorted values have them in their drafts. -/
theorem memberValues_ofMembers : (members : List (String × Json)) →
    Json.MembersSorted members → memberValues (ofMembers members) = .ok members
  | [], _ => by rw [ofMembers, memberValues]
  | (name, value) :: rest, h => by
    rw [Json.MembersSorted] at h
    rw [ofMembers, memberValues, value_ofJson value h.1, memberValues_ofMembers rest h.2]
    rfl
end

end Draft

end DocSelect
