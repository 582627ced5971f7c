import DocSelect.Members
import Mathlib.Data.List.Sort

/-!
# Members by name

Members in strictly increasing order of names are told apart by looking names up: two such lists
with the same value under every name are one. So members that were put in one after the other are
known by their lookups, and members that stand in order already come out as they are.
-/

namespace DocSelect.Members

variable {α : Type} {members others : Members α} {name : String} {value : α}

/-- Names in strictly increasing order occur once. -/
theorem Sorted.nodup (h : members.Sorted) : (members.map Prod.fst).Nodup := by
  rw [List.nodup_iff_pairwise_ne, List.pairwise_map]
  refine h.imp fun {a b} hlt heq ↦ ?_
  rw [heq] at hlt
  exact String.lt_irrefl b.1 hlt

/-- A name that does not occur has no value. -/
theorem get?_eq_none_iff : get? members name = none ↔ name ∉ members.map Prod.fst := by
  simp only [get?, Option.map_eq_none_iff, List.find?_eq_none, beq_iff_eq, List.mem_map, not_exists,
    not_and]

/-- Where names occur once, a name has the value that it stands with. -/
theorem get?_eq_some_iff (h : (members.map Prod.fst).Nodup) :
    get? members name = some value ↔ (name, value) ∈ members := by
  induction members with
  | nil => simp
  | cons member rest ih =>
    obtain ⟨hnew, hrest⟩ := List.nodup_cons.1 h
    rw [get?_cons, List.mem_cons]
    split
    · next heq =>
      subst heq
      constructor
      · intro hv
        exact .inl (by rw [← Option.some.inj hv])
      · rintro (hv | hv)
        · rw [← hv]
        · exact absurd (List.mem_map_of_mem hv) hnew
    · next hne =>
      rw [ih hrest, or_iff_right]
      rintro rfl
      exact hne rfl

/-- Members in order with the same value under every name are the same. -/
theorem Sorted.ext (hm : members.Sorted) (ho : others.Sorted)
    (h : ∀ name, get? members name = get? others name) : members = others := by
  have hmem : ∀ member, member ∈ members ↔ member ∈ others := by
    rintro ⟨name, value⟩
    rw [← get?_eq_some_iff hm.nodup, ← get?_eq_some_iff ho.nodup, h]
  have hperm := (List.perm_ext_iff_of_nodup hm.nodup.of_map ho.nodup.of_map).2 hmem
  exact hperm.eq_of_pairwise (fun a b _ _ hab hba ↦ absurd hba (String.lt_asymm hab)) hm ho

/-- Of two lists of members the first one with a name wins. -/
theorem get?_append :
    get? (members ++ others) name = (get? members name).or (get? others name) := by
  rw [get?, List.find?_append, Option.map_or]
  rfl

/-- Putting members in keeps the order. -/
theorem sorted_ofList (members : List (String × α)) : (ofList members).Sorted := by
  suffices h : ∀ done : Members α, done.Sorted →
      (members.foldl (fun done member ↦ insert member.1 member.2 done) done).Sorted from
    h [] List.Pairwise.nil
  induction members with
  | nil => exact fun _ hdone ↦ hdone
  | cons member rest ih => exact fun done hdone ↦ ih _ (sorted_insert hdone)

/-- Only members that were put in are there. -/
theorem mem_of_mem_ofList {member : String × α} (h : member ∈ ofList members) :
    member ∈ members := by
  suffices hfold : ∀ done : Members α,
      member ∈ members.foldl (fun done member ↦ insert member.1 member.2 done) done →
        member ∈ done ∨ member ∈ members from
    (hfold [] h).resolve_left List.not_mem_nil
  clear h
  induction members with
  | nil => exact fun _ ↦ .inl
  | cons first rest ih =>
    intro done hm
    rcases ih _ hm with hm | hm
    · rcases mem_insert hm with rfl | hm
      · exact .inr List.mem_cons_self
      · exact .inl hm
    · exact .inr (List.mem_cons_of_mem first hm)

/-- Members of different names are found once they are put in. -/
theorem get?_ofList (h : (members.map Prod.fst).Nodup) :
    get? (ofList members) name = get? members name := by
  suffices hfold : ∀ done : Members α,
      get? (members.foldl (fun done member ↦ insert member.1 member.2 done) done) name =
        (get? members name).or (get? done name) from
    (hfold []).trans Option.or_none
  induction members with
  | nil => exact fun _ ↦ rfl
  | cons first rest ih =>
    intro done
    obtain ⟨hnew, hrest⟩ := List.nodup_cons.1 h
    rw [List.foldl_cons, ih hrest, get?_insert, get?_cons]
    split
    · next heq => rw [← heq, get?_eq_none_iff.2 hnew, Option.none_or, Option.some_or]
    · rfl

/-- Members that stand in order come out as they are. -/
theorem ofList_eq_self (h : members.Sorted) : ofList members = members :=
  (sorted_ofList members).ext h fun _ ↦ get?_ofList h.nodup

end DocSelect.Members
