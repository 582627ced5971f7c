/-!
# Members of objects

An object's members are a list of names with values. Values that have been read keep their
members in strictly increasing order of names, so that equal objects are equal lists. Main
facts: insertion keeps the order, and looking up after an insertion finds the new value under
its name and the old ones under all other names.
-/

namespace DocSelect

/-- Names with values, in order. -/
abbrev Members (α : Type) := List (String × α)

namespace Members

variable {α : Type}

/-- The value under a name, the first one if the name occurs twice. -/
def get? (members : Members α) (name : String) : Option α :=
  (members.find? fun member ↦ member.1 == name).map (·.2)

/-- Puts a value under a name, at its place in the order of names, in place of an older one. -/
def insert (name : String) (value : α) : Members α → Members α
  | [] => [(name, value)]
  | member :: rest =>
    if name < member.1 then (name, value) :: member :: rest
    else if name = member.1 then (name, value) :: rest
    else member :: insert name value rest

/-- Members put in one after the other, the last value of a name winning. -/
def ofList (members : List (String × α)) : Members α :=
  members.foldl (fun done member ↦ insert member.1 member.2 done) []

/-- The names stand in strictly increasing order. -/
def Sorted (members : Members α) : Prop := members.Pairwise fun a b ↦ a.1 < b.1

/-- Without members no name has a value. -/
@[simp] theorem get?_nil (name : String) : get? ([] : Members α) name = none := rfl

/-- The first member with a name has its value. -/
theorem get?_cons (member : String × α) (rest : Members α) (name : String) :
    get? (member :: rest) name = if member.1 = name then some member.2 else get? rest name := by
  by_cases h : member.1 = name <;> simp [get?, h]

/-- A member that is put in is found by its name, and the others as before. -/
theorem get?_insert (name other : String) (value : α) (members : Members α) :
    get? (insert name value members) other
      = if name = other then some value else get? members other := by
  induction members with
  | nil => by_cases h : name = other <;> simp [insert, get?, h]
  | cons member rest ih =>
    unfold insert
    split
    · rw [get?_cons]
    · split
      · next h => by_cases hn : name = other <;> simp [get?_cons, hn, ← h]
      · next h =>
        rw [get?_cons, ih, get?_cons]
        by_cases hm : member.1 = other
        · have : name ≠ other := fun hn ↦ h (hn.trans hm.symm)
          simp [hm, this]
        · simp [hm]

/-- Putting a member in adds nothing else. -/
theorem mem_insert {name : String} {value : α} {members : Members α} {member : String × α}
    (h : member ∈ insert name value members) : member = (name, value) ∨ member ∈ members := by
  induction members with
  | nil => exact .inl (by simpa [insert] using h)
  | cons first rest ih =>
    unfold insert at h
    split at h
    · simpa using h
    · split at h
      · rcases List.mem_cons.1 h with h | h
        · exact .inl h
        · exact .inr (List.mem_cons_of_mem _ h)
      · rcases List.mem_cons.1 h with h | h
        · exact .inr (h ▸ List.mem_cons_self)
        · exact (ih h).imp_right (List.mem_cons_of_mem _)

/-- Putting a member in keeps the order. -/
theorem sorted_insert {name : String} {value : α} {members : Members α} (h : members.Sorted) :
    (insert name value members).Sorted := by
  induction members with
  | nil => simp [insert, Sorted]
  | cons first rest ih =>
    obtain ⟨hfirst, hrest⟩ := List.pairwise_cons.1 h
    unfold insert
    split
    · next hlt =>
      refine List.pairwise_cons.2 ⟨fun member hm ↦ ?_, h⟩
      rcases List.mem_cons.1 hm with rfl | hm
      · exact hlt
      · exact String.lt_trans hlt (hfirst member hm)
    · split
      · next heq => exact List.pairwise_cons.2 ⟨fun member hm ↦ heq ▸ hfirst member hm, hrest⟩
      · next hlt hne =>
        refine List.pairwise_cons.2 ⟨fun member hm ↦ ?_, ih hrest⟩
        rcases mem_insert hm with rfl | hm
        · exact String.not_le.1 fun hle ↦ hne (String.le_antisymm hle (String.not_lt.1 hlt))
        · exact hfirst member hm

end Members

end DocSelect
