import DocSelect.Query.Position
import DocSelect.Tree.Basic

/-!
# Positions from one pass

The pass over siblings keeps a tally of the types met so far. The tally of a list of types
counts each of them, so the pass gives every sibling the position that is counted directly.
-/

namespace DocSelect.Position

/-- Counting a type once more adds one to its own tally and leaves all others. -/
theorem tallied_bump (tally : Members Nat) (key other : String) :
    tallied (bump tally key) other = tallied tally other + if key = other then 1 else 0 := by
  unfold bump tallied
  rw [Members.get?_insert]
  by_cases h : key = other
  · subst h
    simp
  · simp [h]

/-- A tally of some types counts each of them. -/
theorem tallied_foldl_bump (keys : List String) (tally : Members Nat) (key : String) :
    tallied (keys.foldl bump tally) key = tallied tally key + keys.count key := by
  induction keys generalizing tally with
  | nil => simp
  | cons k ks ih =>
    rw [List.foldl_cons, ih, tallied_bump, List.count_cons]
    by_cases h : k = key
    · simp [h]
      omega
    · simp [h]

/-- The pass counts the types of the siblings before each one. -/
theorem getElem?_pass (count : Nat) (total seen : Members Nat) (index : Nat)
    (keys : List String) (i : Nat) :
    (pass count total seen index keys)[i]? = (keys[i]?).map fun key ↦
      ⟨index + i, count, tallied seen key + (keys.take i).count key, tallied total key⟩ := by
  induction keys generalizing seen index i with
  | nil => simp [pass]
  | cons k ks ih =>
    cases i with
    | zero => simp [pass]
    | succ i =>
      simp only [pass, List.getElem?_cons_succ, ih, List.take_succ_cons, List.count_cons]
      congr 1
      funext key
      rw [tallied_bump]
      by_cases h : k = key
      · simp [h]
        omega
      · simp [h]
        omega

/-- The position of a sibling from the pass is the one that is counted directly. -/
theorem getElem?_all (types : List String) (i : Nat) :
    (all types)[i]? = among? types i := by
  have tally_nil (key : String) : tallied [] key = 0 := rfl
  have same (ts : List String) (type : String) :
      ts.countP (fun other ↦ Text.lowercase other == Text.lowercase type)
        = (ts.map Text.lowercase).count (Text.lowercase type) := by
    rw [List.count, List.countP_map]
    rfl
  simp only [all, among?, getElem?_pass, tallied_foldl_bump, tally_nil, Nat.zero_add,
    List.getElem?_map, Option.map_map, same, List.map_take]
  rfl

end DocSelect.Position
