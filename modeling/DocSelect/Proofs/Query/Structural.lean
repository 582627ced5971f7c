import DocSelect.Tree.Node
import DocSelect.Proofs.Formula
import DocSelect.Proofs.Query.Position

/-!
# Structural pseudo-classes from both ends

Siblings in the opposite order have the mirrored positions: counted from the other end, among all
siblings and among those of a type. So a structural pseudo-class that counts from the last sibling
is the one that counts from the first, asked of the siblings in the opposite order. What is the
first or the only one is said by formulas and by counts alike because an index stays below the
count that goes with it.
-/

namespace DocSelect

/-! ### Mirrored positions -/

namespace Position

/-- Whether a sibling's indexes are below the counts. -/
structure Proper (p : Position) : Prop where
  index_lt : p.index < p.count
  typeIndex_lt : p.typeIndex < p.typeCount

/-- The position counted from the other end. -/
def mirror (p : Position) : Position :=
  ⟨Structural.fromEnd p.index p.count, p.count, Structural.fromEnd p.typeIndex p.typeCount,
    p.typeCount⟩

/-- Whether two types count as one. -/
def sameType (type other : String) : Bool := Text.lowercase other == Text.lowercase type

/-- A sibling is counted with those before it and those behind it. -/
theorem among?_append_cons (before : List String) (type : String) (behind : List String) :
    among? (before ++ type :: behind) before.length = some
      ⟨before.length, before.length + (behind.length + 1), before.countP (sameType type),
        before.countP (sameType type) + (behind.countP (sameType type) + 1)⟩ := by
  have hself : sameType type type = true := beq_self_eq_true _
  have hcount : (before ++ type :: behind).countP (sameType type) =
      before.countP (sameType type) + (behind.countP (sameType type) + 1) := by
    rw [List.countP_append, List.countP_cons_of_pos hself]
  rw [← hcount, among?, List.getElem?_append_right (Nat.le_refl _), Nat.sub_self,
    List.getElem?_cons_zero, Option.map_some, List.length_append, List.length_cons, List.take_left]
  rfl

/-- A sibling stands behind some others and before some others. -/
theorem exists_append_cons {types : List String} {i : Nat} (h : i < types.length) :
    ∃ before type behind, types = before ++ type :: behind ∧ i = before.length :=
  ⟨types.take i, types[i], types.drop (i + 1), by simp, by simp; omega⟩

/-- A sibling's indexes are below the counts. -/
theorem proper_of_among? {types : List String} {i : Nat} {p : Position}
    (h : among? types i = some p) : p.Proper := by
  have hi : i < types.length := by
    obtain ⟨type, htype, _⟩ := Option.map_eq_some_iff.1 h
    exact (List.getElem?_eq_some_iff.1 htype).1
  obtain ⟨before, type, behind, rfl, rfl⟩ := exists_append_cons hi
  rw [among?_append_cons] at h
  obtain rfl := Option.some.inj h
  constructor <;> dsimp only <;> omega

/-- Of all siblings before a sibling, and of all siblings, at most all are of its type. -/
theorem type_le_of_among? {types : List String} {i : Nat} {p : Position}
    (h : among? types i = some p) : p.typeIndex ≤ p.index ∧ p.typeCount ≤ p.count := by
  obtain ⟨type, htype, rfl⟩ := Option.map_eq_some_iff.1 h
  have hi : i < types.length := (List.getElem?_eq_some_iff.1 htype).1
  have htake : (types.take i).length = i := List.length_take_of_le hi.le
  refine ⟨?_, List.countP_le_length⟩
  exact List.countP_le_length.trans_eq htake

/-- Siblings in the opposite order have mirrored positions. -/
theorem among?_reverse {types : List String} {i : Nat} (h : i < types.length) :
    among? types.reverse (types.length - 1 - i) = (among? types i).map mirror := by
  obtain ⟨before, type, behind, rfl, rfl⟩ := exists_append_cons h
  have hindex : (before ++ type :: behind).length - 1 - before.length = behind.reverse.length := by
    rw [List.length_append, List.length_cons, List.length_reverse]
    omega
  have hreverse :
      (before ++ type :: behind).reverse = behind.reverse ++ type :: before.reverse := by
    simp
  rw [hindex, hreverse, among?_append_cons, among?_append_cons, Option.map_some]
  simp only [List.length_reverse, List.countP_reverse, mirror, Structural.fromEnd]
  congr 2 <;> omega

end Position

/-! ### Mirrored pseudo-classes -/

/-- The formula `1`, which stands for the first position alone. -/
def Formula.one : Formula := ⟨0, 1⟩

/-- The formula `1` holds at the first index alone. -/
theorem Formula.holdsAt_one (index : Nat) : Formula.one.holdsAt index = .ok (index == 0) := by
  by_cases hi : index < limit
  · obtain ⟨b, hb, hexact⟩ := exists_holdsAt_iff (f := .one) hi (by decide) (by decide)
    have hstep : Formula.one.step.toInt = 0 := rfl
    have hoffset : Formula.one.offset.toInt = 1 := rfl
    rw [hb, Except.ok.injEq, Bool.eq_iff_iff, hexact, beq_iff_eq, hstep, hoffset]
    simp only [Int.zero_mul, exists_const]
    omega
  · have hlimit : 0 < limit := by decide
    have hne : index ≠ 0 := by omega
    rw [holdsAt, if_pos (Nat.le_of_not_lt hi), beq_false_of_ne hne]

namespace Structural

/-- The structural pseudo-class that asks the same from the other end. -/
def mirror : Structural → Structural
  | first a => last a
  | last a => first a
  | only a => only a
  | nth a f => nthLast a f
  | nthLast a f => nth a f

variable {p : Position}

/-- From both ends a position passes the same. -/
theorem holds_mirror (hp : p.Proper) (s : Structural) : s.mirror.holds p.mirror = s.holds p := by
  obtain ⟨hi, ht⟩ := hp
  have hindex : fromEnd (fromEnd p.index p.count) p.count = p.index := by
    simp only [fromEnd]
    omega
  have htype : fromEnd (fromEnd p.typeIndex p.typeCount) p.typeCount = p.typeIndex := by
    simp only [fromEnd]
    omega
  cases s with
  | first a | nth a f => cases a <;> simp only [mirror, holds, Among.place, Position.mirror, *]
  | last a | only a | nthLast a f => cases a <;> rfl

/-- The first position is the one of the formula `1`. -/
theorem holds_nth_one (a : Among) : (nth a .one).holds p = (first a).holds p := by
  rw [holds, holds, Formula.holdsAt_one]

/-- The last position is the one of the formula `1`, counted from the end. -/
theorem holds_nthLast_one (a : Among) : (nthLast a .one).holds p = (last a).holds p := by
  rw [holds, holds, Formula.holdsAt_one]

/-- The only one is both the first and the last. -/
theorem holds_only (hp : p.Proper) (a : Among) :
    (only a).holds p = .ok true ↔ (first a).holds p = .ok true ∧ (last a).holds p = .ok true := by
  obtain ⟨hi, ht⟩ := hp
  simp only [holds, Except.ok.injEq, beq_iff_eq, fromEnd]
  cases a <;> simp only [Among.place] <;> omega

/-! ### Pseudo-classes among siblings -/

section Siblings

variable {α : Type} [Element α]

/-- Whether a structural pseudo-class holds at the sibling with an index. -/
def HoldsAt (s : Structural) (ts : List (Tree α)) (i : Nat) : Prop :=
  ∃ p, Position.among? (ts.map Tree.type) i = some p ∧ s.holds p = .ok true

/-- Whether the sibling with an index is of a type, capitals aside. -/
def IsOfType (type : String) (ts : List (Tree α)) (i : Nat) : Prop :=
  ∃ t, ts[i]? = some t ∧ Position.sameType type t.type = true

variable {ts : List (Tree α)} {i : Nat}

/-- The mirrored pseudo-class holds among siblings in the opposite order. -/
theorem holdsAt_reverse (s : Structural) (hi : i < ts.length) :
    s.mirror.HoldsAt ts.reverse (ts.length - 1 - i) ↔ s.HoldsAt ts i := by
  have hi' : i < (ts.map Tree.type).length := by rwa [List.length_map]
  have hrev := Position.among?_reverse hi'
  rw [List.length_map, ← List.map_reverse] at hrev
  rw [HoldsAt, HoldsAt, hrev]
  constructor
  · rintro ⟨_, hq, h⟩
    obtain ⟨p, hp, rfl⟩ := Option.map_eq_some_iff.1 hq
    exact ⟨p, hp, by rwa [← holds_mirror (Position.proper_of_among? hp)]⟩
  · rintro ⟨p, hp, h⟩
    exact ⟨p.mirror, by rw [hp, Option.map_some],
      by rwa [holds_mirror (Position.proper_of_among? hp)]⟩

/-- Pseudo-classes that hold at the same positions hold at the same siblings. -/
theorem holdsAt_congr {s s' : Structural} (h : ∀ p, s.holds p = s'.holds p) :
    s.HoldsAt ts i ↔ s'.HoldsAt ts i := by
  simp only [HoldsAt, h]

/-- What a query asks of a sibling is what its structural pseudo-class asks. -/
theorem holdsAt_structural (t : SiblingTest) :
    t.structural.HoldsAt ts i ↔
      ∃ p, Position.among? (ts.map Tree.type) i = some p ∧ t.holds p = true := by
  simp only [HoldsAt, t.structural_holds, Except.ok.injEq]

/-- The only sibling is both the first and the last. -/
theorem holdsAt_only (a : Among) :
    (only a).HoldsAt ts i ↔ (first a).HoldsAt ts i ∧ (last a).HoldsAt ts i := by
  constructor
  · rintro ⟨p, hp, h⟩
    obtain ⟨hfirst, hlast⟩ := (holds_only (Position.proper_of_among? hp) a).1 h
    exact ⟨⟨p, hp, hfirst⟩, p, hp, hlast⟩
  · rintro ⟨⟨p, hp, hfirst⟩, q, hq, hlast⟩
    obtain rfl : p = q := Option.some.inj (hp.symm.trans hq)
    exact ⟨p, hp, (holds_only (Position.proper_of_among? hp) a).2 ⟨hfirst, hlast⟩⟩

/-- Of the items of a list that pass a test, one has no other before it. -/
theorem existsUnique_countP_take {β : Type} {test : β → Bool} {xs : List β}
    (h : ∃ x ∈ xs, test x = true) :
    ∃! i, (∃ x, xs[i]? = some x ∧ test x = true) ∧ (xs.take i).countP test = 0 := by
  induction xs with
  | nil => simp at h
  | cons x xs ih =>
    cases hx : test x with
    | true =>
      refine ⟨0, ⟨⟨x, rfl, hx⟩, rfl⟩, ?_⟩
      rintro (_ | j) ⟨_, hj⟩
      · rfl
      · rw [List.take_succ_cons, List.countP_cons_of_pos hx] at hj
        cases hj
    | false =>
      obtain ⟨i, ⟨hi, hcount⟩, hunique⟩ := ih (by simpa [hx] using h)
      have hskip (j : Nat) : (((x :: xs).take (j + 1)).countP test) = (xs.take j).countP test := by
        rw [List.take_succ_cons, List.countP_cons_of_neg (by simp [hx])]
      refine ⟨i + 1, ⟨hi, by rw [hskip, hcount]⟩, ?_⟩
      rintro (_ | j) ⟨⟨y, hy, hpass⟩, hj⟩
      · obtain rfl := Option.some.inj hy
        rw [hx] at hpass
        cases hpass
      · rw [hskip] at hj
        exact congrArg (· + 1) (hunique j ⟨⟨y, hy, hpass⟩, hj⟩)

/-- Of a type the first sibling is the one without a sibling of that type before it. -/
theorem holdsAt_first_sameType {type : String} (h : IsOfType type ts i) :
    (first .sameType).HoldsAt ts i ↔
      (ts.take i).countP (fun t ↦ Position.sameType type t.type) = 0 := by
  obtain ⟨t, ht, hsame⟩ := h
  have hkey : Text.lowercase t.type = Text.lowercase type := beq_iff_eq.1 hsame
  simp only [HoldsAt, Position.among?, List.getElem?_map, ht, Option.map_some, Option.some.injEq,
    exists_eq_left', holds, Except.ok.injEq, Among.place, beq_iff_eq, ← List.map_take,
    List.countP_map, hkey]
  rfl

/-- Of each type among siblings one is the first. -/
theorem existsUnique_first {type : String} (h : ∃ i, IsOfType type ts i) :
    ∃! i, IsOfType type ts i ∧ (first .sameType).HoldsAt ts i := by
  obtain ⟨i, t, ht, hsame⟩ := h
  let ofType : Tree α → Bool := fun t ↦ Position.sameType type t.type
  have hany : ∃ t ∈ ts, ofType t = true := ⟨t, List.mem_of_getElem? ht, hsame⟩
  have hunique := existsUnique_countP_take hany
  refine (existsUnique_congr fun i ↦ ?_).2 hunique
  exact and_congr_right fun hi ↦ holdsAt_first_sameType hi

/-- Siblings in the opposite order are of the same types. -/
theorem isOfType_reverse {type : String} (hi : i < ts.length) :
    IsOfType type ts.reverse (ts.length - 1 - i) ↔ IsOfType type ts i := by
  have hindex : ts.length - 1 - (ts.length - 1 - i) = i := by omega
  rw [IsOfType, List.getElem?_reverse (by omega), hindex, IsOfType]

/-- Of each type among siblings one is the last. -/
theorem existsUnique_last {type : String} (h : ∃ i, IsOfType type ts i) :
    ∃! i, IsOfType type ts i ∧ (last .sameType).HoldsAt ts i := by
  have lt_length {i : Nat} {us : List (Tree α)} (h : IsOfType type us i) : i < us.length := by
    obtain ⟨t, ht, _⟩ := h
    exact (List.getElem?_eq_some_iff.1 ht).1
  -- a sibling is the last of its type if it is the first in the opposite order
  have mirrored {i : Nat} (hi : i < ts.length) :
      (IsOfType type ts.reverse (ts.length - 1 - i) ∧
          (first .sameType).HoldsAt ts.reverse (ts.length - 1 - i)) ↔
        IsOfType type ts i ∧ (last .sameType).HoldsAt ts i :=
    and_congr (isOfType_reverse hi) (holdsAt_reverse (last .sameType) hi)
  obtain ⟨i, hi⟩ := h
  obtain ⟨j, hj, hunique⟩ := existsUnique_first ⟨_, (isOfType_reverse (lt_length hi)).2 hi⟩
  have hlt : j < ts.length := by simpa using lt_length hj.1
  have hback : ts.length - 1 - (ts.length - 1 - j) = j := by omega
  refine ⟨ts.length - 1 - j, (mirrored (by omega)).1 (by rwa [hback]), fun k hk ↦ ?_⟩
  have hklt := lt_length hk.1
  have hkj := hunique _ ((mirrored hklt).2 hk)
  omega

/-- Structural pseudo-classes that count from the end hold at a sibling if those that count from
the start hold at it in the opposite order. The first is the one at position `1`, from either end,
the only one is both the first and the last, and of each type there is one first and one last. A
query asks its siblings the same. -/
theorem holdsAt_both_ends (ts : List (Tree α)) :
    (∀ i < ts.length, ∀ a,
      (∀ f, (nthLast a f).HoldsAt ts i ↔ (nth a f).HoldsAt ts.reverse (ts.length - 1 - i)) ∧
      ((last a).HoldsAt ts i ↔ (first a).HoldsAt ts.reverse (ts.length - 1 - i))) ∧
    Formula.parse "1" = .ok .one ∧
    (∀ i a,
      ((first a).HoldsAt ts i ↔ (nth a .one).HoldsAt ts i) ∧
      ((last a).HoldsAt ts i ↔ (nthLast a .one).HoldsAt ts i) ∧
      ((only a).HoldsAt ts i ↔ (first a).HoldsAt ts i ∧ (last a).HoldsAt ts i)) ∧
    (∀ type, (∃ i, IsOfType type ts i) →
      (∃! i, IsOfType type ts i ∧ (first .sameType).HoldsAt ts i) ∧
      ∃! i, IsOfType type ts i ∧ (last .sameType).HoldsAt ts i) ∧
    ∀ (t : SiblingTest) i, t.structural.HoldsAt ts i ↔
      ∃ p, Position.among? (ts.map Tree.type) i = some p ∧ t.holds p = true := by
  refine ⟨fun i hi a ↦ ⟨fun f ↦ ?_, ?_⟩, by decide, fun i a ↦ ⟨?_, ?_, holdsAt_only a⟩,
    fun type h ↦ ⟨existsUnique_first h, existsUnique_last h⟩, fun t i ↦ holdsAt_structural t⟩
  · exact (holdsAt_reverse (nthLast a f) hi).symm
  · exact (holdsAt_reverse (last a) hi).symm
  · exact holdsAt_congr fun p ↦ (holds_nth_one a).symm
  · exact holdsAt_congr fun p ↦ (holds_nthLast_one a).symm

end Siblings

/-- Among `a`, `B` and `A` the first is the second of its type from the end, the middle one is the
only `b`, and one of the others is the last `a`. -/
theorem holdsAt_both_ends_aBA :
    let ts := [Node.ofType "a", Node.ofType "B", Node.ofType "A"]
    0 < ts.length ∧ (nth .sameType ⟨0, 2⟩).HoldsAt ts.reverse (ts.length - 1 - 0) ∧
      (only .sameType).HoldsAt ts 1 ∧ (∃ i, IsOfType "a" ts i) ∧
      ∃! i, IsOfType "a" ts i ∧ (last .sameType).HoldsAt ts i := by
  intro ts
  have hmirrored := (holdsAt_both_ends ts).1 0 (by decide) .sameType
  have hends := (holdsAt_both_ends ts).2.2.1 1 .sameType
  have hsecond : (nthLast .sameType ⟨0, 2⟩).HoldsAt ts 0 := ⟨_, rfl, by decide⟩
  have hfirst : (first .sameType).HoldsAt ts 1 := ⟨_, rfl, by decide⟩
  have hlast : (last .sameType).HoldsAt ts 1 := ⟨_, rfl, by decide⟩
  have hof : ∃ i, IsOfType "a" ts i := ⟨2, Node.ofType "A", rfl, by decide⟩
  exact ⟨by decide, (hmirrored.1 _).1 hsecond, hends.2.2.2 ⟨hfirst, hlast⟩, hof,
    ((holdsAt_both_ends ts).2.2.2.1 "a" hof).2⟩

end Structural

end DocSelect
