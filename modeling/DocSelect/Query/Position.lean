import DocSelect.Formula.Moderate
import DocSelect.Members
import DocSelect.Text.Lowercase

/-!
# Positions among siblings

A position says which child a node is, among all its siblings and among those of its type.
Types that differ only in case count as one. The position of a single sibling is counted
directly; those of all siblings come from one pass with a running tally. Structural pseudo-classes
look at positions alone.
-/

namespace DocSelect

/-- Where a node stands among its siblings. Indexes count from zero. -/
structure Position where
  index : Nat
  count : Nat
  typeIndex : Nat
  typeCount : Nat
deriving DecidableEq, Repr, Inhabited

namespace Position

/-- The position of the sibling with an index, counted among siblings of some types. -/
def among? (types : List String) (index : Nat) : Option Position :=
  (types[index]?).map fun type ↦
    let same (other : String) : Bool := Text.lowercase other == Text.lowercase type
    ⟨index, types.length, (types.take index).countP same, types.countP same⟩

/-- The number of times a type was met. -/
def tallied (tally : Members Nat) (key : String) : Nat := (tally.get? key).getD 0

/-- Counts a type once more. -/
def bump (tally : Members Nat) (key : String) : Members Nat :=
  Members.insert key (tallied tally key + 1) tally

/-- The positions of siblings from an index on. `total` tallies all siblings, `seen` those
before. -/
def pass (count : Nat) (total : Members Nat) (seen : Members Nat) (index : Nat) :
    List String → List Position
  | [] => []
  | key :: keys =>
    ⟨index, count, tallied seen key, tallied total key⟩
      :: pass count total (bump seen key) (index + 1) keys

/-- The positions of siblings of some types, in order. -/
def all (types : List String) : List Position :=
  let keys := types.map Text.lowercase
  pass types.length (keys.foldl bump []) [] 0 keys

end Position

/-- The siblings that a structural pseudo-class counts. -/
inductive Among where
  | siblings
  | sameType
deriving DecidableEq, Repr, Inhabited

/-- The index and the count among some of the siblings. -/
def Among.place (a : Among) (p : Position) : Nat × Nat :=
  match a with
  | siblings => (p.index, p.count)
  | sameType => (p.typeIndex, p.typeCount)

/-- A structural pseudo-class, which looks at nothing but a position. -/
inductive Structural where
  | first (among : Among)
  | last (among : Among)
  | only (among : Among)
  | nth (among : Among) (formula : Formula)
  | nthLast (among : Among) (formula : Formula)
deriving DecidableEq, Repr, Inhabited

namespace Structural

/-- The name of a structural pseudo-class in selectors. -/
def name : Structural → String
  | first .siblings => "first-child"
  | first .sameType => "first-of-type"
  | last .siblings => "last-child"
  | last .sameType => "last-of-type"
  | only .siblings => "only-child"
  | only .sameType => "only-of-type"
  | nth .siblings _ => "nth-child"
  | nth .sameType _ => "nth-of-type"
  | nthLast .siblings _ => "nth-last-child"
  | nthLast .sameType _ => "nth-last-of-type"

/-- The index counted from the last of `count`. -/
def fromEnd (index count : Nat) : Nat := count - (index + 1)

/-- Whether a position is one that a structural pseudo-class asks for. Fails as the test of its
formula does. -/
def holds (s : Structural) (p : Position) : Except Operation Bool :=
  match s with
  | first a => .ok ((a.place p).1 == 0)
  | last a => .ok (fromEnd (a.place p).1 (a.place p).2 == 0)
  | only a => .ok ((a.place p).2 == 1)
  | nth a f => f.holdsAt (a.place p).1
  | nthLast a f => f.holdsAt (fromEnd (a.place p).1 (a.place p).2)

/-- The formula of a structural pseudo-class, if it has one. -/
def formula? : Structural → Option Formula
  | first _ | last _ | only _ => none
  | nth _ f | nthLast _ f => some f

/-- A structural pseudo-class has an answer if its formula, if there is one, is moderate. -/
theorem exists_holds {s : Structural} (h : ∀ f ∈ s.formula?, f.Moderate) (p : Position) :
    ∃ b, s.holds p = .ok b :=
  match s with
  | first _ | last _ | only _ => ⟨_, rfl⟩
  | nth _ f | nthLast _ f => Formula.exists_holdsAt_of_moderate (h f rfl) _

end Structural

/-- A structural pseudo-class of a query, whose formula was read. -/
structure SiblingTest where
  structural : Structural
  moderate : ∀ f ∈ structural.formula?, f.Moderate

namespace SiblingTest

/-- A structural pseudo-class without formula. -/
def bare (s : Structural) (h : s.formula? = none) : SiblingTest := ⟨s, by rw [h]; nofun⟩

/-- The siblings at the positions of a formula. -/
def nth (a : Among) (f : ReadFormula) : SiblingTest :=
  ⟨.nth a f.formula, fun _ h ↦ Option.some.inj h ▸ f.moderate⟩

/-- The siblings at the positions of a formula, counted from the last. -/
def nthLast (a : Among) (f : ReadFormula) : SiblingTest :=
  ⟨.nthLast a f.formula, fun _ h ↦ Option.some.inj h ▸ f.moderate⟩

/-- Whether a position is one that is asked for, which always has an answer. -/
def holds (t : SiblingTest) (p : Position) : Bool :=
  (t.structural.holds p).toOption.get (by
    obtain ⟨b, hb⟩ := t.structural.exists_holds t.moderate p
    rw [hb]
    rfl)

/-- The answer is that of the structural pseudo-class. -/
theorem structural_holds (t : SiblingTest) (p : Position) :
    t.structural.holds p = .ok (t.holds p) := by
  obtain ⟨b, hb⟩ := t.structural.exists_holds t.moderate p
  simp only [holds, hb]
  rfl

end SiblingTest

end DocSelect
