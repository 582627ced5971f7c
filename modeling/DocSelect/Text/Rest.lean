/-!
# Text left to read

Readers take something from the front of a text and hand back the text behind it, together
with a bound on its length. The bound is what makes readers that call one another end.
-/

namespace DocSelect.Text

/-- Text that is no longer than `n`. -/
abbrev AtMost (n : Nat) := { cs : List Char // cs.length ≤ n }

/-- Text that is shorter than `n`. -/
abbrev Shorter (n : Nat) := { cs : List Char // cs.length < n }

namespace AtMost

/-- All of a text. -/
def whole (cs : List Char) : AtMost cs.length := ⟨cs, Nat.le_refl _⟩

/-- The text behind one character. -/
def tail (cs : List Char) : AtMost (cs.length + 1) := ⟨cs, Nat.le_succ _⟩

/-- A rest of the text behind one character. -/
def behind {n : Nat} (rest : AtMost n) : AtMost (n + 1) := ⟨rest.1, Nat.le_succ_of_le rest.2⟩

/-- A rest of a rest. -/
def within {n : Nat} (rest : AtMost n) (next : AtMost rest.1.length) : AtMost n :=
  ⟨next.1, Nat.le_trans next.2 rest.2⟩

/-- All of a text remains. -/
@[simp] theorem val_whole (cs : List Char) : (whole cs).1 = cs := rfl

/-- The tail of a text remains. -/
@[simp] theorem val_tail (cs : List Char) : (tail cs).1 = cs := rfl

/-- What remains behind one more character is the same text. -/
@[simp] theorem val_behind {n : Nat} (rest : AtMost n) : (behind rest).1 = rest.1 := rfl

/-- What remains of a rest remains of the text. -/
@[simp] theorem val_within {n : Nat} (rest : AtMost n) (next : AtMost rest.1.length) :
    (within rest next).1 = next.1 :=
  rfl

end AtMost

namespace Shorter

/-- A rest of the text behind one character, which is shorter than the text. -/
def behind {n : Nat} (rest : AtMost n) : Shorter (n + 1) := ⟨rest.1, Nat.lt_succ_of_le rest.2⟩

/-- What remains behind one more character is the same text. -/
@[simp] theorem val_behind {n : Nat} (rest : AtMost n) : (behind rest).1 = rest.1 := rfl

end Shorter

/-- The number of bytes that a text takes in UTF-8. -/
def byteLength : List Char → Nat
  | [] => 0
  | c :: cs => c.utf8Size + byteLength cs

/-- The empty text takes no bytes. -/
@[simp] theorem byteLength_nil : byteLength [] = 0 := rfl

/-- The bytes of a text are those of its characters. -/
@[simp] theorem byteLength_cons (c : Char) (cs : List Char) :
    byteLength (c :: cs) = c.utf8Size + byteLength cs :=
  rfl

/-- The bytes of two texts add up. -/
@[simp] theorem byteLength_append (a b : List Char) :
    byteLength (a ++ b) = byteLength a + byteLength b := by
  induction a with
  | nil => simp
  | cons c cs ih => simp [ih, Nat.add_assoc]

end DocSelect.Text
