import DocSelect.Members
import DocSelect.Number.Shortest

/-!
# JSON values

The values of JSON, with numbers that are either whole numbers of 64 bits or doubles. The
members of an object are kept in the order of their names.
-/

namespace DocSelect

/-- A number: a whole number from `-2 ^ 63` up to `2 ^ 64`, or a double. -/
inductive Number where
  | whole (n : Int)
  | double (d : Double)
deriving DecidableEq, Repr

/-- The text of a whole number in base ten. -/
def intText (n : Int) : List Char :=
  if n < 0 then '-' :: Nat.toDigits 10 n.natAbs else Nat.toDigits 10 n.natAbs

/-- The text of a number, the same in values, messages and comparisons. -/
def Number.text : Number → String
  | .whole n => String.ofList (intText n)
  | .double d => d.text

/-- A JSON value. -/
inductive Json where
  | null
  | bool (b : Bool)
  | number (n : Number)
  | string (s : String)
  | array (items : List Json)
  | object (members : List (String × Json))
deriving Inhabited

namespace Json

/-- The value of a whole number. -/
def ofInt (n : Int) : Json := .number (.whole n)

/-- The value of an optional text, `null` standing for none. -/
def ofOption (text : Option String) : Json := text.elim .null .string

/-- Whether a value is `null`. -/
def isNull : Json → Bool
  | .null => true
  | _ => false

/-- The text of a string value. -/
def string? : Json → Option String
  | .string s => some s
  | _ => none

/-- The text form of a string, number or truth value; the others have none. -/
def scalarText? : Json → Option String
  | .string s => some s
  | .number n => some n.text
  | .bool b => some (if b then "true" else "false")
  | .null | .array _ | .object _ => none

mutual
/-- Every object, at any depth, has its names in strictly increasing order. -/
def Sorted : Json → Prop
  | .array items => AllSorted items
  | .object members => Members.Sorted members ∧ MembersSorted members
  | .null | .bool _ | .number _ | .string _ => True

/-- Every item is sorted. -/
def AllSorted : List Json → Prop
  | [] => True
  | item :: rest => item.Sorted ∧ AllSorted rest

/-- Every member's value is sorted. -/
def MembersSorted : List (String × Json) → Prop
  | [] => True
  | (_, value) :: rest => value.Sorted ∧ MembersSorted rest
end

mutual
/-- Whether two values are equal. -/
def decEq : (a b : Json) → Decidable (a = b)
  | .null, .null => isTrue rfl
  | .bool a, .bool b => decidable_of_iff (a = b) (by simp)
  | .number a, .number b => decidable_of_iff (a = b) (by simp)
  | .string a, .string b => decidable_of_iff (a = b) (by simp)
  | .array a, .array b =>
    match decEqItems a b with
    | isTrue h => isTrue (h ▸ rfl)
    | isFalse h => isFalse fun e ↦ h (by injection e)
  | .object a, .object b =>
    match decEqMembers a b with
    | isTrue h => isTrue (h ▸ rfl)
    | isFalse h => isFalse fun e ↦ h (by injection e)
  | .null, .bool _ | .null, .number _ | .null, .string _ | .null, .array _ | .null, .object _
  | .bool _, .null | .bool _, .number _ | .bool _, .string _ | .bool _, .array _
  | .bool _, .object _ | .number _, .null | .number _, .bool _ | .number _, .string _
  | .number _, .array _ | .number _, .object _ | .string _, .null | .string _, .bool _
  | .string _, .number _ | .string _, .array _ | .string _, .object _ | .array _, .null
  | .array _, .bool _ | .array _, .number _ | .array _, .string _ | .array _, .object _
  | .object _, .null | .object _, .bool _ | .object _, .number _ | .object _, .string _
  | .object _, .array _ => isFalse nofun

/-- Whether two lists of values are equal. -/
def decEqItems : (a b : List Json) → Decidable (a = b)
  | [], [] => isTrue rfl
  | [], _ :: _ | _ :: _, [] => isFalse nofun
  | a :: as, b :: bs =>
    match decEq a b, decEqItems as bs with
    | isTrue h, isTrue hs => isTrue (h ▸ hs ▸ rfl)
    | isFalse h, _ => isFalse fun e ↦ h (by injection e)
    | _, isFalse hs => isFalse fun e ↦ hs (by injection e)

/-- Whether two lists of members are equal. -/
def decEqMembers : (a b : List (String × Json)) → Decidable (a = b)
  | [], [] => isTrue rfl
  | [], _ :: _ | _ :: _, [] => isFalse nofun
  | (k, a) :: as, (l, b) :: bs =>
    match decEq a b, decEqMembers as bs with
    | isTrue h, isTrue hs =>
      if hk : k = l then isTrue (h ▸ hs ▸ hk ▸ rfl)
      else isFalse fun e ↦ hk (by injection e with e; injection e)
    | isFalse h, _ => isFalse fun e ↦ h (by injection e with e; injection e)
    | _, isFalse hs => isFalse fun e ↦ hs (by injection e)
end

/-- Values are compared member by member. -/
instance : DecidableEq Json := decEq

end Json

end DocSelect
