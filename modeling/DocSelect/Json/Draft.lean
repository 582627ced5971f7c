import DocSelect.Json.Basic

/-!
# Drafts of JSON values

What a reader has seen of a JSON text, up to the first place where the text stops making
sense. A draft keeps members in the order of the text, repeated names included, so that a
later check can report whichever problem comes first. A draft without faults denotes a value.
-/

namespace DocSelect

/-- Why a text is not JSON: a character that cannot stand where it does, or an early end. -/
inductive Fault where
  | malformed
  | truncated
deriving DecidableEq, Repr

/-- A JSON value as far as it could be read. Arrays and objects carry the fault that kept them
from being closed, if there is one. -/
inductive Draft where
  | null
  | bool (b : Bool)
  | number (n : Number)
  | string (s : String)
  | array (items : List Draft) (stop : Option Fault)
  | object (members : List (String × Draft)) (stop : Option Fault)
  | broken (fault : Fault)
deriving Inhabited

namespace Draft

/-- Raises the fault that kept an array or object open. -/
def close (stop : Option Fault) : Except Fault Unit :=
  match stop with
  | none => .ok ()
  | some fault => .error fault

mutual
/-- The value of a draft, or its first fault. The last value of a repeated name wins. -/
def value : Draft → Except Fault Json
  | .null => .ok .null
  | .bool b => .ok (.bool b)
  | .number n => .ok (.number n)
  | .string s => .ok (.string s)
  | .array items stop => do
    let items ← values items
    close stop
    return .array items
  | .object members stop => do
    let members ← memberValues members
    close stop
    return .object (Members.ofList members)
  | .broken fault => .error fault

/-- The values of some drafts. -/
def values : List Draft → Except Fault (List Json)
  | [] => .ok []
  | item :: rest => do
    let item ← item.value
    return item :: (← values rest)

/-- The values of some members, in the order of the text. -/
def memberValues : List (String × Draft) → Except Fault (List (String × Json))
  | [] => .ok []
  | (name, item) :: rest => do
    let item ← item.value
    return (name, item) :: (← memberValues rest)
end

mutual
/-- The draft of a value. -/
def ofJson : Json → Draft
  | .null => .null
  | .bool b => .bool b
  | .number n => .number n
  | .string s => .string s
  | .array items => .array (ofItems items) none
  | .object members => .object (ofMembers members) none

/-- The drafts of some values. -/
def ofItems : List Json → List Draft
  | [] => []
  | item :: rest => ofJson item :: ofItems rest

/-- The drafts of some members. -/
def ofMembers : List (String × Json) → List (String × Draft)
  | [] => []
  | (name, value) :: rest => (name, ofJson value) :: ofMembers rest
end

end Draft

end DocSelect
