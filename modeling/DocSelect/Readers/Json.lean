import DocSelect.Readers.Json.Numeral
import DocSelect.Text.CodePoint
import DocSelect.Tree.Exchange

/-!
# Reading JSON text

Text is read into a draft, which stops at the first fault. Arrays and objects may be nested as
deeply as the caller says; one that is nested deeper is a fault, found when it opens.
-/

namespace DocSelect.Json

open Text (AtMost Shorter byteLength)

/-- The characters between the parts of a JSON text. -/
def isSpace (c : Char) : Bool := c == ' ' || c == '\t' || c == '\n' || c == '\r'

/-- Text without its leading spaces. -/
def skipSpace (cs : List Char) : AtMost cs.length :=
  ⟨cs.dropWhile isSpace, (List.dropWhile_suffix _).length_le⟩

/-- The number written by four digits in base sixteen. -/
def hexUnit (cs : List Char) : Except Fault (Nat × AtMost cs.length) :=
  match cs with
  | a :: b :: c :: d :: rest =>
    if [a, b, c, d].all Text.isHexDigit then
      .ok (Text.hexNumber [a, b, c, d], ⟨rest, by simp only [List.length_cons]; omega⟩)
    else .error .malformed
  | cs => .error (if byteLength cs < 4 then .truncated else .malformed)

/-- The character of an escape by number, from behind its `u`. Two escapes that form a
surrogate pair are one character. -/
def numberedEscape (cs : List Char) : Except Fault (Char × AtMost cs.length) := do
  let (high, rest) ← hexUnit cs
  if Text.isLowSurrogate high then .error .malformed
  else if !Text.isHighSurrogate high then return (Char.ofNat high, rest)
  else
    match h : rest.1 with
    | '\\' :: 'u' :: t =>
      let (low, rest') ← hexUnit t
      if Text.isLowSurrogate low then
        return (Char.ofNat (Text.joinSurrogates high low),
          ⟨rest'.1, by
            have := rest.2; have := rest'.2
            simp only [h, List.length_cons] at *; omega⟩)
      else .error .malformed
    | [] | ['\\'] => .error .truncated
    | _ => .error .malformed

/-- The character of an escape, from behind its backslash. -/
def escape (cs : List Char) : Except Fault (Char × AtMost cs.length) :=
  let short (c : Char) (t : List Char) : Except Fault (Char × AtMost (t.length + 1)) :=
    .ok (c, .tail t)
  match cs with
  | [] => .error .truncated
  | '"' :: t => short '"' t
  | '\\' :: t => short '\\' t
  | '/' :: t => short '/' t
  | 'b' :: t => short '\x08' t
  | 'f' :: t => short '\x0c' t
  | 'n' :: t => short '\n' t
  | 'r' :: t => short '\r' t
  | 't' :: t => short '\t' t
  | 'u' :: t => do
    let (c, rest) ← numberedEscape t
    return (c, .behind rest)
  | _ => .error .malformed

/-- The rest of a string from behind its opening quotation mark. The characters read so far
are `done`, the last one first. -/
def stringTail (bound : Nat) (done cs : List Char) (h : cs.length ≤ bound) :
    Except Fault (String × AtMost bound) :=
  match cs with
  | [] => .error .truncated
  | '"' :: t => .ok (String.ofList done.reverse, ⟨t, Nat.le_of_succ_le h⟩)
  | '\\' :: t =>
    match escape t with
    | .ok (c, rest) =>
      stringTail bound (c :: done) rest.1 (Nat.le_trans rest.2 (Nat.le_of_succ_le h))
    | .error fault => .error fault
  | c :: t =>
    if c.toNat < 0x20 then .error .malformed
    else stringTail bound (c :: done) t (Nat.le_of_succ_le h)
termination_by cs.length
decreasing_by
  · exact Nat.lt_succ_of_le rest.2
  · exact Nat.lt_succ_self _

/-- Text that goes on with `expected`, or the fault of the first character that differs. -/
def expectWord (expected cs : List Char) : Except Fault (AtMost cs.length) :=
  match expected, cs with
  | [], cs => .ok (.whole cs)
  | _, [] => .error .truncated
  | e :: es, c :: t =>
    if e = c then do
      let rest ← expectWord es t
      return .behind rest
    else .error .malformed

/-- A draft and the text after it, which is missing if the text could not be read on. -/
abbrev Reading (n : Nat) := Draft × Option (Shorter n)

/-- The reading of something that holds no other values. -/
def Reading.ofExcept {α : Type} {n : Nat} (toDraft : α → Draft)
    (result : Except Fault (α × Shorter n)) : Reading n :=
  match result with
  | .ok (a, rest) => (toDraft a, some rest)
  | .error fault => (.broken fault, none)

/-- The fault of finding something else, or nothing, where a part is due. -/
def missing (cs : List Char) : Fault := if cs.isEmpty then .truncated else .malformed

mutual
/-- The value at the start of a text that has no leading space. At most `room` arrays and
objects may be open within one another. -/
def readValue (room : Nat) (cs : List Char) : Reading cs.length :=
  match cs with
  | [] => (.broken .truncated, none)
  | '[' :: t =>
    match room with
    | 0 => (.array [] (some .malformed), none)
    | room + 1 =>
      match readFirstItem room (skipSpace t).1 with
      | (items, .ok rest) =>
        (.array items none, some (.behind (.within (skipSpace t) rest)))
      | (items, .error fault) => (.array items (some fault), none)
  | '\x7b' :: t =>
    match room with
    | 0 => (.object [] (some .malformed), none)
    | room + 1 =>
      match readFirstMember room (skipSpace t).1 with
      | (members, .ok rest) =>
        (.object members none, some (.behind (.within (skipSpace t) rest)))
      | (members, .error fault) => (.object members (some fault), none)
  | '"' :: t => .ofExcept .string do
    let (s, rest) ← stringTail t.length [] t (Nat.le_refl _)
    return (s, .behind rest)
  | 'n' :: t => .ofExcept (fun _ ↦ .null) do
    let rest ← expectWord ['u', 'l', 'l'] t
    return ((), .behind rest)
  | 't' :: t => .ofExcept .bool do
    let rest ← expectWord ['r', 'u', 'e'] t
    return (true, .behind rest)
  | 'f' :: t => .ofExcept .bool do
    let rest ← expectWord ['a', 'l', 's', 'e'] t
    return (false, .behind rest)
  | c :: t =>
    if c = '-' || c.isDigit then .ofExcept .number (numeral (c :: t))
    else (.broken .malformed, none)
termination_by (cs.length, 0)
decreasing_by
  all_goals have := (skipSpace t).2; simp only [List.length_cons]; apply Prod.Lex.left; omega

/-- The items of an array from behind its opening bracket. -/
def readFirstItem (room : Nat) (cs : List Char) :
    List Draft × Except Fault (AtMost cs.length) :=
  match cs with
  | ']' :: t => ([], .ok (.tail t))
  | [] => ([], .error .truncated)
  | cs => readItems room cs
termination_by (cs.length, 2)
decreasing_by apply Prod.Lex.right; omega

/-- The items of an array, from the start of one of them. -/
def readItems (room : Nat) (cs : List Char) : List Draft × Except Fault (AtMost cs.length) :=
  match readValue room cs with
  | (item, none) => ([item], .error .malformed)
  | (item, some rest) =>
    match h : (skipSpace rest.1).1 with
    | ']' :: t => ([item], .ok ⟨t, by
        have := rest.2; have := (skipSpace rest.1).2
        simp only [h, List.length_cons] at *; omega⟩)
    | ',' :: t =>
      let next := skipSpace t
      match hn : next.1 with
      | ']' :: _ => ([item], .error .malformed)
      | next' =>
        let (items, result) := readItems room next'
        (item :: items, result.map fun rest' ↦ ⟨rest'.1, by
          have := rest.2; have := (skipSpace rest.1).2; have := next.2; have := rest'.2
          simp only [h, hn, List.length_cons] at *; omega⟩)
    | other => ([item], .error (missing other))
termination_by (cs.length, 1)
decreasing_by
  · apply Prod.Lex.right; omega
  · apply Prod.Lex.left
    have := rest.2; have := (skipSpace rest.1).2; have := next.2
    simp only [h, hn, List.length_cons] at *; omega

/-- The members of an object from behind its opening brace. -/
def readFirstMember (room : Nat) (cs : List Char) :
    List (String × Draft) × Except Fault (AtMost cs.length) :=
  match cs with
  | '\x7d' :: t => ([], .ok (.tail t))
  | cs => readMembers room cs
termination_by (cs.length, 2)
decreasing_by apply Prod.Lex.right; omega

/-- The members of an object, from the start of one of them. -/
def readMembers (room : Nat) (cs : List Char) :
    List (String × Draft) × Except Fault (AtMost cs.length) :=
  match cs with
  | '"' :: t =>
    match stringTail t.length [] t (Nat.le_refl _) with
    | .error fault => ([], .error fault)
    | .ok (name, rest) =>
      match h : (skipSpace rest.1).1 with
      | ':' :: u =>
        match readValue room (skipSpace u).1 with
        | (value, none) => ([(name, value)], .error .malformed)
        | (value, some rest') =>
          match h' : (skipSpace rest'.1).1 with
          | '\x7d' :: v => ([(name, value)], .ok ⟨v, by
              have := rest.2; have := (skipSpace rest.1).2; have := (skipSpace u).2
              have := rest'.2; have := (skipSpace rest'.1).2
              simp only [h, h', List.length_cons] at *; omega⟩)
          | ',' :: v =>
            let (members, result) := readMembers room (skipSpace v).1
            ((name, value) :: members, result.map fun rest'' ↦ ⟨rest''.1, by
              have := rest.2; have := (skipSpace rest.1).2; have := (skipSpace u).2
              have := rest'.2; have := (skipSpace rest'.1).2
              have := (skipSpace v).2; have := rest''.2
              simp only [h, h', List.length_cons] at *; omega⟩)
          | other => ([(name, value)], .error (missing other))
      | other => ([(name, .broken (missing other))], .error .malformed)
  | cs => ([], .error (missing cs))
termination_by (cs.length, 1)
decreasing_by
  · apply Prod.Lex.left
    have := rest.2; have := (skipSpace rest.1).2; have := (skipSpace u).2
    simp only [h, List.length_cons] at *; omega
  · apply Prod.Lex.left
    have := rest.2; have := (skipSpace rest.1).2; have := (skipSpace u).2
    have := rest'.2; have := (skipSpace rest'.1).2; have := (skipSpace v).2
    simp only [h, h', List.length_cons] at *; omega
end

/-- The draft of a whole text, and the fault of having more text behind it. -/
def readDraft (room : Nat) (text : String) : Draft × Option Fault :=
  match readValue room (skipSpace text.toList).1 with
  | (draft, none) => (draft, none)
  | (draft, some rest) =>
    (draft, if (skipSpace rest.1).1.isEmpty then none else some .malformed)

/-- The value of a whole text. -/
def read (room : Nat) (text : String) : Except Fault Json := do
  let (draft, extra) := readDraft room text
  let value ← draft.value
  Draft.close extra
  return value

end DocSelect.Json

namespace DocSelect

/-- How many arrays and objects may be open within one another in the text of a node. -/
def Node.maxNesting : Nat := 127

/-- Reads a node from JSON text. -/
def Node.read (text : String) : Except TreeError Node :=
  Node.ofReading (Json.readDraft Node.maxNesting text)

end DocSelect
