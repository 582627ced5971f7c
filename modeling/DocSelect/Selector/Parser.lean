import DocSelect.Selector.Dialect
import DocSelect.Selector.Lexeme

/-!
# Reading selectors

The grammar, under a dialect: a selector is a comma-separated list of chains, a chain is
compounds joined by combinators, and a compound is an optional type followed by parts. Each
reader takes what it can from the front of the text and hands back the rest with its bound.
A reader that stops in front of a character it cannot use leaves it to its caller.
-/

namespace DocSelect

open Text (AtMost skipBlank)
open Lexeme (Taken)

/-- One part of a compound behind its type. -/
inductive Part where
  | id (name : String)
  | className (name : String)
  | attr (test : AttributeTest)
  | pseudo (test : PseudoClass)

namespace Part

/-- The identifier that a part asks for. -/
def id? : Part → Option String
  | id name => some name
  | _ => none

/-- The class that a part asks for. -/
def class? : Part → Option String
  | className name => some name
  | _ => none

/-- The attribute test of a part. -/
def attribute? : Part → Option AttributeTest
  | attr test => some test
  | _ => none

/-- The pseudo-class of a part. -/
def pseudo? : Part → Option PseudoClass
  | pseudo test => some test
  | _ => none

end Part

/-- The compound of a type and some parts. The last identifier counts. -/
def Compound.ofParts (type : Option TypeTest) (parts : List Part) : Compound where
  type := type
  id := (parts.filterMap Part.id?).getLast?
  classes := parts.filterMap Part.class?
  attributes := parts.filterMap Part.attribute?
  pseudos := parts.filterMap Part.pseudo?
  combinator := none

namespace Grammar

/-- The text behind one certain character. -/
def expect (c : Char) (cs : List Char) : Except Problem (AtMost cs.length) :=
  match cs with
  | [] => .error (.here (.unexpectedEnd (.delimiter c)) [])
  | found :: t =>
    if found = c then .ok (.tail t)
    else .error (.here (.unexpectedChar (.delimiter c) found) (found :: t))

/-- The type at the start of a compound, if there is one. -/
def typeTest (cs : List Char) : Taken (Option TypeTest) cs.length :=
  match cs with
  | [] => .ok (none, .whole [])
  | '*' :: t => .ok (some .any, .tail t)
  | c :: t =>
    if Lexeme.isNameStart c || c = '\\' then do
      let (chars, rest) ← Lexeme.name (c :: t)
      return (some (.named (String.ofList chars)), rest)
    else .ok (none, .whole (c :: t))

/-- Whether a compound can begin here. -/
def startsCompound (cs : List Char) : Bool :=
  match cs with
  | [] => false
  | c :: _ =>
    c == '*' || Lexeme.isNameStart c || c == '\\' || c == '.' || c == '#' || c == '[' || c == ':'

/-- The comparison mark at the start of a text, if there is one. -/
def comparisonMark (d : Dialect) (cs : List Char) : Taken Comparison cs.length :=
  match cs with
  | [] => .ok (.equals, .whole [])
  | c :: t =>
    match Comparison.ofMark? c with
    | none => .ok (.equals, .whole (c :: t))
    | some op =>
      if d.allowsComparison op then .ok (op, .tail t)
      else .error (.here (.unknownOperator c) (c :: t))

/-- The expected side of a comparison: a string, a variable, or all up to the bracket. -/
def operand (d : Dialect) (cs : List Char) : Taken Operand cs.length :=
  match cs with
  | '"' :: t => do
    let (s, rest) ← Lexeme.string '"' t
    return (.text s, rest)
  | '\'' :: t => do
    let (s, rest) ← Lexeme.string '\'' t
    return (.text s, rest)
  | '$' :: t =>
    if d.allowsVariables then do
      let (s, rest) ← Lexeme.requiredName '$' t
      return (.variable s, .behind rest)
    else
      let (s, rest) := Lexeme.rawValue ('$' :: t)
      .ok (.text s, rest)
  | cs =>
    let (s, rest) := Lexeme.rawValue cs
    .ok (.text s, rest)

/-- An attribute test from behind its opening bracket. -/
def attributeTest (d : Dialect) (cs : List Char) : Taken AttributeTest cs.length := do
  have h₀ := Text.length_skipBlank_le cs
  let (name, ⟨r₁, h₁⟩) ← Lexeme.requiredName '[' (skipBlank cs)
  have h₂ := Text.length_skipBlank_le r₁
  match h : skipBlank r₁ with
  | ']' :: t => return (⟨name, none⟩, ⟨t, by simp [h] at h₂; omega⟩)
  | r₂ =>
    let (op, ⟨r₃, h₃⟩) ← comparisonMark d r₂
    let ⟨r₄, h₄⟩ ← expect '=' r₃
    have h₅ := Text.length_skipBlank_le r₄
    let (value, ⟨r₅, h₆⟩) ← operand d (skipBlank r₄)
    have h₇ := Text.length_skipBlank_le r₅
    let ⟨r₆, h₈⟩ ← expect ']' (skipBlank r₅)
    return (⟨name, some (op, value)⟩, ⟨r₆, by simp only [h] at h₂; omega⟩)

/-- An argument that is not a selector: a string, a variable, or all up to the parenthesis. -/
def plainArgument (d : Dialect) (kind : ArgumentKind) (cs : List Char) :
    Taken Argument cs.length :=
  let wrap (s : String) : Argument := if kind = .formula then .formula s else .text s
  match cs with
  | '"' :: t => do
    let (s, rest) ← Lexeme.string '"' t
    return (wrap s, rest)
  | '\'' :: t => do
    let (s, rest) ← Lexeme.string '\'' t
    return (wrap s, rest)
  | '$' :: t =>
    if d.allowsVariables then do
      let (s, rest) ← Lexeme.requiredName '$' t
      return (.variable s, .behind rest)
    else do
      let (s, rest) ← Lexeme.rawArgument ('$' :: t)
      return (wrap s, rest)
  | cs => do
    let (s, rest) ← Lexeme.rawArgument cs
    return (wrap s, rest)

/-- Readers call one another on less text, or on no more text further down the grammar. -/
private theorem measure_lt {m n i j : Nat} (h : m ≤ n) (hij : i < j) :
    Prod.Lex (· < ·) (· < ·) (m, i) (n, j) := by
  rcases Nat.lt_or_eq_of_le h with h | rfl
  · exact .left _ _ h
  · exact .right _ hij

mutual
/-- The alternatives at the start of a text, which may be none. -/
def chains (d : Dialect) (cs : List Char) : Taken (List (Chain Compound)) cs.length :=
  have h₀ := Text.length_skipBlank_le cs
  if startsCompound (skipBlank cs) then do
    let (first, ⟨r₁, h₁⟩) ← chain d (skipBlank cs)
    let (more, ⟨r₂, h₂⟩) ← moreChains d r₁
    return (first :: more, ⟨r₂, by omega⟩)
  else .ok ([], ⟨skipBlank cs, h₀⟩)
termination_by (cs.length, 5)
decreasing_by
  · exact measure_lt h₀ (by omega)
  · exact measure_lt (by omega) (by omega)

/-- The alternatives behind another one, each behind a comma. -/
def moreChains (d : Dialect) (cs : List Char) : Taken (List (Chain Compound)) cs.length :=
  match cs with
  | ',' :: t =>
    have h₀ := Text.length_skipBlank_le t
    if startsCompound (skipBlank t) then do
      let (next, ⟨r₁, h₁⟩) ← chain d (skipBlank t)
      let (more, ⟨r₂, h₂⟩) ← moreChains d r₁
      return (next :: more, ⟨r₂, by simp only [List.length_cons]; omega⟩)
    else .error (.here (.ruleExpected ',') (skipBlank t))
  | cs => .ok ([], .whole cs)
termination_by (cs.length, 4)
decreasing_by
  all_goals exact .left _ _ (by simp only [List.length_cons]; omega)

/-- A chain from the start of its head. -/
def chain (d : Dialect) (cs : List Char) : Taken (Chain Compound) cs.length := do
  let (head, ⟨r₁, h₁⟩) ← compound d cs
  let (links, ⟨r₂, h₂⟩) ← links d r₁
  return (⟨head, links⟩, ⟨r₂, by omega⟩)
termination_by (cs.length, 4)
decreasing_by
  · exact measure_lt (Nat.le_refl _) (by omega)
  · exact measure_lt h₁ (by omega)

/-- The links of a chain, each with its combinator, and the blanks behind the last one. -/
def links (d : Dialect) (cs : List Char) : Taken (List Compound) cs.length :=
  have h₀ := Text.length_skipBlank_le cs
  match h : skipBlank cs with
  | [] => .ok ([], ⟨[], by simp⟩)
  | c :: t =>
    if c = ',' || c = ')' then .ok ([], ⟨c :: t, by simpa [h] using h₀⟩)
    else
      match Combinator.ofMark? c with
      | some op =>
        have h₁ := Text.length_skipBlank_le t
        if !d.allowsCombinator op then .error (.here (.unknownOperator c) (c :: t))
        else if startsCompound (skipBlank t) then do
          let (next, ⟨r₁, h₂⟩) ← compound d (skipBlank t)
          let (more, ⟨r₂, h₃⟩) ← links d r₁
          return ({ next with combinator := some op } :: more,
            ⟨r₂, by simp [h] at h₀; omega⟩)
        else .error (.here (.ruleExpected c) (skipBlank t))
      | none =>
        if startsCompound (c :: t) then
          if hs : (c :: t).length < cs.length then do
            let (next, ⟨r₁, h₂⟩) ← compound d (c :: t)
            let (more, ⟨r₂, h₃⟩) ← links d r₁
            return ({ next with combinator := some .descendant } :: more, ⟨r₂, by omega⟩)
          else do
            let (_, ⟨r₁, _⟩) ← compound d (c :: t)
            .error ⟨.unexpectedChar .separator c, c :: t, r₁⟩
        else .ok ([], ⟨c :: t, by simpa [h] using h₀⟩)
termination_by (cs.length, 3)
decreasing_by
  · simp [h] at h₀; exact .left _ _ (by omega)
  · simp [h] at h₀; exact .left _ _ (by omega)
  · exact .left _ _ hs
  · exact .left _ _ (by omega)
  · exact measure_lt (by simpa only [h] using h₀) (by omega)

/-- A compound from its start. -/
def compound (d : Dialect) (cs : List Char) : Taken Compound cs.length := do
  let (type, ⟨r₁, h₁⟩) ← typeTest cs
  let (parts, ⟨r₂, h₂⟩) ← parts d r₁
  return (.ofParts type parts, ⟨r₂, by omega⟩)
termination_by (cs.length, 2)
decreasing_by exact measure_lt h₁ (by omega)

/-- The parts of a compound behind its type. -/
def parts (d : Dialect) (cs : List Char) : Taken (List Part) cs.length :=
  match cs with
  | '.' :: t => do
    let (name, ⟨r₁, h₁⟩) ← Lexeme.requiredName '.' t
    let (more, ⟨r₂, h₂⟩) ← parts d r₁
    return (.className name :: more, ⟨r₂, by simp only [List.length_cons]; omega⟩)
  | '#' :: t => do
    let (name, ⟨r₁, h₁⟩) ← Lexeme.requiredName '#' t
    let (more, ⟨r₂, h₂⟩) ← parts d r₁
    return (.id name :: more, ⟨r₂, by simp only [List.length_cons]; omega⟩)
  | '[' :: t => do
    let (test, ⟨r₁, h₁⟩) ← attributeTest d t
    let (more, ⟨r₂, h₂⟩) ← parts d r₁
    return (.attr test :: more, ⟨r₂, by simp only [List.length_cons]; omega⟩)
  | ':' :: t => do
    let (test, ⟨r₁, h₁⟩) ← pseudoClass d t
    let (more, ⟨r₂, h₂⟩) ← parts d r₁
    return (.pseudo test :: more, ⟨r₂, by simp only [List.length_cons]; omega⟩)
  | cs => .ok ([], .whole cs)
termination_by (cs.length, 1)
decreasing_by all_goals exact .left _ _ (by simp only [List.length_cons]; omega)

/-- A pseudo-class from behind its colon. -/
def pseudoClass (d : Dialect) (cs : List Char) : Taken PseudoClass cs.length := do
  let (name, ⟨r₁, h₁⟩) ← Lexeme.requiredName ':' cs
  match h : r₁ with
  | '(' :: t =>
    have h₂ := Text.length_skipBlank_le t
    match d.argumentKind name with
    | .selector =>
      let (alternatives, ⟨r₂, h₃⟩) ← chains d (skipBlank t)
      let ⟨r₃, h₄⟩ ← expect ')' r₂
      return (⟨name, .selector (.ofChains alternatives)⟩,
        ⟨r₃, by simp only [h, List.length_cons] at h₁; omega⟩)
    | kind =>
      let (argument, ⟨r₂, h₃⟩) ← plainArgument d kind (skipBlank t)
      have h₄ := Text.length_skipBlank_le r₂
      let ⟨r₃, h₅⟩ ← expect ')' (skipBlank r₂)
      return (⟨name, argument⟩, ⟨r₃, by simp only [h, List.length_cons] at h₁; omega⟩)
  | r₂ => return (⟨name, .none⟩, ⟨r₂, by simpa only [h] using h₁⟩)
termination_by (cs.length, 0)
decreasing_by simp only [h, List.length_cons] at h₁; exact .left _ _ (by omega)
end

/-- The selector that a whole text is. -/
def selector (d : Dialect) (cs : List Char) : Except Problem Selector := do
  let (alternatives, rest) ← chains d cs
  match rest.1 with
  | [] => return .ofChains alternatives
  | c :: t => .error (.here (.trailingInput c) (c :: t))

end Grammar

/-- Reads a selector in a dialect. -/
def Selector.parse (d : Dialect) (text : String) : Except ParseError Selector :=
  (Grammar.selector d text.toList).mapError (Problem.toError text.toList)

end DocSelect
