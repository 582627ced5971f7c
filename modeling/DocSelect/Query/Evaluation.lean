import DocSelect.Query.Matcher
import DocSelect.Query.Search

/-!
# What matchers mean

The meaning of a matcher is a step of a search. Types, identifiers, classes and attributes are
tested first, then pseudo-classes one after the other until one fails. `:not` and `:matches`
test the same node with a setting of its own; `:has` searches below the node.
-/

namespace DocSelect

variable {α : Type} [Element α]

/-- Whether the parts of a matcher that look at nothing but a node's contents hold. -/
def Matcher.holdsAlone (m : Matcher α) (a : α) : Bool :=
  m.type.all (· == Element.type a)
    && m.id.all (fun id ↦ Element.identifier? a == some id)
    && m.classes.all (Element.hasClass a)
    && m.attributes.all (fun t ↦ t.accepts (Element.attribute? a t.name))

/-- The part of a matcher that must not stand within `:not`, `:matches` or `:any`. -/
def Matcher.outerPart? (m : Matcher α) : Option OuterPart :=
  if m.id.isSome then some .id else if !m.classes.isEmpty then some .className else none

/-- A node without children, or a leaf without value. -/
def Tree.isBare : Tree α → Bool
  | .leaf a => (Element.value? a).isNone
  | .parent _ cs => cs.isEmpty

/-- Whether a structural pseudo-class holds at a position. A root has none, and a node whose
siblings are unknown cannot be asked. -/
def SiblingTest.verdict (t : SiblingTest) (setting : Setting) (position : Option Position) :
    Except MatchError Verdict :=
  match position with
  | some p => .ok (.of (t.holds p))
  | none => if setting.detached then .error (.noParent t.structural.name) else .ok (.of false)

/-- Whether one of the alternatives that are no chains holds at a node. -/
def anyAlone (setting : Setting) (place : Place α) (position : Option Position) :
    List (Chain (Step α)) → Except MatchError Verdict
  | [] => .ok (.of false)
  | c :: cs =>
    if c.links.isEmpty then do
      let v ← c.head.test setting place position
      if v.holds then return v
      else
        let w ← anyAlone setting place position cs
        return ⟨w.holds, v.visits + w.visits⟩
    else anyAlone setting place position cs

/-- The setting of alternatives that are tested at the same node. -/
def Setting.within (setting : Setting) (place : Place α) : Setting :=
  { setting with scope := [place.path], inner := true }

/-- Whether something below a node is found. -/
def hasBelow (setting : Setting) (place : Place α) (chains : List (Chain (Step α))) :
    Except MatchError Verdict := do
  let hits ← (Search.mk chains true [place.path] setting.maxDepth).runBelow setting.depth place
  return ⟨!hits.found.isEmpty, hits.visits⟩

mutual
/-- The chains of steps that some alternatives mean. -/
def Matcher.chains : List (Chain (Matcher α)) → List (Chain (Step α))
  | [] => []
  | c :: cs => Matcher.chain c :: Matcher.chains cs

/-- The chain of steps that a chain of matchers means. -/
def Matcher.chain : Chain (Matcher α) → Chain (Step α)
  | ⟨head, links⟩ => ⟨head.step, Matcher.steps links⟩

/-- The steps that some matchers mean. -/
def Matcher.steps : List (Matcher α) → List (Step α)
  | [] => []
  | m :: ms => m.step :: Matcher.steps ms

/-- The step that a matcher means. -/
def Matcher.step : Matcher α → Step α
  | ⟨type, id, classes, attributes, tests, combinator⟩ =>
    let alone : Matcher α := ⟨type, id, classes, attributes, [], none⟩
    ⟨combinator, fun setting place position ↦
      match if setting.inner then alone.outerPart? else none with
      | some part => .error (.outerPart part)
      | none =>
        if alone.holdsAlone place.tree.content then Test.all tests setting place position
        else .ok (.of false)⟩

/-- Whether all of some pseudo-classes hold, asked in order until one fails. -/
def Test.all : List (Test α) → Setting → Place α → Option Position → Except MatchError Verdict
  | [], _, _, _ => .ok (.of true)
  | t :: ts, setting, place, position => do
    let v ← t.verdict setting place position
    if v.holds then
      let w ← Test.all ts setting place position
      return ⟨w.holds, v.visits + w.visits⟩
    else return v

/-- Whether a pseudo-class holds. -/
def Test.verdict : Test α → Setting → Place α → Option Position → Except MatchError Verdict
  | .structural t, setting, _, position => t.verdict setting position
  | .empty, _, place, _ => .ok (.of place.tree.isBare)
  | .root, _, _, position => .ok (.of position.isNone)
  | .scope, setting, place, _ => .ok (.of (setting.scope.contains place.path))
  | .matches alternatives, setting, place, position =>
    anyAlone (setting.within place) place position (Matcher.chains alternatives)
  | .not alternatives, setting, place, position => do
    let v ← anyAlone (setting.within place) place position (Matcher.chains alternatives)
    return ⟨!v.holds, v.visits⟩
  | .has alternatives, setting, place, _ =>
    hasBelow setting place (Matcher.chains alternatives)
  | .custom handler argument, _, place, _ => .ok (.of (handler place.tree argument))
end

end DocSelect
