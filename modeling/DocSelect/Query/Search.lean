import DocSelect.Query.MatchError
import DocSelect.Query.Position
import DocSelect.Selector.Basic
import DocSelect.Tree.Basic

/-!
# Searching a tree for chains

A search walks a tree once, in document order. At each node it tries the heads of all chains
and the steps that earlier nodes left waiting: a step waits for the descendants or children of
a node, or for its next or later siblings. A step that waits for descendants or later siblings
goes on waiting whether it holds or not. A node is found when the last step of a chain holds.

A search for the first node stops trying, going deeper and going on as soon as it has found
one. Every search counts the nodes that it visits, those of searches within tests included.
-/

namespace DocSelect

variable {α : Type}

/-- What a test may ask besides the node itself. -/
structure Setting where
  /-- The nodes that `:scope` stands for. -/
  scope : List Path
  /-- The number of times the search has gone deeper. -/
  depth : Nat
  maxDepth : Nat
  /-- The siblings of the node are unknown. -/
  detached : Bool
  /-- The test stands directly within `:not`, `:matches` or `:any`. -/
  inner : Bool
deriving DecidableEq, Repr, Inhabited

/-- Whether a test holds, and how many nodes were visited to find out. -/
structure Verdict where
  holds : Bool
  visits : Nat
deriving DecidableEq, Repr, Inhabited

/-- The verdict of a test that visits no nodes. -/
def Verdict.of (holds : Bool) : Verdict := ⟨holds, 0⟩

/-- A test of one node, with the combinator that leads to it. -/
structure Step (α : Type) where
  combinator : Option Combinator
  test : Setting → Place α → Option Position → Except MatchError Verdict

/-- A step that waits for a node, known by its chain and by its place in the chain. -/
structure Waiting (α : Type) where
  chain : Nat
  link : Nat
  step : Step α
  rest : List (Step α)

namespace Waiting

/-- Whether two waiting steps are the same link of the same chain. -/
def same (a b : Waiting α) : Bool := a.chain == b.chain && a.link == b.link

/-- The step behind a waiting step. -/
def next? (w : Waiting α) : Option (Waiting α) :=
  match w.rest with
  | [] => none
  | step :: rest => some ⟨w.chain, w.link + 1, step, rest⟩

/-- The heads of some chains. -/
def heads (chains : List (Chain (Step α))) : List (Waiting α) :=
  chains.zipIdx.map fun (c, i) ↦ ⟨i, 0, c.head, c.links⟩

end Waiting

/-- Adds a waiting step unless it is there already. -/
def addWaiting (w : Waiting α) (ws : List (Waiting α)) : List (Waiting α) :=
  if ws.any w.same then ws else ws ++ [w]

/-- The steps that wait for other nodes, by where these nodes stand. -/
structure Pending (α : Type) where
  descendants : List (Waiting α)
  children : List (Waiting α)
  nextSibling : List (Waiting α)
  laterSiblings : List (Waiting α)

namespace Pending

/-- No step waits. -/
def none : Pending α := ⟨[], [], [], []⟩

/-- Lets a step wait where its combinator says; without one it waits for descendants. -/
def add (p : Pending α) (w : Waiting α) : Pending α :=
  match w.step.combinator with
  | .none | some .descendant => { p with descendants := addWaiting w p.descendants }
  | some .child => { p with children := addWaiting w p.children }
  | some .nextSibling => { p with nextSibling := addWaiting w p.nextSibling }
  | some .laterSibling => { p with laterSiblings := addWaiting w p.laterSiblings }

/-- The steps to try at every child. -/
def below (p : Pending α) : List (Waiting α) := p.descendants ++ p.children

/-- The steps to try at the next sibling. -/
def beside (p : Pending α) : List (Waiting α) := p.laterSiblings ++ p.nextSibling

end Pending

/-- Whether a step goes on waiting after it was tried. -/
def Waiting.stays (w : Waiting α) : Bool :=
  w.step.combinator == some .descendant || w.step.combinator == some .laterSibling

/-- What trying steps at a node gives. -/
structure Trial (α : Type) where
  pending : Pending α
  found : Bool
  visits : Nat

/-- What a search of a subtree gives: the nodes found, in document order, the number of nodes
visited, and the steps that wait for siblings of its root. -/
structure Hits (α : Type) where
  found : List (Place α)
  visits : Nat
  beside : List (Waiting α)

/-- A search: the chains to find, whether the first node is enough, and the setting of tests at
the root. -/
structure Search (α : Type) where
  chains : List (Chain (Step α))
  firstOnly : Bool
  scope : List Path
  maxDepth : Nat

namespace Search

variable (s : Search α)

/-- The setting of tests at a depth. -/
def setting (depth : Nat) : Setting := ⟨s.scope, depth, s.maxDepth, false, false⟩

/-- What a trial gives after one more step was tried. -/
def record (w : Waiting α) (v : Verdict) (t : Trial α) : Trial α :=
  let pending := if v.holds then (w.next?.elim t.pending t.pending.add) else t.pending
  ⟨if w.stays then pending.add w else pending, t.found || (v.holds && w.rest.isEmpty),
    t.visits + v.visits⟩

/-- Tries steps at a node, in order. -/
def tryAll (setting : Setting) (place : Place α) (position : Option Position) :
    List (Waiting α) → Trial α → Except MatchError (Trial α)
  | [], t => .ok t
  | w :: ws, t =>
    if s.firstOnly && t.found then .ok t
    else do
      let v ← w.step.test setting place position
      tryAll setting place position ws (record w v t)

/-- Tries the steps that wait for a node, and the heads of all chains. -/
def trial (depth : Nat) (place : Place α) (position : Option Position)
    (waiting : List (Waiting α)) : Except MatchError (Trial α) :=
  s.tryAll (s.setting depth) place position (waiting ++ Waiting.heads s.chains)
    ⟨.none, false, 1⟩

/-- Whether a search is over once it has found some nodes. -/
def isOver (found : List (Place α)) : Bool := s.firstOnly && !found.isEmpty

variable [Element α]

mutual
/-- Searches a subtree from its root, where some steps wait. -/
def visit (depth : Nat) (path : Path) (position : Option Position) (waiting : List (Waiting α)) :
    Tree α → Except MatchError (Hits α)
  | .leaf a => do
    let place : Place α := ⟨path, .leaf a⟩
    let t ← s.trial depth place position waiting
    return ⟨if t.found then [place] else [], t.visits, t.pending.beside⟩
  | .parent a cs => do
    let place : Place α := ⟨path, .parent a cs⟩
    let t ← s.trial depth place position waiting
    let here := if t.found then [place] else []
    if s.isOver here then return ⟨here, t.visits, t.pending.beside⟩
    else if cs.isEmpty then return ⟨here, t.visits, t.pending.beside⟩
    else if s.maxDepth ≤ depth then .error (.tooDeep s.maxDepth)
    else
      let below ← visitAll (depth + 1) path 0 (Position.all (cs.map Tree.type))
        t.pending.below [] cs
      return ⟨here ++ below.found, t.visits + below.visits, t.pending.beside⟩

/-- Searches siblings from an index on. `inherited` waits at every one of them, `carried` at the
next. -/
def visitAll (depth : Nat) (path : Path) (index : Nat) (positions : List Position)
    (inherited carried : List (Waiting α)) : List (Tree α) → Except MatchError (Hits α)
  | [] => .ok ⟨[], 0, []⟩
  | t :: ts => do
    let here ← visit depth (path ++ [index]) positions.head? (inherited ++ carried) t
    if s.isOver here.found then return ⟨here.found, here.visits, []⟩
    else
      let behind ← visitAll depth path (index + 1) positions.tail inherited here.beside ts
      return ⟨here.found ++ behind.found, here.visits + behind.visits, []⟩
end

/-- Searches a tree from its root, which has no siblings. -/
def run (root : Tree α) : Except MatchError (Hits α) := s.visit 0 [] none [] root

/-- Searches below a node that other searches have reached at a depth. -/
def runBelow (depth : Nat) (place : Place α) : Except MatchError (Hits α) :=
  match place.tree with
  | .leaf _ => .ok ⟨[], 0, []⟩
  | .parent _ cs =>
    if cs.isEmpty then .ok ⟨[], 0, []⟩
    else if s.maxDepth ≤ depth then .error (.tooDeep s.maxDepth)
    else s.visitAll (depth + 1) place.path 0 (Position.all (cs.map Tree.type)) [] [] cs

end Search

end DocSelect
