import DocSelect.Query.Prune
import DocSelect.Run.Options
import DocSelect.Run.Program
import DocSelect.Run.Sources

/-!
# Runs

A run reads its selector, then its inputs, then searches or prunes every tree, and writes when
all of that has gone well. An error ends it and is reported.
-/

namespace DocSelect

/-- How the texts of inputs are read. -/
structure Readers where
  /-- The tree of a Markdown document, or what is wrong with it. -/
  markdown : String → Except String Node
  /-- What a JSON text is up to its first fault, and the fault behind it. -/
  json : String → Draft × Option Fault

/-- What a run is given: its inputs, readers of their texts, and the failure that every attempt to
write meets, if it does. -/
structure Environment where
  sources : Sources
  readers : Readers
  writeFailure : Option SystemFailure

/-- The system of an environment, which gives the same answers each time. -/
def Environment.system (env : Environment) : System Unit where
  read input _ := (env.sources.answer input, ())
  write _ _ := (env.writeFailure.elim (.ok ()) .error, ())
  report _ _ := ()

/-- What a run leaves: whether anything matched, what was written, and the error reported. -/
structure RunOutcome where
  found : Bool
  output : String
  error : Option RunError
deriving DecidableEq, Repr

/-- What a selector turns out to ask for. -/
inductive Task where
  /-- The text of the selector. -/
  | render (text : String)
  | search (query : Query Content)

/-- The nodes that a run writes, and whether anything matched. -/
structure Results where
  found : Bool
  nodes : List Node

namespace Results

/-- Nothing matched, nothing to write. -/
def none : Results := ⟨false, []⟩

/-- The results of two parts of the input, one after the other. -/
def append (a b : Results) : Results := ⟨a.found || b.found, a.nodes ++ b.nodes⟩

/-- Nodes that were found. -/
def ofNodes (nodes : List Node) : Results := ⟨!nodes.isEmpty, nodes⟩

end Results

namespace RunOptions

/-- Reads the selector and finds out what it asks for. -/
def task (o : RunOptions) : Except RunError Task := do
  let selector ← (Selector.parse o.dialect o.selector).mapError (.queryParse o.selector)
  if o.mode = .render then return .render selector.render
  else
    let query ← (Query.ofSelector o.queryOptions selector).mapError .query
    return .search query

/-- The trees of some inputs in JSON, or the first problem. -/
def jsonRoots (readers : Readers) : List (Input × String) → Except RunError (List Node)
  | [] => .ok []
  | (input, contents) :: rest => do
    let node ← (Node.ofReading (readers.json contents)).mapError (.jsonParse input)
    return node :: (← jsonRoots readers rest)

/-- The trees to search in what was read. Markdown inputs are one document, JSON inputs a tree
each. -/
def roots (o : RunOptions) (readers : Readers) (contents : List (Input × String)) :
    Except RunError (List Node) :=
  match o.input with
  | .markdown => do
    return [← (readers.markdown (Sources.joined o.paths contents)).mapError .markdownParse]
  | .json => jsonRoots readers contents

/-- The results of all trees, or of those up to the first one that has any. -/
def collect (untilFound : Bool) (f : Node → Except RunError Results) :
    List Node → Except RunError Results
  | [] => .ok .none
  | root :: rest => do
    let here ← f root
    if untilFound && here.found then return here
    else return here.append (← collect untilFound f rest)

/-- The results of one tree. -/
def search (o : RunOptions) (q : Query Content) (root : Node) : Except RunError Results :=
  let pruned (f : Query Content → Bool → Node → Except MatchError (Option Node)) :
      Except RunError Results := do
    let first ← (q.findFirst root).mapError .query
    let tree ← (f q o.cascade root).mapError .query
    return ⟨first.isSome, tree.toList⟩
  match o.mode with
  | .all => do return .ofNodes ((← (q.findAll root).mapError .query).map Place.tree)
  | .first => do return .ofNodes ((← (q.findFirst root).mapError .query).toList.map Place.tree)
  | .reject => pruned Query.reject
  | .filter => pruned Query.filter
  | .render => .ok ⟨true, []⟩

/-- The results of a query in some trees. One node is enough in the mode that wants the first. -/
def results (o : RunOptions) (q : Query Content) (roots : List Node) : Except RunError Results :=
  collect (o.mode == .first) (o.search q) roots

/-- The pieces of text that are written for some nodes. -/
def pieces (o : RunOptions) (nodes : List Node) : List String :=
  match o.output with
  | .json => [(Json.array (Node.toWrittenAll nodes)).write ++ "\n"]
  | .text => nodes.map fun node ↦ node.text ++ "\n"
  | .type => nodes.map fun node ↦ node.type ++ "\n"

/-- The pieces of text that a run writes: none if it is quiet. -/
def audible (o : RunOptions) (pieces : List String) : List String := if o.quiet then [] else pieces

/-- Does what the options ask for, and tells whether anything matched. -/
def attempt (o : RunOptions) (readers : Readers) : ExceptT RunError Program Bool := do
  match ← ofExcept o.task with
  | .render text =>
    Program.writeAll (o.audible [text ++ "\n"])
    return true
  | .search query =>
    let contents ← Sources.readInputs Program.readInput (Sources.inputs o.paths)
    let roots ← ofExcept (o.roots readers contents)
    let results ← ofExcept (o.results query roots)
    Program.writeAll (o.audible (o.pieces results.nodes))
    return results.found

/-- Runs, reports the error if there is one, and tells whether anything matched. -/
def perform (o : RunOptions) (readers : Readers) : Program Bool := do
  match ← (o.attempt readers).run with
  | .ok found => return found
  | .error e => .report e (return false)

/-- Runs in an environment. -/
def run (o : RunOptions) (env : Environment) : RunOutcome :=
  let t := (o.perform env.readers).exec env.system ()
  ⟨t.result, String.join t.written, t.reported.head?⟩

end RunOptions

end DocSelect
