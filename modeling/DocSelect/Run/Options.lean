import DocSelect.Query.Matcher

/-!
# Options of a run

A run reads documents in one format, does one thing with the nodes that a selector matches, and
writes the results in one format.
-/

namespace DocSelect

/-- How input is read. -/
inductive InputFormat where
  | markdown
  | json
deriving DecidableEq, Repr, Inhabited

namespace InputFormat

/-- The name of a format. -/
def name : InputFormat → String
  | markdown => "markdown"
  | json => "json"

/-- The format with a name. -/
def ofName? (s : String) : Option InputFormat := [markdown, json].find? (·.name == s)

end InputFormat

/-- What is done with the nodes that match. -/
inductive Mode where
  /-- All of them are results. -/
  | all
  /-- The first of them is the result. -/
  | first
  /-- The results are the trees without them. -/
  | reject
  /-- The results are the trees with nothing else. -/
  | filter
  /-- Nothing is read, and the selector itself is written. -/
  | render
deriving DecidableEq, Repr, Inhabited

namespace Mode

/-- The name of a mode. -/
def name : Mode → String
  | all => "all"
  | first => "first"
  | reject => "reject"
  | filter => "filter"
  | render => "render"

/-- The mode with a name. -/
def ofName? (s : String) : Option Mode :=
  [all, first, reject, filter, render].find? (·.name == s)

/-- Whether a mode prunes trees. -/
def prunes (m : Mode) : Bool := m == reject || m == filter

end Mode

/-- How results are written. -/
inductive OutputFormat where
  /-- One array of nodes. -/
  | json
  /-- The text of each node on a line. -/
  | text
  /-- The type of each node on a line. -/
  | type
deriving DecidableEq, Repr, Inhabited

namespace OutputFormat

/-- The name of a format. -/
def name : OutputFormat → String
  | json => "json"
  | text => "text"
  | type => "type"

/-- The format with a name. -/
def ofName? (s : String) : Option OutputFormat := [json, text, type].find? (·.name == s)

end OutputFormat

/-- The options of a run. -/
structure RunOptions where
  input : InputFormat
  mode : Mode
  output : OutputFormat
  maxDepth : Nat
  /-- Bindings of variables, each written as a name, an equals sign and a value. -/
  bindings : List String
  /-- Nothing is written. -/
  quiet : Bool
  /-- Pruning removes parents that have lost all of their children. -/
  cascade : Bool
  selector : String
  paths : List String
deriving DecidableEq, Repr

namespace RunOptions

/-- The options that hold unless the caller says otherwise. -/
def default : RunOptions :=
  ⟨.markdown, .all, .json, QueryOptions.defaultMaxDepth, [], false, true, "", []⟩

/-- The options that hold by default. -/
instance : Inhabited RunOptions := ⟨default⟩

/-- A binding split at its first equals sign. -/
def splitBinding? (binding : String) : Option (String × String) :=
  let cs := binding.toList
  match cs.dropWhile (· != '=') with
  | _ :: value => some (String.ofList (cs.takeWhile (· != '=')), String.ofList value)
  | [] => none

/-- The names and values that are bound; a binding without an equals sign binds nothing. -/
def pairs (o : RunOptions) : List (String × String) := o.bindings.filterMap splitBinding?

/-- The dialect of the selector: variables may be written if there are bindings. -/
def dialect (o : RunOptions) : Dialect :=
  Dialect.document.withVariables (!o.bindings.isEmpty)

/-- The options of the query. -/
def queryOptions {α : Type} (o : RunOptions) : QueryOptions α :=
  o.pairs.foldl (fun q (name, value) ↦ q.bind name value)
    (QueryOptions.default.withMaxDepth o.maxDepth)

end RunOptions

end DocSelect
