import DocSelect.Run.RunError

/-!
# What a run reads

Input comes from standard input and from files. Standard input is named by a hyphen and read
once; without any path it is all that is read. Reading stops at the first failure.
-/

namespace DocSelect

/-- The inputs that can be read. -/
structure Sources where
  stdin : Except SystemFailure String
  file : String → Except SystemFailure String

namespace Sources

/-- What is found behind an input. -/
def answer (s : Sources) : Input → Except SystemFailure String
  | .stdin => s.stdin
  | .file path => s.file path

/-- The contents of an input. -/
def read (s : Sources) (input : Input) : Except RunError String :=
  (s.answer input).mapError (.fileRead input)

/-- The inputs behind some paths, where standard input may have been named before. -/
def inputsAfter (seen : Bool) : List String → List Input
  | [] => []
  | path :: rest =>
    if path = "-" then
      if seen then inputsAfter true rest else .stdin :: inputsAfter true rest
    else .file path :: inputsAfter seen rest

/-- The inputs that some paths name. -/
def inputs (paths : List String) : List Input :=
  if paths.isEmpty then [.stdin] else inputsAfter false paths

/-- The contents of some inputs, each with its input, by a way to read one. -/
def readInputs {m : Type → Type} [Monad m] (readInput : Input → m String) :
    List Input → m (List (Input × String))
  | [] => return []
  | input :: rest => do
    let contents ← readInput input
    return (input, contents) :: (← readInputs readInput rest)

/-- The contents of the inputs that some paths name, each with its input. -/
def readEach (s : Sources) (paths : List String) : Except RunError (List (Input × String)) :=
  readInputs s.read (inputs paths)

/-- The contents of the inputs that some paths name as one text. Contents of named inputs end in
a line end. -/
def joined (paths : List String) (each : List (Input × String)) : String :=
  let ending := if paths.isEmpty then "" else "\n"
  String.join (each.map fun (_, contents) ↦ contents ++ ending)

/-- Reads the inputs that some paths name as one text. -/
def readAll (s : Sources) (paths : List String) : Except RunError String := do
  return joined paths (← s.readEach paths)

end Sources

end DocSelect
