import DocSelect.Run.Options

/-!
# Command line arguments

Arguments are flags, options with values, and positionals: the selector and then any number of
paths. Short flags can be joined, a value can be joined to its option with or without an equals
sign, and two hyphens end the options. The first problem in the order of the arguments is
reported; a value that stands apart is looked at when the next known argument comes.
-/

namespace DocSelect

/-- Why arguments are not options of a run, or what they ask for instead of one. -/
inductive ArgumentError where
  /-- A value is missing, or is none of the names allowed. -/
  | invalidValue
  /-- A value is not a number of 64 bits. -/
  | valueValidation
  | unknownArgument
  /-- An option or flag that must not be repeated was. -/
  | argumentConflict
  /-- A value was joined to a flag. -/
  | tooManyValues
  | missingRequiredArgument
  | displayHelp
  | displayVersion
deriving DecidableEq, Repr, Inhabited

/-- The options that take a value. -/
inductive ValueOption where
  | input
  | mode
  | output
  | maxDepth
  | binding
deriving DecidableEq, Repr, Inhabited

/-- The flags. -/
inductive Flag where
  | quiet
  | noCascade
  | help
  | version
deriving DecidableEq, Repr, Inhabited

/-- The options and flags by their long names. -/
def longArgument? : String → Option (ValueOption ⊕ Flag)
  | "input" => some (.inl .input)
  | "mode" => some (.inl .mode)
  | "output" => some (.inl .output)
  | "max-depth" => some (.inl .maxDepth)
  | "var" => some (.inl .binding)
  | "quiet" => some (.inr .quiet)
  | "no-cascade" => some (.inr .noCascade)
  | "help" => some (.inr .help)
  | "version" => some (.inr .version)
  | _ => none

/-- The options and flags by their letters. -/
def shortArgument? : Char → Option (ValueOption ⊕ Flag)
  | 'i' => some (.inl .input)
  | 'm' => some (.inl .mode)
  | 'o' => some (.inl .output)
  | 'q' => some (.inr .quiet)
  | 'h' => some (.inr .help)
  | 'V' => some (.inr .version)
  | _ => none

/-- The arguments understood so far. -/
structure Arguments where
  input : Option InputFormat
  mode : Option Mode
  output : Option OutputFormat
  maxDepth : Option Nat
  bindings : List String
  quiet : Bool
  noCascade : Bool
  selector : Option String
  paths : List String
  /-- An option whose value stands apart, and that value once it has come. -/
  pending : Option (ValueOption × Option String)
  /-- Nothing but positionals may follow. -/
  positionalsOnly : Bool
deriving DecidableEq, Repr

namespace Arguments

/-- Nothing understood yet. -/
def empty : Arguments := ⟨none, none, none, none, [], false, false, none, [], none, false⟩

/-- The first number that does not fit 64 bits. -/
def numberLimit : Nat := 0x10000000000000000

/-- A number of 64 bits, with an optional plus sign. -/
def number? (s : String) : Option Nat :=
  let digits := match s.toList with
    | '+' :: cs => cs
    | cs => cs
  let n := Nat.ofDigitChars 10 digits 0
  if !digits.isEmpty && digits.all Char.isDigit && n < numberLimit then some n else none

/-- Sets what must not be set twice. -/
def setOnce {α : Type} (old new : Option α) (problem : ArgumentError) :
    Except ArgumentError (Option α) :=
  if old.isSome then .error .argumentConflict
  else new.elim (.error problem) fun a ↦ .ok (some a)

/-- Gives an option its value. -/
def setValue (a : Arguments) (option : ValueOption) (value : String) :
    Except ArgumentError Arguments :=
  match option with
  | .input => do
    return { a with input := ← setOnce a.input (InputFormat.ofName? value) .invalidValue }
  | .mode => do return { a with mode := ← setOnce a.mode (Mode.ofName? value) .invalidValue }
  | .output => do
    return { a with output := ← setOnce a.output (OutputFormat.ofName? value) .invalidValue }
  | .maxDepth => do
    return { a with maxDepth := ← setOnce a.maxDepth (number? value) .valueValidation }
  | .binding => .ok { a with bindings := a.bindings ++ [value] }

/-- Looks at the value of an option whose value stands apart. -/
def resolve (a : Arguments) : Except ArgumentError Arguments :=
  match a.pending with
  | none => .ok a
  | some (_, none) => .error .invalidValue
  | some (option, some value) => { a with pending := none }.setValue option value

/-- Takes an option with the value joined to it, if there is one. -/
def takeOption (a : Arguments) (option : ValueOption) (value : Option String) :
    Except ArgumentError Arguments := do
  let a ← a.resolve
  match value with
  | some value => a.setValue option value
  | none => return { a with pending := some (option, none) }

/-- Takes a flag. -/
def takeFlag (a : Arguments) (flag : Flag) : Except ArgumentError Arguments := do
  let a ← a.resolve
  match flag with
  | .quiet => if a.quiet then .error .argumentConflict else return { a with quiet := true }
  | .noCascade =>
    if a.noCascade then .error .argumentConflict else return { a with noCascade := true }
  | .help => .error .displayHelp
  | .version => .error .displayVersion

/-- Takes a positional. -/
def takePositional (a : Arguments) (value : String) : Except ArgumentError Arguments := do
  let a ← a.resolve
  match a.selector with
  | none => return { a with selector := some value }
  | some _ => return { a with paths := a.paths ++ [value] }

/-- Takes an argument from behind its two hyphens. -/
def takeLong (a : Arguments) (cs : List Char) : Except ArgumentError Arguments :=
  let name := String.ofList (cs.takeWhile (· != '='))
  let value := match cs.dropWhile (· != '=') with
    | _ :: value => some (String.ofList value)
    | [] => none
  match longArgument? name, value with
  | none, _ => .error .unknownArgument
  | some (.inl option), value => a.takeOption option value
  | some (.inr _), some _ => .error .tooManyValues
  | some (.inr flag), none => a.takeFlag flag

/-- The value joined to a letter, if there is one. -/
def joinedValue (cs : List Char) : Option String :=
  match cs with
  | [] => none
  | '=' :: value => some (String.ofList value)
  | value => some (String.ofList value)

/-- Takes joined letters. -/
def takeShort (a : Arguments) : List Char → Except ArgumentError Arguments
  | [] => .ok a
  | c :: cs =>
    match shortArgument? c with
    | none => .error .unknownArgument
    | some (.inl option) => a.takeOption option (joinedValue cs)
    | some (.inr flag) => do (← a.takeFlag flag).takeShort cs

/-- Takes an argument that is no flag and no option. -/
def takeValue (a : Arguments) (value : String) : Except ArgumentError Arguments :=
  match a.pending with
  | some (option, none) => .ok { a with pending := some (option, some value) }
  | _ => a.takePositional value

/-- Takes one argument. -/
def take (a : Arguments) (arg : String) : Except ArgumentError Arguments :=
  if a.positionalsOnly then a.takePositional arg
  else
    match arg.toList with
    | ['-', '-'] => .ok { a with positionalsOnly := true }
    | '-' :: '-' :: cs => a.takeLong cs
    | '-' :: c :: cs => a.takeShort (c :: cs)
    | _ => a.takeValue arg

/-- Understands arguments. A selector has to be among them. -/
def parse (args : List String) : Except ArgumentError Arguments := do
  let a ← args.foldlM take empty
  let a ← a.resolve
  if a.selector.isSome then return a else .error .missingRequiredArgument

/-- The options that arguments stand for. -/
def toOptions (a : Arguments) : RunOptions where
  input := a.input.getD .markdown
  mode := a.mode.getD .all
  output := a.output.getD .json
  maxDepth := a.maxDepth.getD QueryOptions.defaultMaxDepth
  bindings := a.bindings
  quiet := a.quiet
  cascade := !a.noCascade
  selector := a.selector.getD ""
  paths := a.paths

/-- Why arguments that are understood do not go together, if they do not: cascading is only for
modes that prune, and bindings need an equals sign. -/
def conflict? (a : Arguments) : Option String :=
  let mode := a.mode.getD .all
  if a.noCascade && !mode.prunes then
    some ("--no-cascade can't be used with --mode " ++ mode.name)
  else
    (a.bindings.find? fun binding ↦ (RunOptions.splitBinding? binding).isNone).map fun binding ↦
      "invalid --var " ++ Text.quoted binding ++ "; expected NAME=VALUE"

/-- Whether arguments go together. -/
def isValid (a : Arguments) : Bool := a.conflict?.isNone

end Arguments

end DocSelect
