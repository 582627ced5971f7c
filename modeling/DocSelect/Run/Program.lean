import DocSelect.Run.RunError

/-!
# Programs that read and write

A program asks a system for inputs, hands it text to write and errors to report, and goes on with
the answers. A system answers as it likes, and not always the same. Executing a program leaves its
result and everything that has happened, in order.
-/

namespace DocSelect

/-- A computation that may ask a system for something before it has a result. -/
inductive Program (β : Type) where
  | done (result : β)
  | read (input : Input) (next : Except SystemFailure String → Program β)
  | write (text : String) (next : Except SystemFailure Unit → Program β)
  | report (error : RunError) (next : Program β)

/-- What answers programs. Every answer may change the state, and so the answers to come. -/
structure System (σ : Type) where
  read : Input → σ → Except SystemFailure String × σ
  write : String → σ → Except SystemFailure Unit × σ
  report : RunError → σ → σ

/-- What happens between a program and a system. -/
inductive Event where
  | read (input : Input) (answer : Except SystemFailure String)
  | write (text : String) (answer : Except SystemFailure Unit)
  | report (error : RunError)

namespace Event

/-- The input asked for, and the answer. -/
def answer? : Event → Option (Input × Except SystemFailure String)
  | read input answer => some (input, answer)
  | write _ _ | report _ => none

/-- The text that has been written. -/
def written? : Event → Option String
  | write text (.ok ()) => some text
  | write _ (.error _) | read _ _ | report _ => none

/-- The error that has been reported. -/
def reported? : Event → Option RunError
  | report e => some e
  | read _ _ | write _ _ => none

end Event

/-- What the execution of a program leaves: its result, what has happened, and the state that the
system is in. -/
structure Transcript (σ β : Type) where
  result : β
  events : List Event
  state : σ

namespace Transcript

variable {σ β : Type}

/-- A transcript with events that have happened before. -/
def after (before : List Event) (t : Transcript σ β) : Transcript σ β :=
  { t with events := before ++ t.events }

/-- The inputs asked for, each with its answer. -/
def answers (t : Transcript σ β) : List (Input × Except SystemFailure String) :=
  t.events.filterMap Event.answer?

/-- The texts that have been written. -/
def written (t : Transcript σ β) : List String := t.events.filterMap Event.written?

/-- The errors that have been reported. -/
def reported (t : Transcript σ β) : List RunError := t.events.filterMap Event.reported?

end Transcript

namespace Program

variable {σ β γ : Type}

/-- Goes on from the result of a program. -/
def bind : Program β → (β → Program γ) → Program γ
  | done b, f => f b
  | read input next, f => read input fun answer ↦ (next answer).bind f
  | write text next, f => write text fun answer ↦ (next answer).bind f
  | report e next, f => report e (next.bind f)

/-- Programs go on one behind the other. -/
instance : Monad Program where
  pure := done
  bind := bind

/-- Executes a program against a system in some state. -/
def exec (sys : System σ) : Program β → σ → Transcript σ β
  | done b, s => ⟨b, [], s⟩
  | read input next, s =>
    let (answer, s) := sys.read input s
    ((next answer).exec sys s).after [.read input answer]
  | write text next, s =>
    let (answer, s) := sys.write text s
    ((next answer).exec sys s).after [.write text answer]
  | report e next, s => (next.exec sys (sys.report e s)).after [.report e]

/-- The contents of an input. -/
def readInput (input : Input) : ExceptT RunError Program String :=
  .mk (read input fun answer ↦ done (answer.mapError (.fileRead input)))

/-- Writes a text. -/
def writeText (text : String) : ExceptT RunError Program Unit :=
  .mk (write text fun answer ↦ done (answer.mapError .output))

/-- Writes some texts, up to the first that cannot be written. -/
def writeAll : List String → ExceptT RunError Program Unit
  | [] => return ()
  | text :: rest => do
    writeText text
    writeAll rest

end Program

end DocSelect
