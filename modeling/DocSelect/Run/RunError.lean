import DocSelect.Query.MatchError
import DocSelect.Selector.Diagnostic
import DocSelect.Tree.Exchange

/-!
# Errors of runs

A run fails on its selector, on an input that cannot be read or is no document, in the search,
or when it writes. Messages end in a line end.
-/

namespace DocSelect

/-- Where an input comes from. -/
inductive Input where
  | stdin
  | file (path : String)
deriving DecidableEq, Repr, Inhabited

/-- The name of an input in messages. -/
def Input.display : Input → String
  | stdin => "stdin"
  | file path => "file " ++ Text.quoted path

/-- A failure of the system: its own words, and the words for failures of its kind. -/
structure SystemFailure where
  message : String
  kind : String
deriving DecidableEq, Repr, Inhabited

/-- Why a run has failed. -/
inductive RunError where
  | queryParse (selector : String) (error : ParseError)
  | query (error : MatchError)
  | markdownParse (message : String)
  | jsonParse (input : Input) (error : TreeError)
  | fileRead (input : Input) (failure : SystemFailure)
  | output (failure : SystemFailure)
deriving DecidableEq, Repr

/-- The message of an error. Portable messages name only the kind of a failure to read. -/
def RunError.message (portable : Bool) : RunError → String
  | queryParse selector e => "Syntax error in selector:\n" ++ e.describe selector ++ "\n"
  | query e => "Couldn't run selector: " ++ e.message ++ "\n"
  | markdownParse message => "Markdown parse error:\n" ++ message ++ "\n"
  | jsonParse input e => "JSON tree error in " ++ input.display ++ ": " ++ e.message ++ "\n"
  | fileRead input failure =>
    (if portable then failure.kind else failure.message) ++ " while reading " ++ input.display
      ++ "\n"
  | output failure => failure.message ++ " while writing output\n"

end DocSelect
