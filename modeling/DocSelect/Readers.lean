import DocSelect.Readers.Json
import DocSelect.Readers.Markdown.Document
import DocSelect.Run.Basic

/-!
# The readers of the program

A run takes the readers of its inputs from outside, and what is known about runs holds for all
readers. The program uses these two. Like the command line they belong to the outer layer: they
read JSON and Markdown as texts, and no result depends on how they do it.
-/

namespace DocSelect

/-- The readers that the program uses. -/
def Readers.standard : Readers where
  markdown text := .ok (Markdown.read text).toNode
  json := Json.readDraft Node.maxNesting

end DocSelect
