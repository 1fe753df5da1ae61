import CommitCoordinator.Data.Codec
import CommitCoordinator.Yaml.Layout
import CommitCoordinator.Yaml.Reference

/-!
# Reading YAML

A text is read as the type of its first document, which has to be the only one. The problem that
comes first in the text counts, be it one of the text or one of the data.
-/

namespace CommitCoordinator.Yaml

open Data

/-- The words of YAML in messages. -/
def wording : Wording where
  malformed := "<malformed YAML>"
  null := "unit value"
  showsPlace := true

/-- Reads a value of a type. The values of other names at the top than the wanted ones
are passed over. -/
def decodeText {α : Type} (codec : Codec α) (wanted : List String) (text : String) :
    Except Complaint α := do
  let (root, isWhole) := documentOf (tokens text.toList)
  let decoded ← codec.decode (valueOf wanted.contains root)
  if isWhole then return decoded else complain .malformed

def describe (complaint : Complaint) : String :=
  complaint.message wording

end CommitCoordinator.Yaml
