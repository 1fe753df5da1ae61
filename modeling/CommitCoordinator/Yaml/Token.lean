/-!
# YAML tokens

Tokens make the structure of a text explicit: what indentation, marks and colons say becomes the
start and the end of sequences and mappings, and a mark before each key and each value.
-/

namespace CommitCoordinator.Yaml

/-- How a scalar is written. -/
inductive ScalarForm where
  | plain
  | singleQuoted
  | doubleQuoted
  | literal
  | folded
deriving DecidableEq, Repr

/-- A piece of the text: the structure of nested collections made explicit by marks. -/
inductive Token where
  | version (major minor : Nat)
  /-- A handle and what it stands for in tags. -/
  | tagHandle (handle stem : String)
  | documentStart
  | documentEnd
  | textEnd
  | sequenceStart
  | mappingStart
  /-- The end of a sequence or mapping that is told by indentation. -/
  | blockEnd
  | flowSequenceStart
  | flowSequenceEnd
  | flowMappingStart
  | flowMappingEnd
  /-- The dash before an item. -/
  | dash
  /-- The comma between items or members. -/
  | comma
  | key
  | value
  | alias (name : String)
  | anchor (name : String)
  | tag (handle suffix : String)
  | scalar (text : String) (form : ScalarForm)
deriving DecidableEq, Repr

end CommitCoordinator.Yaml
