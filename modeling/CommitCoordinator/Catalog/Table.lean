import CommitCoordinator.Data.Record

/-!
# Catalog tables

A table has a name, an identifier that stays when data is added, and a root directory below
which each partition has a directory of its own.
-/

namespace CommitCoordinator

open Data

/-- A table as the catalog describes it. -/
structure Table where
  id : String
  name : String
  path : String
  schema : String
deriving DecidableEq, Repr

namespace Table

/-- Describes a new table whose identifier is made of a fresh one. -/
def create (fresh : Uuid) (name path : String) : Table :=
  ⟨"table_" ++ fresh.simple, name, path, ""⟩

def fields : Fields [String, String, String, String] :=
  .cons (.required "table_id" .text) <|
  .cons (.required "table_name" .text) <|
  .cons (.required "table_path" .text) <|
  .cons (.defaulted "table_schema" .text "") .nil

def codec : Codec Table :=
  .record ⟨recordTitle "TableInfo", fields, false⟩
    (fun t ↦ (t.id, t.name, t.path, t.schema, ()))
    (fun (id, name, path, schema, ()) ↦ ⟨id, name, path, schema⟩)

end Table

end CommitCoordinator
