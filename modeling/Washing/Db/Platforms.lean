import Washing.Db.Models

/-!
# Platforms

The `platforms` table, next to the tables of `Database`. The `extra` column is kept as its JSON text; `none` is the JSON
value `null`, which the column can hold although it is not nullable.
-/

namespace Washing

structure Platform where
  id : Nat
  name : String
  description : Option String
  extra : Option String
  deriving DecidableEq, Repr

instance : Row Platform := ⟨Platform.id⟩

/-- All committed rows. -/
structure Store extends Database where
  platforms : List Platform
  deriving DecidableEq, Repr

end Washing
