import Washing.Db.Models

/-!
# Shared helpers of the routes
-/

namespace Washing

/-- An error answered to a client. -/
structure HttpException where
  statusCode : Nat
  detail : String
  deriving DecidableEq, Repr

/-- Return a database row or raise a 404 HTTP error. -/
def getOr404 {α : Type} [Row α] (rows : List α) (id : Nat) (detail : String) : Except HttpException α :=
  match Table.get rows id with
  | none => .error ⟨404, detail⟩
  | some row => .ok row

/-- `Counter(values)`, in the order of first occurrence. -/
def counter {α : Type} [DecidableEq α] (values : List α) : List (α × Nat) :=
  values.eraseDups.map fun v => (v, values.count v)

/-- Simple offset/limit paginated response payload. -/
structure PaginatedResponse (α : Type) where
  items : List α
  offset : Nat
  limit : Nat
  total : Nat

/-- Paginate a query with a stable ordering. -/
def paginateQuery {α : Type} (query : List α) (le : α → α → Prop) [DecidableRel le] (offset limit : Nat) :
    PaginatedResponse α where
  items := ((orderBy le query).drop offset).take limit
  offset := offset
  limit := limit
  total := query.length

/-- Serialize the rows of a page: one row that its read model refuses fails the whole page. -/
def PaginatedResponse.serialize {α β : Type} (serialize : α → Except HttpException β) (page : PaginatedResponse α) :
    Except HttpException (PaginatedResponse β) := do
  let items ← page.items.mapM serialize
  return ⟨items, page.offset, page.limit, page.total⟩

end Washing
