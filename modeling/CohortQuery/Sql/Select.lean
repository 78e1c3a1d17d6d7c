import CohortQuery.Text.Join

/-!
# Select statements in clauses

A statement is gathered clause by clause and written once. Each clause keeps its parts in
the order in which they came; the order of the clauses is fixed.
-/

set_option autoImplicit false

namespace CohortQuery.Sql

structure Select where
  isDistinct : Bool
  columns : List String
  source : String
  conditions : List String
  groups : List String
  groupConditions : List String
  order : List String
  limit : Option String
  offset : Option String

namespace Select

def of (source : String) : Select :=
  ⟨false, [], source, [], [], [], [], none, none⟩

def distinct (q : Select) : Select := { q with isDistinct := true }

def column (q : Select) (e : String) : Select := { q with columns := q.columns ++ [e] }

def columnAs (q : Select) (e label : String) : Select := q.column (e ++ " AS " ++ label)

def filter (q : Select) (e : String) : Select := { q with conditions := q.conditions ++ [e] }

def filters (q : Select) (es : List String) : Select :=
  { q with conditions := q.conditions ++ es }

def groupBy (q : Select) (e : String) : Select := { q with groups := q.groups ++ [e] }

def having (q : Select) (e : String) : Select :=
  { q with groupConditions := q.groupConditions ++ [e] }

def orderBy (q : Select) (e : String) : Select := { q with order := q.order ++ [e] }

def limitTo (q : Select) (e : String) : Select := { q with limit := some e }

def offsetBy (q : Select) (e : String) : Select := { q with offset := some e }

def conjunction (es : List String) : String :=
  Text.join " AND " es

def clause (word : String) (render : List String → String) (es : List String) : String :=
  if es.isEmpty then "" else word ++ render es

def optionClause (word : String) : Option String → String
  | none => ""
  | some e => word ++ e

def listed (es : List String) : String :=
  Text.join ", " es

def render (q : Select) : String :=
  "SELECT " ++ (if q.isDistinct then "DISTINCT " else "") ++
    (if q.columns.isEmpty then "*" else listed q.columns) ++
    " FROM " ++ q.source ++
    clause " WHERE " conjunction q.conditions ++
    clause " GROUP BY " listed q.groups ++
    clause " HAVING " conjunction q.groupConditions ++
    clause " ORDER BY " listed q.order ++
    optionClause " LIMIT " q.limit ++
    optionClause " OFFSET " q.offset

end Select

end CohortQuery.Sql
