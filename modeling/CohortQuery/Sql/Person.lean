import CohortQuery.Sql.Select

/-!
# Persons

A row carries the person of its distinct id at the time it came. If the id was merged
into another person later, that person counts.
-/

set_option autoImplicit false

namespace CohortQuery.Sql

def resolvedPerson : String :=
  "coalesce(dictGetOrNull('person_overrides_dict', 'person_id', (project_id, distinct_id)), " ++
    "person_id)"

def resolvedPersonName : String := "resolved_person_id"

def resolvedPersonColumn : String := resolvedPerson ++ " AS " ++ resolvedPersonName

def personCount : String := "uniq(" ++ resolvedPerson ++ ")"

end CohortQuery.Sql
