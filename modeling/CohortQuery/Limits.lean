/-!
# Limits

The sizes beyond which a definition or a query is refused or cut.
-/

set_option autoImplicit false

namespace CohortQuery.Limits

def depth : Nat := 10

def membersPerGroup : Nat := 50

def leavesPerDefinition : Nat := 200

def definitionBytes : Nat := 65536

def windowDays : Nat := 3650

def discoveryDays : Nat := 30

def discoveredNames : Nat := 1000

def listedEvents : Nat := 1000

def topEvents : Nat := 100

def cohortMembers : Nat := 100000

end CohortQuery.Limits
