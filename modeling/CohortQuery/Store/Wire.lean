import CohortQuery.Settings.Basic
import CohortQuery.Store.Exchange
import CohortQuery.Store.Template

/-!
# Requests on the wire

Beside its text a request carries named options: those of the client and one for each
value. Names are sorted. Texts are escaped by backslashes, numbers are plain decimals.
-/

set_option autoImplicit false

namespace CohortQuery.Store

open CohortQuery.Text (numeral signedNumeral)

def valueText : Value → String
  | .text s | .uuid s | .time s => Template.escapeText s
  | .word n => numeral n
  | .integer i => signedNumeral i
  | .real x => x.plain

def insertOption (option : String × String) : List (String × String) → List (String × String)
  | [] => [option]
  | o :: rest => if option.1 < o.1 then option :: o :: rest else o :: insertOption option rest

def sortOptions (options : List (String × String)) : List (String × String) :=
  options.foldr insertOption []

structure WireRequest where
  sql : String
  options : List (String × String)
  user : Option String
  password : Option String
  deriving DecidableEq, Repr

def Request.options (database : String) (r : Request) : List (String × String) :=
  [("compress", "1"), ("database", database),
    ("do_not_merge_across_partitions_select_final", "1")] ++
  (if r.fetches then [("default_format", "RowBinaryWithNamesAndTypes")] else []) ++
  r.params.map fun (name, v) => ("param_" ++ name, valueText v)

def Request.onWire (settings : Settings.Store) (r : Request) : WireRequest where
  sql := r.sql
  options := sortOptions (r.options settings.database)
  user := settings.user
  password := settings.password

end CohortQuery.Store
