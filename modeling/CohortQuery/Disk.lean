/-!
# Files

What the program may find at a path.
-/

set_option autoImplicit false

namespace CohortQuery

inductive FileEntry where
  | absent
  | directory
  | text (content : String)
  /-- A file that is not text, with the lines in front of the first bad one. -/
  | notText (leading : String)

/-- The entries by path; relative paths are taken from the working directory. -/
abbrev Disk := String → FileEntry

def FileEntry.exists : FileEntry → Bool
  | absent => false
  | directory | text _ | notText _ => true

def FileEntry.content : FileEntry → Except String String
  | absent => .error "No such file or directory (os error 2)"
  | directory => .error "Is a directory (os error 21)"
  | notText _ => .error "stream did not contain valid UTF-8"
  | text s => .ok s

/-- The lines in front of the first one that is not text; `line` is the start of the line
at hand, reversed. -/
def leadingLines (line : List UInt8) : List UInt8 → String
  | [] => ""
  | b :: rest =>
    if b = 10 then
      match String.fromUTF8? ⟨(b :: line).reverse.toArray⟩ with
      | some s => s ++ leadingLines [] rest
      | none => ""
    else leadingLines (b :: line) rest

def FileEntry.ofBytes (bytes : ByteArray) : FileEntry :=
  match String.fromUTF8? bytes with
  | some s => .text s
  | none => .notText (leadingLines [] bytes.toList)

end CohortQuery
