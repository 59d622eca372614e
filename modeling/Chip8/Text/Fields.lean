/-!
# Text of named fields

A named value with numbered fields is written as its name and the fields in braces,
`Name { a: 1, b: 2 }`; a name without fields stands alone.
-/

namespace Chip8

namespace Fields

/-- One field: its name, a colon and its decimal value. -/
def field (f : String × Nat) : String :=
  f.1 ++ ": " ++ toString f.2

/-- A name followed by its fields in braces, or the name alone if it has none. -/
def text (name : String) (fields : List (String × Nat)) : String :=
  if fields.isEmpty then name
  else name ++ " \x7b " ++ ", ".intercalate (fields.map field) ++ " \x7d"

end Fields

end Chip8
