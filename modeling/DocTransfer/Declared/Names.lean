import DocTransfer.Text.Blank

/-! # Names in the order in which they turn up -/

namespace DocTransfer.Declared

/-- Adds a name, trimmed, unless it is blank or there already. -/
def add (found : List String) (name : List Char) : List String :=
  let name := String.ofList (Text.trim name)
  if name.isEmpty || found.contains name then found else found ++ [name]

/-- Adds a name if there is one. -/
def addSome (found : List String) : Option (List Char) → List String
  | some name => add found name
  | none => found

end DocTransfer.Declared
