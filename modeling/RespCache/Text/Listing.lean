/-!
Layout of values that hold others: all on one line, or one part on each line.
-/

namespace RespCache.Text

inductive Layout where
  | inline
  | lines

def listing (layout : Layout) (items : List String) : String :=
  match layout, items with
  | _, [] => "[]"
  | .inline, items => "[" ++ String.intercalate ", " items ++ "]"
  | .lines, items => "[\n" ++ String.join (items.map fun i => "    " ++ i ++ ",\n") ++ "]"

/-- Named fields in braces, after the name of what they describe. Two dots say that not every field
is shown. -/
def summary (layout : Layout) (name : String) (fields : List (String × Nat)) : String :=
  let shown := fields.map fun f => f.1 ++ ": " ++ toString f.2 ++ ","
  match layout with
  | .inline => name ++ " \x7b " ++ String.join (shown.map (· ++ " ")) ++ ".. \x7d"
  | .lines =>
    name ++ " \x7b\n" ++ String.join (shown.map fun f => "    " ++ f ++ "\n") ++ "    ..\n\x7d"

end RespCache.Text
