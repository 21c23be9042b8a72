/-!
# Verbatim string literals

A verbatim literal is the text between `@"` and `"`. Inside it a quote is written twice and every
other character, line breaks and backslashes included, stands for itself.
-/

namespace BuildConstants.Text.Quoted

/-- The body of the literal: every quote is written twice. -/
def encode : List Char → List Char
  | [] => []
  | c :: rest => if c = '"' then '"' :: '"' :: encode rest else c :: encode rest

/-- The verbatim literal of a text. -/
def literal (s : String) : String :=
  "@\"" ++ String.ofList (encode s.toList) ++ "\""

end BuildConstants.Text.Quoted
