/-!
# Splitting at a character

There is always one part more than there are separators, so an empty text has one empty part.
-/

namespace JsonSchema.Text

def splitOn (separator : Char) : List Char → List (List Char)
  | [] => [[]]
  | c :: rest =>
    if c = separator then [] :: splitOn separator rest
    else match splitOn separator rest with
      | part :: parts => (c :: part) :: parts
      | [] => [[c]]

end JsonSchema.Text
