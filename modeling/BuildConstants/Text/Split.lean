/-!
# Cutting, joining and replacing

Operations on text as a list of characters: the parts between separators, the text before and after
the first occurrence of a character, and the replacement of a pattern from left to right.
-/

namespace BuildConstants.Text

/-- The text before and after the first `mark`, or nothing when there is none. -/
def splitFirst (mark : Char) : List Char → Option (List Char × List Char)
  | [] => none
  | c :: rest =>
    if c = mark then some ([], rest)
    else (splitFirst mark rest).map fun (before, after) => (c :: before, after)

/-- The parts of a text between the separators: one more than there are separators. -/
def parts (separator : Char) (s : String) : List String :=
  (s.toList.splitOn separator).map String.ofList

/-- Joins texts with a separator between each two. -/
def joinWith (separator : String) (texts : List String) : String :=
  separator.intercalate texts

/-- Replaces the occurrences of `pattern` from left to right; `skip` characters of the occurrence
replaced last are still to be dropped. Occurrences do not overlap, and the replacement is not
searched again. -/
def replaceFrom (pattern replacement : List Char) : Nat → List Char → List Char
  | _, [] => []
  | skip + 1, _ :: rest => replaceFrom pattern replacement skip rest
  | 0, c :: rest =>
    if pattern.isPrefixOf (c :: rest) then
      replacement ++ replaceFrom pattern replacement (pattern.length - 1) rest
    else c :: replaceFrom pattern replacement 0 rest

/-- Replaces every occurrence of a non-empty `pattern` by `replacement`. -/
def replace (pattern replacement s : String) : String :=
  String.ofList (replaceFrom pattern.toList replacement.toList 0 s.toList)

end BuildConstants.Text
