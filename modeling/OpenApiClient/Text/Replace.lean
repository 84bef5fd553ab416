/-!
Replacing every occurrence of a pattern, from left to right and without overlap.
-/

namespace OpenApiClient.Text

-- `skip` counts the characters that still belong to the occurrence replaced last.
def replaceFrom (pattern replacement : List Char) (skip : Nat) : List Char → List Char
  | [] => []
  | c :: rest =>
    match skip with
    | k + 1 => replaceFrom pattern replacement k rest
    | 0 =>
      if pattern.isPrefixOf (c :: rest) then
        replacement ++ replaceFrom pattern replacement (pattern.length - 1) rest
      else
        c :: replaceFrom pattern replacement 0 rest

-- `s` with `replacement` for each occurrence of the non-empty `pattern`.
def replaceAll (pattern replacement s : List Char) : List Char :=
  replaceFrom pattern replacement 0 s

end OpenApiClient.Text
