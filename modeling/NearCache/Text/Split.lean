/-!
Cutting a text at a separator.
-/

namespace NearCache

/-- The parts between the occurrences of `sep`; there is one part more than there are separators. -/
def splitOnChar (sep : Char) : List Char → List (List Char)
  | [] => [[]]
  | c :: cs =>
    match splitOnChar sep cs with
    | [] => [[c]]
    | part :: parts => if c = sep then [] :: part :: parts else (c :: part) :: parts

/-- The part before the first `sep` and the part after it, if there is one. -/
def cutAtChar? (sep : Char) : List Char → Option (List Char × List Char)
  | [] => none
  | c :: cs => if c = sep then some ([], cs) else (cutAtChar? sep cs).map fun p => (c :: p.1, p.2)

/-- The number of bytes of a text in UTF-8. -/
def utf8Length (cs : List Char) : Nat :=
  cs.foldr (fun c n => c.utf8Size + n) 0

end NearCache
