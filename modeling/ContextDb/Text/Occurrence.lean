/-!
# Occurrences of a text in another

Whether and how often one text occurs in another, read from the left, where
occurrences do not overlap.
-/

namespace ContextDb.Text

/-- Whether `wanted` occurs in a text. -/
def occursIn (wanted : List Char) : List Char → Bool
  | [] => wanted.isEmpty
  | c :: rest => if wanted.isPrefixOf (c :: rest) then true else occursIn wanted rest

/-- Count occurrences from the left. `skip` characters of the text belong to the
occurrence found last. -/
def countFrom (wanted : List Char) (found skip : Nat) : List Char → Nat
  | [] => found
  | c :: rest =>
    match skip with
    | remaining + 1 => countFrom wanted found remaining rest
    | 0 =>
      if wanted.isPrefixOf (c :: rest) then countFrom wanted (found + 1) (wanted.length - 1) rest
      else countFrom wanted found 0 rest

/-- How often a non-empty text occurs in another without overlap. -/
def occurrences (wanted text : List Char) : Nat :=
  countFrom wanted 0 0 text

end ContextDb.Text
