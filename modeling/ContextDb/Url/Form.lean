import ContextDb.Text.Split
import ContextDb.Url.Percent

/-!
# Form encoding

Queries are sequences of names with values. Names and values are written with
escapes for all but letters, digits and a few marks, and a plus sign for a
space.
-/

namespace ContextDb.Url

open Text

/-- Characters that stand for themselves in a form. -/
def isFormPlain (c : Char) : Bool :=
  c.isAlphanum || c = '*' || c = '-' || c = '.' || c = '_'

/-- A character of a name or value. -/
def formChar (c : Char) : List Char :=
  if isFormPlain c then [c] else if c = ' ' then ['+'] else escapeChar c

/-- A name or value. -/
def formText (text : List Char) : List Char :=
  text.flatMap formChar

/-- A name with its value. -/
def formPair (pair : String × String) : List Char :=
  formText pair.1.toList ++ '=' :: formText pair.2.toList

/-- A query of names with values. -/
def formEncode (pairs : List (String × String)) : String :=
  String.ofList (joinWith ['&'] (pairs.map formPair))

/-- What a name or value in a query stands for. -/
def formValue (text : List Char) : String :=
  let bytes := unescape (encode (text.map fun c => if c = '+' then ' ' else c))
  decodeLossy ⟨bytes.toArray⟩

/-- The name and the value in a part of a query; the value may be missing. -/
def formSplit (part : List Char) : String × String :=
  match cutAt? '=' part with
  | some (name, value) => (formValue name, formValue value)
  | none => (formValue part, "")

/-- The names with values of a query. -/
def formDecode (query : String) : List (String × String) :=
  ((pieces '&' query.toList).filter (!·.isEmpty)).map formSplit

end ContextDb.Url
