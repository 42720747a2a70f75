import ContextDb.Json.Shape

/-!
# What endpoints expect

The query parameters and request bodies of the REST interface. The same shapes
decide what is accepted and what the interface's description says.
-/

namespace ContextDb.Rest

open Json

/-- A required text. -/
def textField (name about : String) (others : Fields) : Fields :=
  .field name about .text others

/-- An optional field. -/
def optionalField (name about : String) (shape : Shape) (others : Fields) : Fields :=
  .field name about (.optional shape) others

/-! ## Queries -/

/-- No parameters. -/
def noQuery : Fields :=
  .done

/-- The address of an entry. -/
def uriQuery : Fields :=
  textField "uri" "Target `viking://` URI" .done

/-- Where to list resources. -/
def listResourcesQuery : Fields :=
  optionalField "under" "Only list resources below this URI" .text .done

/-- What to remove. -/
def rmQuery : Fields :=
  textField "uri" "URI to remove" <|
  optionalField "recursive" "Remove non-empty directories" .flag .done

/-- A pattern and where to match it. -/
def globQuery : Fields :=
  textField "pattern" "Wildcard pattern; `*` stays in one segment, `**` crosses segments" <|
  optionalField "uri" "Directory to match under (default: root)" .text .done

/-- The ends of a link. -/
def unlinkQuery : Fields :=
  textField "from_uri" "Source URI" <|
  textField "to_uri" "Target URI to unlink" .done

/-! ## Bodies -/

/-- A file to write. -/
def addResourceBody : Shape :=
  .record "AddResourceRequest" <|
    textField "uri" "Destination URI" <|
    textField "content" "Text content" .done

/-- A directory to create. -/
def mkdirBody : Shape :=
  .record "MkdirRequest" <| textField "uri" "Directory URI" .done

/-- What to move where. -/
def mvBody : Shape :=
  .record "MvRequest" <|
    textField "from_uri" "Source URI" <|
    textField "to_uri" "Destination URI" .done

/-- What to look for in the contents of files. -/
def findBody : Shape :=
  .record "FindRequest" <|
    textField "query" "Free-text query" <|
    optionalField "target_uri" "Restrict to this subtree" .text <|
    optionalField "limit" "Maximum number of hits (default: 10)" .count .done

/-- What to look for in lines. -/
def grepBody : Shape :=
  .record "GrepRequest" <|
    textField "uri" "File or directory to search" <|
    textField "pattern" "Literal text to look for" <|
    optionalField "case_insensitive" "Ignore case" .flag .done

/-- What to link. -/
def linkBody : Shape :=
  .record "LinkRequest" <|
    textField "from_uri" "Source URI" <|
    .field "to_uris" "Target URIs" (.list .text) <|
    optionalField "reason" "Why the entries are related" .text .done

/-- What to say. -/
def addMessageBody : Shape :=
  .record "AddMessageRequest" <|
    textField "role" "`user`, `assistant` or `system`" <|
    textField "content" "Message text" .done

/-- A file of a pack. -/
def packFileShape : Shape :=
  .record "PackFile" <| textField "path" "" <| textField "content" "" .done

/-- What to unpack where. -/
def importPackBody : Shape :=
  .record "ImportPackRequest" <|
    textField "target_uri" "Directory to unpack into" <|
    .field "files" "Files with paths relative to the target" (.list packFileShape) .done

end ContextDb.Rest
