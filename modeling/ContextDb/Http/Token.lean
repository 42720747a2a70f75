/-!
# Tokens

The characters of which the words of HTTP are made.
-/

namespace ContextDb.Http

/-- Characters that may stand in a token: the letters, the digits and these signs. -/
def isTokenByte (byte : UInt8) : Bool :=
  (0x30 ≤ byte && byte ≤ 0x39) || (0x41 ≤ byte && byte ≤ 0x5A) || (0x61 ≤ byte && byte ≤ 0x7A) ||
    ("!#$%&'*+-.^_`|~".toUTF8.data.toList).contains byte

/-- Whether a text may be a method or the name of a header. -/
def isName (text : String) : Bool :=
  !text.isEmpty && text.toUTF8.data.toList.all isTokenByte

/-- Whether bytes may be the value of a header. -/
def isHeaderValue (bytes : List UInt8) : Bool :=
  bytes.all fun byte => byte == 0x09 || (0x20 ≤ byte && byte != 0x7F)

end ContextDb.Http
