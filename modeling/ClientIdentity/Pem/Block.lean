import ClientIdentity.Bytes
import ClientIdentity.Text.Blank
import ClientIdentity.Text.Split
import ClientIdentity.Text.Utf8

namespace ClientIdentity.Pem

/-- A block. Its header lines are kept as they were written. -/
structure Block where
  tag : String
  headerLines : List String
  contents : Bytes
  deriving DecidableEq, Repr

namespace Block

/-- The name and the value around the first colon of a header line. -/
def header? (line : String) : Option (String × String) :=
  (Split.atFirst? ':' line).map fun (name, value) => (Blank.trim name, Blank.trim value)

/-- The names and values of the header lines, in order. -/
def headers (block : Block) : List (String × String) :=
  block.headerLines.filterMap header?

/-- The value of the last header with this name. -/
def get? (block : Block) (name : String) : Option String :=
  (block.headers.reverse.find? fun header => header.1 == name).map Prod.snd

/-- The name of the header that says how the contents are encrypted. -/
def encryptionHeader : String := "DEK-Info"

/-- Whether the contents are encrypted. -/
def isEncrypted (block : Block) : Bool :=
  (block.get? encryptionHeader).isSome

/-- Whether a tag stands for a private key of any kind. -/
def isPrivateKeyTag (tag : String) : Bool :=
  tag == "PRIVATE KEY" || Bytes.endsWith (Utf8.encode " PRIVATE KEY") (Utf8.encode tag)

/-- Whether the block holds a private key. -/
def isPrivateKey (block : Block) : Bool :=
  isPrivateKeyTag block.tag

end Block

/-- The five dashes around a line that begins or ends a block. -/
def dashes : Bytes := Utf8.encode "-----"

/-- What every block begins with. -/
def beginMarker : Bytes := Utf8.encode "-----BEGIN "

/-- What stands in front of the tag at the end of a block. -/
def endMarker : Bytes := Utf8.encode "-----END "

/-- The whole mark that ends a block with this label. -/
def endOf (label : Bytes) : Bytes :=
  endMarker ++ label ++ dashes

end ClientIdentity.Pem
