import ClientIdentity.Pem.Block
import ClientIdentity.Text.Base64

namespace ClientIdentity.Pem

/-- How lines end. -/
inductive LineEnding where
  | lf
  | crlf
  deriving DecidableEq, Repr

def LineEnding.bytes : LineEnding → Bytes
  | .lf => [0x0A]
  | .crlf => [0x0D, 0x0A]

/-- The symbols on a line of contents. -/
def lineWidth : Nat := 64

/-- Lines, each with its ending. -/
def joinLines (ending : LineEnding) (lines : List Bytes) : Bytes :=
  lines.flatMap (· ++ ending.bytes)

namespace Block

/-- The header lines as they are written: without blanks at either end, and with an empty line
behind them if there are any. -/
def writtenHeaders (block : Block) : List Bytes :=
  if block.headerLines.isEmpty then []
  else (block.headerLines.map fun line => Utf8.encode (Blank.trim line)) ++ [[]]

/-- The lines of a block, without their endings. -/
def writtenLines (block : Block) : List Bytes :=
  [beginMarker ++ Utf8.encode block.tag ++ dashes] ++ block.writtenHeaders ++
    Bytes.chunks lineWidth (Base64.encode block.contents) ++ [endOf (Utf8.encode block.tag)]

/-- The text of a block. -/
def encode (ending : LineEnding) (block : Block) : Bytes :=
  joinLines ending block.writtenLines

end Block

end ClientIdentity.Pem
