import ClientIdentity.Pem.Block
import ClientIdentity.Text.Base64

namespace ClientIdentity.Pem.Segment

/-- Why a segment is no block. -/
inductive Fault where
  /-- One of the markers is missing. -/
  | framing
  | missingBeginTag
  | missingEndTag
  | mismatchedTags (first last : String)
  | notText (fault : Utf8.Fault)
  | badData (fault : Base64.Fault)
  /-- A header line without a colon. -/
  | badHeader (line : String)
  deriving DecidableEq, Repr

def Fault.message : Fault → String
  | .framing => "malformedframing"
  | .missingBeginTag => "missing BEGIN tag"
  | .missingEndTag => "missing END tag"
  | .mismatchedTags first last => s!"mismatching BEGIN (\"{first}\") and END (\"{last}\") tags"
  | .notText fault => "invalid utf-8 value: " ++ fault.message
  | .badData fault => "invalid data: " ++ fault.message
  | .badHeader line => "invalid header: " ++ line

/-- The position behind the first match of `marker`. The bytes of the marker that are still to
match are `pending`; a byte that does not match makes all of them pending again. -/
def matchEnd? (marker : Bytes) : (pending : Bytes) → (position : Nat) → Bytes → Option Nat
  | [], position, _ => some position
  | _ :: _, _, [] => none
  | expected :: pending, position, b :: rest =>
    matchEnd? marker (if b = expected then pending else marker) (position + 1) rest

/-- What stands before the first match of `marker`, and what follows the match. -/
def readUntil? (marker input : Bytes) : Option (Bytes × Bytes) :=
  (matchEnd? marker marker 0 input).map fun position =>
    (input.take (position - marker.length), input.drop position)

/-- Whether a byte may stand between a begin marker and the payload. -/
def isGap (b : UInt8) : Bool :=
  b == 0x20 || b == 0x09 || b == 0x0A || b == 0x0D

/-- The parts of a segment. -/
structure Parts where
  beginTag : Bytes
  payload : Bytes
  endTag : Bytes

/-- Cuts a segment at its markers. -/
def cut? (segment : Bytes) : Option Parts := do
  let (_, rest) ← readUntil? beginMarker segment
  let (beginTag, rest) ← readUntil? dashes rest
  let (payload, rest) ← readUntil? endMarker (rest.dropWhile isGap)
  let (endTag, _) ← readUntil? dashes rest
  return { beginTag, payload, endTag }

/-- The header part and the data part of a payload: an empty line divides them. -/
def divide (payload : Bytes) : Bytes × Bytes :=
  match readUntil? [0x0A, 0x0A] payload with
  | some parts => parts
  | none =>
    match readUntil? [0x0D, 0x0A, 0x0D, 0x0A] payload with
    | some parts => parts
    | none => ([], payload)

/-- The text with these bytes. -/
def text (input : Bytes) : Except Fault String :=
  (Utf8.decode input).mapError .notText

/-- The bytes that the data part stands for. White space in it counts for nothing. -/
def contents (data : Bytes) : Except Fault Bytes := do
  let data ← text data
  (Base64.decode (Utf8.encode (Blank.strip data))).mapError .badData

/-- The lines of the header part, each of which has a colon. -/
def headerLines (part : Bytes) : Except Fault (List String) := do
  let lines := Split.lines (← text part)
  match lines.find? fun line => (Block.header? line).isNone with
  | some line => .error (.badHeader line)
  | none => .ok lines

/-- The block that the parts of a segment make up. -/
def Parts.toBlock (parts : Parts) : Except Fault Block := do
  let tag ← text parts.beginTag
  if tag.isEmpty then throw .missingBeginTag
  let endTag ← text parts.endTag
  if endTag.isEmpty then throw .missingEndTag
  if tag ≠ endTag then throw (.mismatchedTags tag endTag)
  let (headerPart, dataPart) := divide parts.payload
  let contents ← contents dataPart
  let headerLines ← headerLines headerPart
  return { tag, headerLines, contents }

/-- The block that a segment holds. -/
def parse (segment : Bytes) : Except Fault Block :=
  match cut? segment with
  | none => .error .framing
  | some parts => parts.toBlock

end ClientIdentity.Pem.Segment
