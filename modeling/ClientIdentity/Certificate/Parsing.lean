import ClientIdentity.Der.Element

namespace ClientIdentity

/-- The extensions that are understood, by the last part of their identifiers. -/
inductive KnownExtension where
  | keyUsage
  | alternativeNames
  | basicConstraints
  | nameConstraints
  | revocationPoints
  | extendedKeyUsage
  deriving DecidableEq, Repr

def KnownExtension.ofIdentifier? : Bytes → Option KnownExtension
  | [0x55, 0x1D, 15] => some .keyUsage
  | [0x55, 0x1D, 17] => some .alternativeNames
  | [0x55, 0x1D, 19] => some .basicConstraints
  | [0x55, 0x1D, 30] => some .nameConstraints
  | [0x55, 0x1D, 31] => some .revocationPoints
  | [0x55, 0x1D, 37] => some .extendedKeyUsage
  | _ => none

/-- The extensions of a certificate, with what each of them holds. -/
abbrev Extensions := List (KnownExtension × Bytes)

/-- What a certificate says that matters here: the contents of its names, of the time for which it
is valid, and of its public key with the algorithm, and its extensions. -/
structure Certificate where
  issuer : Bytes
  validity : Bytes
  subject : Bytes
  subjectInfo : Bytes
  extensions : Extensions
  deriving DecidableEq, Repr

namespace Certificate

/-- The contents of the name constraints. -/
def nameConstraints (certificate : Certificate) : Option Bytes :=
  certificate.extensions.lookup .nameConstraints

/-- Why a certificate is refused. -/
inductive Fault where
  /-- The layout is wrong. -/
  | badEncoding
  | unsupportedVersion
  /-- The algorithm is not the same in both places. -/
  | algorithmMismatch
  /-- An extension stands there twice. -/
  | repeatedExtension
  /-- An extension that must be understood and is not. -/
  | criticalExtension
  deriving DecidableEq, Repr

/-- The name of a fault. -/
def Fault.name : Fault → String
  | .badEncoding => "BadEncoding"
  | .unsupportedVersion => "Other(OtherError(UnsupportedCertVersion))"
  | .algorithmMismatch => "Other(OtherError(SignatureAlgorithmMismatch))"
  | .repeatedExtension => "Other(OtherError(ExtensionValueInvalid))"
  | .criticalExtension => "Other(OtherError(UnsupportedCriticalExtension))"

def Fault.message (fault : Fault) : String :=
  "invalid peer certificate: " ++ fault.name

/-- What a certificate is read for. -/
inductive Purpose where
  /-- To be compared with a key. -/
  | leaf
  /-- To be trusted. Extensions that are not understood do no harm then. -/
  | anchor
  deriving DecidableEq, Repr

/-- A reader that says why it refuses its input. -/
abbrev Reader (α : Type) := StateT Bytes (Except Fault) α

namespace Reader

def refuse {α : Type} (fault : Fault) : Reader α :=
  fun _ => .error fault

/-- The contents of the next element; `fault` tells that there is no such element. -/
def elementOr (fault : Fault) (tag : Der.Tag) : Reader Bytes :=
  fun input =>
    match Der.read? Der.certificateLimit tag input with
    | none => .error fault
    | some outcome => .ok outcome

/-- The contents of the next element. -/
def element (tag : Der.Tag) : Reader Bytes :=
  elementOr .badEncoding tag

/-- The outcome of a reader that must use up its input; `fault` tells that something is left. -/
def allOr {α : Type} (fault : Fault) (reader : Reader α) (input : Bytes) : Except Fault α :=
  match reader input with
  | .error fault => .error fault
  | .ok (value, []) => .ok value
  | .ok (_, _ :: _) => .error fault

/-- Reads the contents of the next element, which must be used up; `fault` tells that there is no
such element or that something is left of it. -/
def withinOr {α : Type} (fault : Fault) (tag : Der.Tag) (reader : Reader α) : Reader α := do
  let contents ← elementOr fault tag
  match allOr fault reader contents with
  | .ok value => return value
  | .error fault => refuse fault

/-- Reads the contents of the next element, which must be used up. -/
def within {α : Type} (tag : Der.Tag) (reader : Reader α) : Reader α :=
  withinOr .badEncoding tag reader

/-- Takes the next byte, if there is one. -/
def byte? : Reader (Option UInt8) :=
  fun input =>
    match input with
    | [] => .ok (none, [])
    | first :: rest => .ok (some first, rest)

def remaining : Reader Bytes :=
  fun input => .ok (input, [])

def atEnd : Reader Bool :=
  fun input => .ok (input.isEmpty, input)

def beginsWith (tag : Der.Tag) : Reader Bool :=
  fun input => .ok (input.head? == some tag.byte, input)

end Reader

/-- A number that fits a byte, in its shortest form. -/
def readSmallNumber : Reader UInt8 := do
  match ← Reader.element .integer with
  | [number] => if number < 0x80 then return number else Reader.refuse .badEncoding
  | [0, number] => if number < 0x80 then Reader.refuse .badEncoding else return number
  | _ => Reader.refuse .badEncoding

/-- The version, which must be the third. -/
def readVersion : Reader Unit :=
  Reader.withinOr .unsupportedVersion (.wrapper 0) do
    let version ← readSmallNumber
    if version ≠ 2 then Reader.refuse .unsupportedVersion

/-- Passes over a bit string of whole bytes. -/
def readSignature : Reader Unit :=
  Reader.within .bitString do
    match ← Reader.byte? with
    | some 0 =>
      let _ ← Reader.remaining
      return
    | _ => Reader.refuse .badEncoding

/-- A truth value, false if there is none. -/
def readFlag : Reader Bool := do
  if ← Reader.beginsWith .boolean then
    Reader.within .boolean do
      match ← Reader.byte? with
      | some 0xFF => return true
      | some 0 => return false
      | _ => Reader.refuse .badEncoding
  else
    return false

/-- What a known extension holds: any bytes for the key usage, one sequence for the others. -/
def extensionContents (extension : KnownExtension) (value : Bytes) : Except Fault Bytes :=
  match extension with
  | .keyUsage => .ok value
  | _ => Reader.allOr .badEncoding (Reader.element .sequence) value

/-- Reads one extension behind those that have been seen. -/
def readExtension (purpose : Purpose) (seen : Extensions) : Reader Extensions := do
  let identifier ← Reader.element .objectIdentifier
  let critical ← readFlag
  let value ← Reader.element .octetString
  match KnownExtension.ofIdentifier? identifier with
  | none =>
    if critical ∧ purpose = .leaf then Reader.refuse .criticalExtension else return seen
  | some extension =>
    if seen.any fun known => known.1 == extension then
      Reader.refuse .repeatedExtension
    else
      match extensionContents extension value with
      | .ok contents => return seen ++ [(extension, contents)]
      | .error fault => Reader.refuse fault

/-- Reads extensions to the end of the input. -/
def extensionsOf (purpose : Purpose) (seen : Extensions) (input : Bytes) :
    Except Fault Extensions :=
  if input = [] then .ok seen
  else
    match _h : Der.read? Der.certificateLimit .sequence input with
    | none => .error .badEncoding
    | some (contents, rest) =>
      match Reader.allOr .badEncoding (readExtension purpose seen) contents with
      | .error fault => .error fault
      | .ok seen => extensionsOf purpose seen rest
termination_by input.length
decreasing_by exact Der.read?_length_lt _h

/-- Reads the extensions, which may be missing. -/
def readExtensions (purpose : Purpose) : Reader Extensions := do
  if ← Reader.atEnd then return []
  Reader.within (.wrapper 3) do
    Reader.within .sequence do
      match extensionsOf purpose [] (← Reader.remaining) with
      | .ok extensions => return extensions
      | .error fault => Reader.refuse fault

/-- Reads what is signed; `algorithm` is the one that stands beside the signature. -/
def readSigned (purpose : Purpose) (algorithm : Bytes) : Reader Certificate := do
  readVersion
  let _serial ← Reader.element .integer
  let repeated ← Reader.element .sequence
  if repeated ≠ algorithm then Reader.refuse .algorithmMismatch
  let issuer ← Reader.element .sequence
  let validity ← Reader.element .sequence
  let subject ← Reader.element .sequence
  let subjectInfo ← Reader.element .sequence
  let extensions ← readExtensions purpose
  return { issuer, validity, subject, subjectInfo, extensions }

/-- Takes a certificate apart: what is signed, and the algorithm. -/
def readOuter : Reader (Bytes × Bytes) :=
  Reader.within .sequence do
    let signed ← Reader.element .sequence
    let algorithm ← Reader.element .sequence
    readSignature
    return (signed, algorithm)

/-- The certificate with this encoding. -/
def decode (purpose : Purpose) (der : Bytes) : Except Fault Certificate := do
  let (signed, algorithm) ← Reader.allOr .badEncoding readOuter der
  Reader.allOr .badEncoding (readSigned purpose algorithm) signed

/-- Reads a certificate of the first version, which has neither a version nor extensions. -/
def readFirstVersion : Reader Certificate :=
  Reader.within .sequence do
    let certificate ← Reader.within .sequence do
      let _serial ← Reader.element .integer
      let _algorithm ← Reader.element .sequence
      let issuer ← Reader.element .sequence
      let validity ← Reader.element .sequence
      let subject ← Reader.element .sequence
      let subjectInfo ← Reader.element .sequence
      return { issuer, validity, subject, subjectInfo, extensions := [] }
    let _algorithm ← Reader.element .sequence
    let _signature ← Reader.element .bitString
    return certificate

/-- The leaf certificate with this encoding. -/
def parse (der : Bytes) : Except Fault Certificate :=
  decode .leaf der

/-- The certificate with this encoding, to be trusted. The first version is taken here too. -/
def parseAnchor (der : Bytes) : Except Fault Certificate :=
  match decode .anchor der with
  | .error .unsupportedVersion => Reader.allOr .badEncoding readFirstVersion der
  | outcome => outcome

end Certificate

end ClientIdentity
