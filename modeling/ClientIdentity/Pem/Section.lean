import ClientIdentity.Key.PrivateKey
import ClientIdentity.Pem.Block
import ClientIdentity.Text.Base64.Lenient
import ClientIdentity.Text.Quoted

namespace ClientIdentity.Pem

/-- A section with a known label. -/
structure Section where
  label : Bytes
  contents : Bytes
  deriving DecidableEq, Repr

namespace Section

/-- The label of a certificate. -/
def certificateLabel : Bytes := Utf8.encode "CERTIFICATE"

/-- The label of a private key of this kind. -/
def keyLabel (kind : KeyKind) : Bytes := Utf8.encode kind.tag

/-- The labels whose sections are decoded. -/
def knownLabels : List Bytes :=
  certificateLabel :: KeyKind.all.map keyLabel ++
    ["PUBLIC KEY", "X509 CRL", "CERTIFICATE REQUEST", "ECHCONFIG"].map Utf8.encode

/-- Why a file is refused. -/
inductive Fault where
  /-- A begin line that does not end in five dashes. -/
  | illegalStart (line : Bytes)
  /-- The input ends inside a section. -/
  | missingEnd (label : Bytes)
  | badText (fault : Base64.Lenient.Fault)
  deriving DecidableEq, Repr

def Fault.message : Fault → String
  | .illegalStart line => "illegal section start: " ++ Quoted.quote (Utf8.lossy line)
  | .missingEnd label => "section end " ++ Quoted.quote (Utf8.lossy label) ++ " missing"
  | .badText fault => fault.message

/-- Whether a byte ends a line. -/
def endsLine (b : UInt8) : Bool :=
  b == 0x0A || b == 0x0D

/-- The lines of a file, each with the byte that ends it. -/
def lines (input : Bytes) : List Bytes :=
  Split.behind endsLine input

/-- Whether a byte is passed over between the dashes at the end of a begin line. -/
def isPassedOver (b : UInt8) : Bool :=
  endsLine b || b == 0x20

/-- The dashes and the bytes passed over at the end of a line, last one first. -/
def trailer (line : Bytes) : Bytes :=
  line.reverse.takeWhile fun b => b == 0x2D || isPassedOver b

/-- The label of a begin line: what stands behind the marker and in front of the five dashes at
the end. -/
def startLabel? (line : Bytes) : Option Bytes :=
  let ending := trailer line
  if ending.count 0x2D = 5 then
    let dashed := (ending.reverse.dropWhile (· != 0x2D)).length
    some ((line.take (line.length - dashed)).drop beginMarker.length)
  else
    none

/-- What the reader knows between two lines: the label of the section that it is in, if any, and
the lines of text collected so far, latest first. -/
structure Progress where
  label : Option Bytes
  text : List Bytes

/-- The progress at the beginning of a file and behind every section. -/
def Progress.fresh : Progress := ⟨none, []⟩

/-- Takes one line: the progress behind it, and the section that it ends. A begin line inside a
section begins another one and keeps the text. -/
def Progress.feed (progress : Progress) (line : Bytes) :
    Except Fault (Progress × Option Section) :=
  if beginMarker.isPrefixOf line then
    match startLabel? line with
    | none => .error (.illegalStart line)
    | some label => .ok ({ progress with label := some label }, none)
  else
    match progress.label with
    | none => .ok (progress, none)
    | some label =>
      if (endOf label).isPrefixOf line then
        if knownLabels.contains label then
          match Base64.Lenient.decode progress.text.reverse.flatten with
          | .ok contents => .ok (.fresh, some ⟨label, contents⟩)
          | .error fault => .error (.badText fault)
        else
          .ok (.fresh, none)
      else
        .ok ({ progress with text := line :: progress.text }, none)

/-- The sections of a file in front of its first fault, and that fault. -/
structure Reading where
  sections : List Section
  fault : Option Fault

/-- Takes the remaining lines. -/
def Progress.read (progress : Progress) : List Bytes → Reading
  | [] =>
    match progress.label with
    | none => ⟨[], none⟩
    | some label => ⟨[], some (.missingEnd label)⟩
  | line :: rest =>
    match progress.feed line with
    | .error fault => ⟨[], some fault⟩
    | .ok (later, none) => later.read rest
    | .ok (later, some done) =>
      let reading := later.read rest
      { reading with sections := done :: reading.sections }

/-- Reads a file. -/
def read (input : Bytes) : Reading :=
  Progress.fresh.read (lines input)

/-- The kind of private key that a section holds. -/
def keyKind? (s : Section) : Option KeyKind :=
  KeyKind.all.find? fun kind => keyLabel kind == s.label

/-- The private key that a section holds. -/
def privateKey? (s : Section) : Option PrivateKey :=
  s.keyKind?.map fun kind => ⟨kind, s.contents⟩

/-- The contents of all certificate sections. A fault anywhere fails the file. -/
def certificates (input : Bytes) : Except Fault (List Bytes) :=
  let reading := read input
  match reading.fault with
  | some fault => .error fault
  | none =>
    .ok ((reading.sections.filter fun s => s.label == certificateLabel).map Section.contents)

/-- The first private key of a file. A fault behind it does not count. -/
def firstPrivateKey (input : Bytes) : Except Fault (Option PrivateKey) :=
  let reading := read input
  match reading.sections.findSome? privateKey?, reading.fault with
  | some key, _ => .ok (some key)
  | none, some fault => .error fault
  | none, none => .ok none

end Section

end ClientIdentity.Pem
