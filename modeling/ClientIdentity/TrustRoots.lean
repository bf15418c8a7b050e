import ClientIdentity.KeyFile

namespace ClientIdentity

/-- Where trust roots come from. -/
structure TrustRoots where
  file : Option Bytes
  directory : Option Bytes
  deriving DecidableEq, Repr

namespace TrustRoots

/-- The two kinds of places that certificates come from. -/
inductive Origin where
  | file
  | directory
  deriving DecidableEq, Repr

def Origin.name : Origin → String
  | .file => "file"
  | .directory => "dir"

/-- Why there are no trust roots. -/
structure Fault where
  origin : Origin
  path : Bytes
  fault : FileFault
  deriving DecidableEq, Repr

namespace Fault

def message (f : Fault) : String :=
  let origin := f.origin.name
  let path := Utf8.lossy f.path
  s!"could not load certs from {origin} {path}: " ++ f.fault.message

def kind (f : Fault) : String :=
  f.fault.kind

end Fault

/-- The names of the variables that say where trust roots come from. -/
def fileVariable : String := "SSL_CERT_FILE"

/-- The name of the variable for a directory. -/
def directoryVariable : String := "SSL_CERT_DIR"

/-- The places that an environment names. -/
def ofProcess (lookup : String → Option Bytes) : TrustRoots where
  file := lookup fileVariable
  directory := lookup directoryVariable

/-- Whether a byte is a hexadecimal digit. -/
def isHexDigit (b : UInt8) : Bool :=
  (Hex.value? (Char.ofNat b.toNat)).isSome

/-- Whether files of this name in a directory are looked at: eight hexadecimal digits, a dot and a
decimal digit. -/
def isHashName (name : Bytes) : Bool :=
  name.length == 10 && (name.take 8).all isHexDigit && name[8]? == some 0x2E &&
    (name.drop 9).all fun b => 0x30 ≤ b && b ≤ 0x39

/-- The path of a file in a directory. -/
def join (directory name : Bytes) : Bytes :=
  if directory.getLast? = some 0x2F then directory ++ name else directory ++ [0x2F] ++ name

/-- The certificates of the files of a directory. -/
def readDirectory (files : FileSystem) (path : Bytes) : Except FileFault (List Bytes) := do
  let names ← (files.list path).mapError .system
  let chains ← (names.filter isHashName).mapM fun name =>
    KeyFile.readCertificates files (join path name)
  return chains.flatten

/-- The certificates of one place, if it is given. -/
def readPlace (origin : Origin) (read : Bytes → Except FileFault (List Bytes)) :
    Option Bytes → Except Fault (List Bytes)
  | none => .ok []
  | some path => (read path).mapError fun fault => ⟨origin, path, fault⟩

/-- The order of byte strings: the first byte that differs decides, and a beginning stands before
what it begins. -/
def precedes : Bytes → Bytes → Bool
  | [], _ => true
  | _ :: _, [] => false
  | a :: as, b :: bs => a < b || (a == b && precedes as bs)

/-- The elements without those that repeat the one before them. -/
def dropRepeated : List Bytes → List Bytes
  | [] => []
  | first :: rest =>
    match dropRepeated rest with
    | [] => [first]
    | next :: more => if first = next then next :: more else first :: next :: more

/-- Certificates in order, each once. -/
def normalize (ders : List Bytes) : List Bytes :=
  dropRepeated (ders.mergeSort precedes)

/-- The encoded certificates of both places, in order and each once. A place that cannot be read
counts only if nothing comes from the other one. -/
def encoded (roots : TrustRoots) (files : FileSystem) : Except Fault (List Bytes) :=
  let fromFile := readPlace .file (KeyFile.readCertificates files) roots.file
  let fromDirectory := readPlace .directory (readDirectory files) roots.directory
  match fromFile, fromDirectory with
  | .ok ders, .ok more => .ok (normalize (ders ++ more))
  | .ok [], .error fault => .error fault
  | .ok ders, .error _ => .ok (normalize ders)
  | .error fault, .ok [] => .error fault
  | .error _, .ok ders => .ok (normalize ders)
  | .error fault, .error _ => .error fault

/-- Reads certificates that are to be trusted, and tells the log about those that cannot be
read. -/
def anchors : List Bytes → Run (List Certificate)
  | [] => return []
  | der :: rest =>
    match Certificate.parseAnchor der with
    | .ok certificate => return certificate :: (← anchors rest)
    | .error fault => do
      Run.log .debug .certificate ("ignoring native root certificate: " ++ fault.message)
      anchors rest

end TrustRoots

end ClientIdentity
