import ClientIdentity.Pem.Section

namespace ClientIdentity

/-- Why the system refuses. -/
inductive SystemFault where
  | notFound
  | noDevice
  | notDirectory
  | isDirectory
  | nameTooLong
  /-- A path with a zero byte. -/
  | zeroInPath
  /-- A line that is no text. -/
  | notText
  | other (text : String)
  deriving DecidableEq, Repr

namespace SystemFault

def message : SystemFault → String
  | .notFound => "No such file or directory (os error 2)"
  | .noDevice => "No such device or address (os error 6)"
  | .notDirectory => "Not a directory (os error 20)"
  | .isDirectory => "Is a directory (os error 21)"
  | .nameTooLong => "File name too long (os error 36)"
  | .zeroInPath => "file name contained an unexpected NUL byte"
  | .notText => "stream did not contain valid UTF-8"
  | .other text => text

/-- The name of the kind of a fault. -/
def kind : SystemFault → String
  | .notFound => "NotFound"
  | .noDevice => "Uncategorized"
  | .notDirectory => "NotADirectory"
  | .isDirectory => "IsADirectory"
  | .nameTooLong => "InvalidFilename"
  | .zeroInPath => "InvalidInput"
  | .notText => "InvalidData"
  | .other _ => "Other"

/-- The fault that the system has a number and a text for. -/
def ofNumber (number : Nat) (text : String) : SystemFault :=
  match number with
  | 2 => .notFound
  | 6 => .noDevice
  | 20 => .notDirectory
  | 21 => .isDirectory
  | 36 => .nameTooLong
  | _ => .other s!"{text} (os error {number})"

end SystemFault

/-- Why a file of certificates is refused. -/
inductive FileFault where
  | system (fault : SystemFault)
  | malformed (fault : Pem.Section.Fault)
  deriving DecidableEq, Repr

namespace FileFault

def message : FileFault → String
  | .system fault => fault.message
  | .malformed fault => fault.message

def kind : FileFault → String
  | .system fault => fault.kind
  | .malformed _ => "InvalidData"

end FileFault

/-- A file system, as far as it is read. Paths are bytes. -/
structure FileSystem where
  /-- The contents of a file. -/
  read : Bytes → Except SystemFault Bytes
  /-- The names of the files in a directory. -/
  list : Bytes → Except SystemFault (List Bytes)

namespace FileSystem

/-- The file system that holds what was found at some paths, and no files in any directory. -/
def ofReadings (readings : List (Bytes × Except SystemFault Bytes)) : FileSystem where
  read path := (readings.lookup path).getD (.error .notFound)
  list _ := .ok []

end FileSystem

end ClientIdentity
