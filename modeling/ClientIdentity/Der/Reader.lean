import ClientIdentity.Der.Element

namespace ClientIdentity.Der

/-- A reader that leaves the rest of its input. -/
abbrev Reader (α : Type) := StateT Bytes Option α

namespace Reader

/-- The contents of the next element. -/
def element (tag : Tag) : Reader Bytes :=
  fun input => read? keyLimit tag input

/-- The outcome of a reader that must use up its input. -/
def all? {α : Type} (reader : Reader α) (input : Bytes) : Option α :=
  match reader input with
  | some (value, []) => some value
  | _ => none

/-- Reads the contents of the next element, which must be used up. -/
def within {α : Type} (tag : Tag) (reader : Reader α) : Reader α :=
  fun input =>
    match read? keyLimit tag input with
    | none => none
    | some (contents, rest) => (all? reader contents).map fun value => (value, rest)

/-- The rest of the input. -/
def remaining : Reader Bytes :=
  fun input => some (input, [])

/-- Goes on only if `condition` holds. -/
def require (condition : Bool) : Reader Unit :=
  fun input => if condition then some ((), input) else none

/-- Whether the next element has this tag. -/
def beginsWith (tag : Tag) : Reader Bool :=
  fun input => some (input.head? == some tag.byte, input)

/-- Reads an element if the next one has this tag. -/
def optional (tag : Tag) : Reader (Option Bytes) := do
  if ← beginsWith tag then some <$> element tag else return none

/-- A number that is not negative, in its shortest form. -/
def natural : Reader Nat := do
  let contents ← element .integer
  match contents with
  | [] => failure
  | [0] => return 0
  | 0 :: next :: rest =>
    require (0x80 ≤ next)
    return Bytes.toNat (next :: rest)
  | first :: rest =>
    require (first < 0x80)
    return Bytes.toNat (first :: rest)

/-- The contents of a bit string of whole bytes. -/
def wholeBytes : Reader Bytes := do
  let unused ← fun input => match input with
    | [] => none
    | first :: rest => some (first, rest)
  require (unused == 0)
  remaining

/-- A bit string of whole bytes under the given tag. -/
def bitString (tag : Tag) : Reader Bytes :=
  within tag wholeBytes

end Reader

end ClientIdentity.Der
