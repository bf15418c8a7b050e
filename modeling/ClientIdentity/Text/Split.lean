namespace ClientIdentity.Split

/-- The text before and after the first occurrence of `mark`. -/
def atFirst? (mark : Char) (text : String) : Option (String × String) :=
  match text.toList.dropWhile (· != mark) with
  | [] => none
  | _ :: after => some (String.ofList (text.toList.takeWhile (· != mark)), String.ofList after)

/-- Cuts an input behind every element that ends a line. Each piece holds what ends it; only the
last one may hold no such element. -/
def behind {α : Type} (endsLine : α → Bool) (input : List α) : List (List α) :=
  input.foldr
    (fun a pieces =>
      if endsLine a then [a] :: pieces
      else
        match pieces with
        | [] => [[a]]
        | piece :: more => (a :: piece) :: more)
    []

/-- A line without its line feed, and without a carriage return in front of that. -/
def dropEnding (line : List Char) : List Char :=
  if line.getLast? = some '\n' then
    if line.dropLast.getLast? = some '\r' then line.dropLast.dropLast else line.dropLast
  else
    line

/-- The lines of a text, without their endings. -/
def lines (text : String) : List String :=
  (behind (· == '\n') text.toList).map fun line => String.ofList (dropEnding line)

end ClientIdentity.Split
