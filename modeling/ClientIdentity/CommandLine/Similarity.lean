namespace ClientIdentity.CommandLine.Similarity

/-- Where the letters of a word have their match in another word: for each letter the position of
its match, if it has one. A match lies within `range` places, is the first one left, and serves
one letter only. -/
def matching (range : Nat) (other : List Char) :
    (position : Nat) → (taken : List Nat) → List Char → List (Option Nat)
  | _, _, [] => []
  | position, taken, c :: rest =>
    let free := (List.range other.length).find? fun j =>
      position ≤ j + range && j ≤ position + range && other[j]? == some c && !taken.contains j
    match free with
    | some j => some j :: matching range other (position + 1) (j :: taken) rest
    | none => none :: matching range other (position + 1) taken rest

/-- A fraction of two numbers. -/
structure Ratio where
  numerator : Nat
  denominator : Nat

/-- Whether one fraction is at most another. -/
def Ratio.atMost (a b : Ratio) : Bool :=
  a.numerator * b.denominator ≤ b.numerator * a.denominator

/-- The similarity of two words: the mean of the parts of both that have a match and of the part of
the matches that stand in the same order. -/
def similarity (a b : String) : Ratio :=
  let word := a.toList
  let other := b.toList
  if word.isEmpty ∧ other.isEmpty then ⟨1, 1⟩
  else
    let range := max word.length other.length / 2 - 1
    let found := matching range other 0 [] word
    let count := (found.filterMap id).length
    if count = 0 then ⟨0, 1⟩
    else
      let matched := (word.zip found).filterMap fun (c, place) => place.map fun _ => c
      let others := ((found.filterMap id).mergeSort).filterMap fun j => other[j]?
      let displaced := ((matched.zip others).filter fun (c, d) => c != d).length / 2
      let m := count
      ⟨m * m * other.length + m * m * word.length + (m - displaced) * word.length * other.length,
        3 * word.length * other.length * m⟩

/-- The least similarity of words of which one may have been meant by the other. -/
def threshold : Ratio := ⟨7, 10⟩

/-- The words that may have been meant, the most similar last. -/
def candidates (word : String) (known : List String) : List String :=
  let rated := known.map fun other => (similarity word other, other)
  let alike := rated.filter fun (rating, _) => threshold.atMost rating
  (alike.mergeSort fun a b => a.1.atMost b.1).map Prod.snd

end ClientIdentity.CommandLine.Similarity
