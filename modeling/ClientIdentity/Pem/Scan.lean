import ClientIdentity.Pem.Segment

namespace ClientIdentity.Pem

/-- A piece of input that looks like a block and does not decode. -/
structure Malformed where
  label : Bytes
  fault : Segment.Fault
  deriving DecidableEq, Repr

/-- What stands at a begin marker. -/
inductive Finding where
  | block (block : Block)
  | malformed (malformed : Malformed)
  /-- The marker's line does not end, or no end marker has its label. -/
  | unterminated
  deriving DecidableEq, Repr

namespace Finding

def block? : Finding → Option Block
  | .block found => some found
  | _ => none

def malformed? : Finding → Option Malformed
  | .malformed found => some found
  | _ => none

end Finding

/-- The label behind the begin marker of an input, and the length of the segment that it begins. -/
def segment? (input : Bytes) : Option (Bytes × Nat) := do
  let (label, _) ← Bytes.splitAt? dashes (input.drop beginMarker.length)
  let position ← Bytes.indexOf? (endOf label) input
  return (label, position + (endOf label).length)

/-- What stands at the begin marker of an input, and the input behind it. -/
def findingAt (input : Bytes) : Finding × Bytes :=
  match segment? input with
  | none => (.unterminated, input.drop beginMarker.length)
  | some (label, length) =>
    match Segment.parse (input.take length) with
    | .ok block => (.block block, input.drop length)
    | .error fault => (.malformed ⟨label, fault⟩, input.drop beginMarker.length)

/-- One step of the scan: what stands at the first begin marker, and the input behind it. -/
def step? (input : Bytes) : Option (Finding × Bytes) :=
  (Bytes.splitAt? beginMarker input).map fun (_, found) => findingAt found

theorem length_findingAt_lt {input : Bytes} (h : input ≠ []) :
    (findingAt input).2.length < input.length := by
  have hpos := List.length_pos_iff.mpr h
  have hmarker : 0 < beginMarker.length := by decide
  unfold findingAt
  split
  · simp only [List.length_drop]
    omega
  · rename_i label length hsegment
    have hlength : 0 < length := by
      unfold segment? at hsegment
      simp only [Option.bind_eq_bind, Option.bind_eq_some_iff, Option.pure_def,
        Option.some.injEq, Prod.mk.injEq] at hsegment
      obtain ⟨_, _, _, _, rfl, rfl⟩ := hsegment
      have : 0 < endMarker.length := by decide
      simp only [endOf, List.length_append]
      omega
    split <;> simp only [List.length_drop] <;> omega

/-- The rest that a step of the scan leaves is shorter than its input. -/
theorem step?_length_lt {input rest : Bytes} {finding : Finding}
    (h : step? input = some (finding, rest)) : rest.length < input.length := by
  unfold step? Bytes.splitAt? at h
  simp only [Option.map_map, Option.map_eq_some_iff] at h
  obtain ⟨i, hi, h⟩ := h
  have hlt := Bytes.indexOf?_lt (by decide) hi
  have hne : input.drop i ≠ [] := by
    intro hnil
    have := congrArg List.length hnil
    simp only [List.length_drop, List.length_nil] at this
    omega
  have := length_findingAt_lt hne
  simp only [Function.comp_apply] at h
  rw [h] at this
  simp only [List.length_drop] at this
  omega

/-- Everything that stands at begin markers, in order. -/
def findings (input : Bytes) : List Finding :=
  match _h : step? input with
  | none => []
  | some (finding, rest) => finding :: findings rest
termination_by input.length
decreasing_by exact step?_length_lt _h

/-- All blocks of an input, in order. -/
def blocks (input : Bytes) : List Block :=
  (findings input).filterMap Finding.block?

/-- The outcome of asking for the next block: what was passed over on the way, the block if there is
one, and what is left unread. -/
structure Next where
  skipped : List Malformed
  block : Option Block
  unread : Bytes

/-- The block that was found, with the input behind it. -/
def Next.found (outcome : Next) : Option (Block × Bytes) :=
  outcome.block.map fun block => (block, outcome.unread)

/-- Goes on to the next block. If there is none, what is left unread holds no begin marker. -/
def next (input : Bytes) : Next :=
  match _h : step? input with
  | none => ⟨[], none, input⟩
  | some (.block block, rest) => ⟨[], some block, rest⟩
  | some (.malformed malformed, rest) =>
    let later := next rest
    { later with skipped := malformed :: later.skipped }
  | some (.unterminated, rest) => next rest
termination_by input.length
decreasing_by all_goals exact step?_length_lt _h

/-- The outcome of a search: what was passed over on the way, the block that was accepted, and the
state that the test was left in. -/
structure Search (σ : Type) where
  skipped : List Malformed
  found : Option Block
  state : σ

/-- Finds the first block that a test accepts. The test has a state, which it may change each time
it is asked. -/
def search {σ : Type} (test : σ → Block → Bool × σ) (state : σ) (input : Bytes) : Search σ :=
  match _h : step? input with
  | none => ⟨[], none, state⟩
  | some (.block block, rest) =>
    match test state block with
    | (true, state) => ⟨[], some block, state⟩
    | (false, state) => search test state rest
  | some (.malformed malformed, rest) =>
    let later := search test state rest
    { later with skipped := malformed :: later.skipped }
  | some (.unterminated, rest) => search test state rest
termination_by input.length
decreasing_by all_goals exact step?_length_lt _h

/-- The first block with a property. -/
def find? (property : Block → Bool) (input : Bytes) : Search Unit :=
  search (fun _ block => (property block, ())) () input

end ClientIdentity.Pem
