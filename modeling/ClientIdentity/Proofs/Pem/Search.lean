import ClientIdentity.Proofs.Pem.Greedy

namespace ClientIdentity.Pem

variable {σ : Type}

section Steps

variable {test : σ → Block → Bool × σ} {state : σ} {input rest : Bytes}

theorem search_of_none (h : step? input = none) : search test state input = ⟨[], none, state⟩ := by
  rw [search]
  split <;> rename_i hstep <;> rw [h] at hstep <;> cases hstep

/-- `search` asks the test about the block of a step, and goes on if this rejects it. -/
theorem search_of_block {block : Block} (h : step? input = some (.block block, rest)) :
    search test state input =
      match test state block with
      | (true, later) => ⟨[], some block, later⟩
      | (false, later) => search test later rest := by
  rw [search]
  split <;> rename_i hstep <;> rw [h] at hstep <;> cases hstep
  rfl

/-- `search` skips the finding of a step that is no block. -/
theorem search_of_skip {finding : Finding} (h : step? input = some (finding, rest))
    (hfinding : finding.block? = none) :
    search test state input =
      { search test state rest with
        skipped := finding.malformed?.toList ++ (search test state rest).skipped } := by
  rw [search]
  split <;> rename_i hstep <;> rw [h] at hstep <;> cases hstep
  · cases hfinding
  · rfl
  · rfl

end Steps

/-- The first block of a list that a test with a state accepts, and the state that it is left in. -/
def accept (test : σ → Block → Bool × σ) : σ → List Block → Option Block × σ
  | state, [] => (none, state)
  | state, block :: rest =>
    match test state block with
    | (true, later) => (some block, later)
    | (false, later) => accept test later rest

/-- `search` of an input is `accept` of its blocks. -/
theorem search_eq_accept (test : σ → Block → Bool × σ) (state : σ) (input : Bytes) :
    ((search test state input).found, (search test state input).state) =
      accept test state (blocks input) := by
  fun_induction search test state input with
  | case1 state input hstep => rw [blocks_of_step?_eq_none hstep, accept]
  | case2 state input block rest hstep later htest =>
    rw [blocks_of_step?_eq_some hstep, Finding.block?, Option.toList_some, List.singleton_append,
      accept, htest]
  | case3 state input block rest hstep later htest ih =>
    rw [blocks_of_step?_eq_some hstep, Finding.block?, Option.toList_some, List.singleton_append,
      accept, htest]
    exact ih
  | case4 state input malformed rest hstep later ih =>
    rw [blocks_of_step?_eq_some hstep]
    exact ih
  | case5 state input rest hstep ih =>
    rw [blocks_of_step?_eq_some hstep]
    exact ih

/-- `accept` of a test without a state is `find?` of lists. -/
theorem accept_eq_find? (property : Block → Bool) (blocks : List Block) :
    (accept (fun _ block => (property block, ())) () blocks).1 = blocks.find? property := by
  induction blocks with
  | nil => rfl
  | cons block rest ih =>
    rw [accept, List.find?_cons]
    cases property block with
    | true => rfl
    | false => exact ih

/-- `find?` returns the first of the blocks with the property. -/
theorem find?_found (property : Block → Bool) (input : Bytes) :
    (find? property input).found = (blocks input).find? property := by
  rw [← accept_eq_find?, ← search_eq_accept]
  rfl

section Asked

/-- A test rejects blocks about which it is asked in turn, once about each of them. -/
inductive Rejects (test : σ → Block → Bool × σ) : σ → List Block → σ → Prop where
  | nil {state : σ} : Rejects test state [] state
  | cons {state later last : σ} {block : Block} {rest : List Block}
      (hblock : test state block = (false, later)) (hrest : Rejects test later rest last) :
      Rejects test state (block :: rest) last

/-- How `accept` of a list ends: the blocks that the test is asked about in turn, the block that it
accepts, and its last state. -/
inductive Chooses (test : σ → Block → Bool × σ) (state : σ) :
    (among asked : List Block) → Option Block → σ → Prop where
  /-- It accepts the block behind those that it rejects, and is asked about none behind that. -/
  | accepts {before after : List Block} {block : Block} {middle last : σ}
      (hbefore : Rejects test state before middle) (hblock : test middle block = (true, last)) :
      Chooses test state (before ++ block :: after) (before ++ [block]) (some block) last
  /-- It rejects all. -/
  | rejects {among : List Block} {last : σ} (hall : Rejects test state among last) :
      Chooses test state among among none last

/-- A test that keeps a record of the blocks that it is asked about. -/
def recording (test : σ → Block → Bool × σ) (memory : List Block × σ) (block : Block) :
    Bool × (List Block × σ) :=
  let answer := test memory.2 block
  (answer.1, memory.1 ++ [block], answer.2)

/-- A search with the record of its test. -/
def recorded (test : σ → Block → Bool × σ) (state : σ) (input : Bytes) : Search (List Block × σ) :=
  search (recording test) ([], state) input

/-- The outcome without the record. -/
def Search.unrecorded (outcome : Search (List Block × σ)) : Search σ :=
  ⟨outcome.skipped, outcome.found, outcome.state.2⟩

variable {test : σ → Block → Bool × σ} {state later last : σ} {block : Block}
  {among rest asked : List Block} {found : Option Block}

theorem Chooses.cons (hblock : test state block = (false, later))
    (h : Chooses test later rest asked found last) :
    Chooses test state (block :: rest) (block :: asked) found last := by
  cases h with
  | accepts hbefore haccepted => exact .accepts (.cons hblock hbefore) haccepted
  | rejects hall => exact .rejects (.cons hblock hall)

/-- `accept` with a recording test returns what the test alone does, and the record grows by the
blocks it is asked about. -/
theorem exists_chooses (test : σ → Block → Bool × σ) (record : List Block) (state : σ)
    (among : List Block) :
    ∃ asked found last, Chooses test state among asked found last ∧
      accept (recording test) (record, state) among = (found, record ++ asked, last) := by
  induction among generalizing record state with
  | nil => exact ⟨[], none, state, .rejects .nil, by rw [accept, List.append_nil]⟩
  | cons block rest ih =>
    cases htest : test state block with
    | mk verdict later =>
      cases verdict with
      | true =>
        have hnone : Rejects test state [] state := .nil
        refine ⟨[block], some block, later, .accepts hnone htest, ?_⟩
        simp only [accept, recording, htest]
      | false =>
        obtain ⟨asked, found, last, hchooses, haccept⟩ := ih (record ++ [block]) later
        refine ⟨block :: asked, found, last, hchooses.cons htest, ?_⟩
        simp only [accept, recording, htest]
        rw [haccept, List.append_assoc, List.singleton_append]

/-- `search` asks its test about the blocks in order, until it accepts one. -/
theorem chooses_recorded (test : σ → Block → Bool × σ) (state : σ) (input : Bytes) :
    Chooses test state (blocks input) (recorded test state input).state.1
      (recorded test state input).found (recorded test state input).state.2 := by
  obtain ⟨asked, found, last, hchooses, haccept⟩ := exists_chooses test [] state (blocks input)
  rw [← search_eq_accept, List.nil_append, Prod.mk.injEq] at haccept
  rw [recorded, haccept.1, haccept.2]
  exact hchooses

/-- `search` with a recording test, without the record, is `search` with the test alone. -/
theorem unrecorded_search (test : σ → Block → Bool × σ) (record : List Block) (state : σ)
    (input : Bytes) :
    (search (recording test) (record, state) input).unrecorded = search test state input := by
  fun_induction search test state input generalizing record with
  | case1 state input hstep => rw [search_of_none hstep, Search.unrecorded]
  | case2 state input block rest hstep later htest =>
    simp only [search_of_block hstep, recording, htest, Search.unrecorded]
  | case3 state input block rest hstep later htest ih =>
    simp only [search_of_block hstep, recording, htest]
    exact ih (record ++ [block])
  | case4 state input malformed rest hstep later ih =>
    rw [search_of_skip hstep rfl, Search.unrecorded]
    simp only [later, ← ih record]
    rfl
  | case5 state input rest hstep ih =>
    rw [search_of_skip hstep rfl]
    exact ih record

/-- A test rejects a list of blocks exactly if `accept` returns none of them. -/
theorem rejects_iff : Rejects test state among last ↔ accept test state among = (none, last) := by
  induction among generalizing state with
  | nil =>
    constructor
    · rintro ⟨⟩
      rfl
    · rintro ⟨⟩
      exact .nil
  | cons block rest ih =>
    rw [accept]
    constructor
    · rintro ⟨⟩
      rename_i hblock hrest
      rw [hblock]
      exact ih.mp hrest
    · intro haccept
      split at haccept
      · cases haccept
      · rename_i hblock
        exact .cons hblock (ih.mpr haccept)

/-- `search` returns none exactly if the test rejects all blocks of the input. -/
theorem search_found_eq_none_iff {input : Bytes} :
    (search test state input).found = none ↔ ∃ last, Rejects test state (blocks input) last := by
  simp only [rejects_iff, ← search_eq_accept, Prod.mk.injEq, exists_and_left, exists_eq',
    and_true]

end Asked

end ClientIdentity.Pem
