import ClientIdentity.Proofs.Pem.Search
import Mathlib.Logic.Function.Iterate

namespace ClientIdentity.Pem

section Steps

variable {input middle rest unread : Bytes} {finding : Finding} {found more : List Finding}

/-- Steps of the scan in a row: what they find, and what they leave unread. -/
inductive Steps : Bytes → List Finding → Bytes → Prop where
  | nil {input : Bytes} : Steps input [] input
  | cons {input rest unread : Bytes} {finding : Finding} {found : List Finding}
      (hstep : step? input = some (finding, rest)) (hlater : Steps rest found unread) :
      Steps input (finding :: found) unread

theorem Steps.single (hstep : step? input = some (finding, rest)) : Steps input [finding] rest :=
  .cons hstep .nil

theorem Steps.append (h : Steps input found middle) (hmore : Steps middle more unread) :
    Steps input (found ++ more) unread := by
  induction h with
  | nil => exact hmore
  | cons hstep _ ih => exact .cons hstep (ih hmore)

/-- The rest of `step?` is a proper suffix of its input. -/
theorem suffix_of_step? (hstep : step? input = some (finding, rest)) :
    rest <:+ input ∧ rest.length < input.length := by
  refine ⟨?_, step?_length_lt hstep⟩
  rw [← List.drop_zero (l := input)] at hstep
  obtain ⟨later, rfl⟩ := exists_drop_of_step? hstep
  exact List.drop_suffix later input

theorem Steps.suffix (h : Steps input found unread) : unread <:+ input := by
  induction h with
  | nil => exact List.suffix_rfl
  | cons hstep _ ih => exact ih.trans (suffix_of_step? hstep).1

/-- `blocks` of an input are the blocks of its first steps, followed by `blocks` of what these leave
unread. -/
theorem Steps.blocks_eq (h : Steps input found unread) :
    blocks input = found.filterMap Finding.block? ++ blocks unread := by
  induction h with
  | nil => rfl
  | @cons input rest unread finding found hstep _ ih =>
    rw [blocks_of_step?_eq_some hstep, ih, ← List.append_assoc]
    cases hfinding : finding.block? <;> simp [hfinding]

end Steps

section Calls

variable {input rest : Bytes} {outcome : Next}

/-- A call of the iterator: steps that skip malformed pieces, up to the first one that finds a block
or to the end. -/
inductive Call (input : Bytes) : Next → Prop where
  /-- It passes over what is no block, and stops behind the first block. -/
  | found {passed : List Finding} {middle unread : Bytes} {block : Block}
      (hpassed : Steps input passed middle) (hnone : ∀ finding ∈ passed, finding.block? = none)
      (hstep : step? middle = some (.block block, unread)) :
      Call input ⟨passed.filterMap Finding.malformed?, some block, unread⟩
  /-- It passes over all that is left, and stops where no begin marker is left. -/
  | ended {passed : List Finding} {unread : Bytes} (hpassed : Steps input passed unread)
      (hnone : ∀ finding ∈ passed, finding.block? = none) (hend : step? unread = none) :
      Call input ⟨passed.filterMap Finding.malformed?, none, unread⟩

theorem Call.skip {finding : Finding} (hstep : step? input = some (finding, rest))
    (hfinding : finding.block? = none) (h : Call rest outcome) :
    Call input { outcome with skipped := finding.malformed?.toList ++ outcome.skipped } := by
  have hskipped : ∀ passed : List Finding,
      finding.malformed?.toList ++ passed.filterMap Finding.malformed? =
        (finding :: passed).filterMap Finding.malformed? := by
    intro passed
    cases hmalformed : finding.malformed? <;> simp [hmalformed]
  cases h with
  | found hpassed hnone hfound =>
    rw [hskipped]
    exact .found (.cons hstep hpassed) (List.forall_mem_cons.mpr ⟨hfinding, hnone⟩) hfound
  | ended hpassed hnone hend =>
    rw [hskipped]
    exact .ended (.cons hstep hpassed) (List.forall_mem_cons.mpr ⟨hfinding, hnone⟩) hend

theorem call_next (input : Bytes) : Call input (next input) := by
  fun_induction next input with
  | case1 input hstep => exact .ended .nil (List.forall_mem_nil _) hstep
  | case2 input block rest hstep => exact .found .nil (List.forall_mem_nil _) hstep
  | case3 input malformed rest hstep later ih => exact ih.skip hstep rfl
  | case4 input rest hstep ih => exact ih.skip hstep rfl

theorem Call.exists_steps (h : Call input outcome) : ∃ found, Steps input found outcome.unread := by
  cases h with
  | found hpassed _ hstep => exact ⟨_, hpassed.append (.single hstep)⟩
  | ended hpassed _ _ => exact ⟨_, hpassed⟩

/-- A call returns the first of the blocks and leaves the others unread. -/
theorem Call.blocks_eq (h : Call input outcome) :
    outcome.block = (blocks input).head? ∧ blocks outcome.unread = (blocks input).tail := by
  cases h with
  | found hpassed hnone hstep =>
    rw [hpassed.blocks_eq, List.filterMap_eq_nil_iff.mpr hnone, blocks_of_step?_eq_some hstep]
    exact ⟨rfl, rfl⟩
  | ended hpassed hnone hend =>
    rw [hpassed.blocks_eq, List.filterMap_eq_nil_iff.mpr hnone, blocks_of_step?_eq_none hend]
    exact ⟨rfl, rfl⟩

theorem Call.step?_eq_none (h : Call input outcome) (hblock : outcome.block = none) :
    step? outcome.unread = none := by
  cases h with
  | found => cases hblock
  | ended _ _ hend => exact hend

/-- `next` without a begin marker reads nothing and returns none. -/
theorem next_of_none (h : step? input = none) : next input = ⟨[], none, input⟩ := by
  rw [next]
  split <;> rename_i hstep <;> rw [h] at hstep <;> cases hstep

end Calls

section Pursuit

variable {σ : Type} (test : σ → Block → Bool × σ) (state : σ)

/-- A search continued from the outcome of a call: it ends if there is no block or the test accepts
the block, and searches the unread input otherwise. -/
def Next.pursue (outcome : Next) : Search σ :=
  match outcome.block with
  | none => ⟨outcome.skipped, none, state⟩
  | some block =>
    match test state block with
    | (true, later) => ⟨outcome.skipped, some block, later⟩
    | (false, later) =>
      let further := search test later outcome.unread
      { further with skipped := outcome.skipped ++ further.skipped }

/-- Pieces skipped before a call are skipped before what the search makes of it. -/
theorem Next.pursue_skip (before : List Malformed) (outcome : Next) :
    Next.pursue test state { outcome with skipped := before ++ outcome.skipped } =
      { outcome.pursue test state with
        skipped := before ++ (outcome.pursue test state).skipped } := by
  unfold Next.pursue
  cases outcome.block with
  | none => rfl
  | some block =>
    cases htest : test state block with
    | mk verdict later =>
      cases verdict with
      | true => simp only [htest]
      | false => simp only [htest, List.append_assoc]

/-- `search` is `next` followed by the test, repeated until the test accepts. -/
theorem search_eq_pursue (input : Bytes) :
    search test state input = (next input).pursue test state := by
  fun_induction next input with
  | case1 input hstep => rw [search_of_none hstep, Next.pursue]
  | case2 input block rest hstep =>
    rw [search_of_block hstep, Next.pursue]
    rfl
  | case3 input malformed rest hstep later ih =>
    rw [search_of_skip hstep rfl, ih]
    exact (Next.pursue_skip test state [malformed] later).symm
  | case4 input rest hstep ih =>
    rw [search_of_skip hstep rfl, ih]
    rfl

end Pursuit

/-- An act of a user: a call of the iterator, which gives the next state for each answer, or
anything else, which may be other iterators and searches through the same input. -/
inductive Act (σ : Type) where
  | ask (proceed : Option Block → σ)
  | other (later : σ)

/-- An iterator in use: the state of its user, what it has not read, and its answers so far. -/
structure Use (σ : Type) where
  user : σ
  unread : Bytes
  answers : List (Option Block)

namespace Use

variable {σ : Type} {input : Bytes}

/-- The first use of an iterator over an input. -/
def start (user : σ) (input : Bytes) : Use σ :=
  ⟨user, input, []⟩

/-- The user does what it chooses to do in its state. -/
def act (choose : σ → Act σ) (use : Use σ) : Use σ :=
  match choose use.user with
  | .ask proceed =>
    let outcome := next use.unread
    ⟨proceed outcome.block, outcome.unread, use.answers ++ [outcome.block]⟩
  | .other later => { use with user := later }

/-- The answers are the blocks of the input in order, followed by none, and the unread input is a
suffix with the remaining blocks. -/
structure Follows (use : Use σ) (input : Bytes) : Prop where
  /-- What is unread is what steps of the scan have left. -/
  reached : ∃ found, Steps input found use.unread
  /-- Each answer is the block of the same number, and none if there are not so many blocks. -/
  answered : use.answers = (List.range use.answers.length).map fun n => (blocks input)[n]?
  /-- The blocks of what is unread are those that have not been handed out. -/
  left : blocks use.unread = (blocks input).drop use.answers.length
  /-- Behind an answer without a block nothing more is read. -/
  ended : none ∈ use.answers → step? use.unread = none

theorem follows_start (user : σ) (input : Bytes) : (start user input).Follows input where
  reached := ⟨[], .nil⟩
  answered := rfl
  left := rfl
  ended := fun hnone => absurd hnone List.not_mem_nil

/-- A call preserves `Follows`, for every user. -/
theorem Follows.call {use : Use σ} (h : use.Follows input) (user : σ) :
    Follows ⟨user, (next use.unread).unread, use.answers ++ [(next use.unread).block]⟩ input := by
  have hcall := call_next use.unread
  obtain ⟨found, hfound⟩ := h.reached
  obtain ⟨more, hmore⟩ := hcall.exists_steps
  obtain ⟨hblock, hunread⟩ := hcall.blocks_eq
  rw [h.left, List.head?_drop] at hblock
  rw [h.left, List.tail_drop] at hunread
  constructor
  case reached => exact ⟨found ++ more, hfound.append hmore⟩
  case answered =>
    rw [List.length_append, List.length_singleton, List.range_succ, List.map_append, ← h.answered,
      hblock, List.map_singleton]
  case left => rw [hunread, List.length_append, List.length_singleton]
  case ended =>
    intro hnone
    rcases List.mem_append.mp hnone with hbefore | hlast
    · rw [next_of_none (h.ended hbefore)]
      exact h.ended hbefore
    · exact hcall.step?_eq_none (List.mem_singleton.mp hlast).symm

/-- Every act of a user preserves `Follows`. -/
theorem Follows.act {use : Use σ} (h : use.Follows input) (choose : σ → Act σ) :
    (use.act choose).Follows input := by
  unfold Use.act
  cases choose use.user with
  | ask proceed => exact h.call _
  | other later => exact ⟨h.reached, h.answered, h.left, h.ended⟩

theorem follows_iterate (choose : σ → Act σ) (user : σ) (input : Bytes) (count : Nat) :
    ((Use.act choose)^[count] (start user input)).Follows input := by
  induction count with
  | zero => exact follows_start user input
  | succ count ih =>
    rw [Function.iterate_succ_apply']
    exact ih.act choose

end Use

/-- After any number of acts of any user, the answers of the iterator are a prefix of `blocks`,
followed by none for each call beyond the last block, and the blocks of the unread input are the
others. The unread input is a suffix that every step makes shorter. `search` asks its test, which
may have a state, once for each block in order until it accepts one; it returns that block, and none
exactly if the test rejects all. Nothing is assumed of the input. -/
theorem iteration_follows_scan {σ τ : Type} (input : Bytes) (choose : σ → Act σ) (user : σ)
    (count : Nat) (test : τ → Block → Bool × τ) (state : τ) :
    ((Use.act choose)^[count] (Use.start user input)).Follows input ∧
      (∀ found unread, Steps input found unread → unread <:+ input ∧ Call unread (next unread) ∧
        ∀ finding rest, step? unread = some (finding, rest) →
          rest <:+ unread ∧ rest.length < unread.length) ∧
      search test state input = (next input).pursue test state ∧
      search test state input = (recorded test state input).unrecorded ∧
      Chooses test state (blocks input) (recorded test state input).state.1
        (search test state input).found (search test state input).state ∧
      ((search test state input).found = none ↔ ∃ last, Rejects test state (blocks input) last) := by
  have hrecorded : (recorded test state input).unrecorded = search test state input :=
    unrecorded_search test [] state input
  have hchooses := chooses_recorded test state input
  have hfound := congrArg Search.found hrecorded
  have hstate := congrArg Search.state hrecorded
  simp only [Search.unrecorded] at hfound hstate
  rw [hfound, hstate] at hchooses
  refine ⟨Use.follows_iterate choose user input count, fun found unread hsteps => ?_,
    search_eq_pursue test state input, hrecorded.symm, hchooses, search_found_eq_none_iff⟩
  exact ⟨hsteps.suffix, call_next unread, fun finding rest hstep => suffix_of_step? hstep⟩

end ClientIdentity.Pem
