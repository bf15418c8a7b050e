import ClientIdentity.Pem.Scan
import ClientIdentity.Proofs.Bytes.Occurrence

namespace ClientIdentity.Pem

open Bytes

theorem beginMarker_unbordered : Unbordered beginMarker := by decide

theorem length_beginMarker : beginMarker.length = 11 := by decide

theorem endMarker_unbordered : Unbordered endMarker := by decide

theorem length_endMarker : endMarker.length = 9 := by decide

theorem length_dashes : dashes.length = 5 := by decide

theorem length_endOf (label : Bytes) : (endOf label).length = label.length + 14 := by
  simp only [endOf, List.length_append, length_endMarker, length_dashes]
  omega

/-- The label of the begin marker at a position: what stands between the marker and the first five
dashes behind it. -/
def LabelAt (data : Bytes) (start : Nat) (label : Bytes) : Prop :=
  beginMarker <+: data.drop start ∧ ∃ n,
    FirstAt dashes (data.drop (start + beginMarker.length)) n ∧
      label = (data.drop (start + beginMarker.length)).take n

theorem LabelAt.unique {data first second : Bytes} {start : Nat}
    (hfirst : LabelAt data start first) (hsecond : LabelAt data start second) : first = second := by
  obtain ⟨-, n, hn, rfl⟩ := hfirst
  obtain ⟨-, m, hm, rfl⟩ := hsecond
  rw [hn.unique hm]

/-- A block with the positions at which its segment begins and ends. -/
structure Placed where
  start : Nat
  stop : Nat
  block : Block

/-- A valid segment: it begins with a begin marker, ends with the first end marker behind that with
the same label, and holds the block. -/
structure Placed.ValidIn (placed : Placed) (data : Bytes) : Prop where
  ends : ∃ label last, LabelAt data placed.start label ∧
    FirstAt (endOf label) (data.drop placed.start) last ∧
      placed.stop = placed.start + last + (endOf label).length
  parses : Segment.parse ((data.drop placed.start).take (placed.stop - placed.start)) =
    .ok placed.block

namespace Placed.ValidIn

variable {data : Bytes} {p q : Placed}

theorem begins (h : p.ValidIn data) : beginMarker <+: data.drop p.start := by
  obtain ⟨_, _, hlabel, _⟩ := h.ends
  exact hlabel.1

theorem start_lt_stop (h : p.ValidIn data) : p.start + beginMarker.length < p.stop := by
  obtain ⟨label, last, _, _, hstop⟩ := h.ends
  rw [length_endOf] at hstop
  rw [length_beginMarker]
  omega

theorem stop_le_length (h : p.ValidIn data) : p.stop ≤ data.length := by
  obtain ⟨label, last, _, hlast, hstop⟩ := h.ends
  have hle := hlast.lt_length (by intro hnil; simpa [hnil] using length_endOf label)
  rw [List.length_drop] at hle
  have hpos := length_endOf label
  omega

/-- Two valid segments with the same start are equal. -/
theorem unique (hp : p.ValidIn data) (hq : q.ValidIn data) (hstart : p.start = q.start) : p = q := by
  obtain ⟨label, last, hlabel, hlast, hstop⟩ := hp.ends
  obtain ⟨label', last', hlabel', hlast', hstop'⟩ := hq.ends
  rw [hstart] at hlabel hlast hstop
  obtain rfl := hlabel.unique hlabel'
  rw [hlast.unique hlast', ← hstop'] at hstop
  have hparses := hp.parses
  rw [hstart, hstop, hq.parses] at hparses
  cases p
  cases q
  simp_all

end Placed.ValidIn

/-- The first valid segment that does not begin before a position. -/
structure Placed.FirstFrom (placed : Placed) (data : Bytes) (start : Nat) : Prop where
  valid : placed.ValidIn data
  le_start : start ≤ placed.start
  least : ∀ other : Placed, other.ValidIn data → start ≤ other.start → placed.start ≤ other.start

/-- The greedy choice from a position on: always the first valid segment that does not begin before
the position, and then on from its end, until there is none. -/
inductive Greedy (data : Bytes) : (start : Nat) → List Placed → Prop where
  | done {start : Nat} (hnone : ∀ p : Placed, p.ValidIn data → p.start < start) :
      Greedy data start []
  | take {start : Nat} {first : Placed} {later : List Placed}
      (hfirst : first.FirstFrom data start) (hlater : Greedy data first.stop later) :
      Greedy data start (first :: later)

/-- There is at most one greedy choice from a start. -/
theorem Greedy.unique {data : Bytes} {start : Nat} {chosen other : List Placed}
    (hchosen : Greedy data start chosen) (hother : Greedy data start other) : chosen = other := by
  induction hchosen generalizing other with
  | done hnone =>
    cases hother with
    | done => rfl
    | take hfirst => exact absurd (hnone _ hfirst.valid) (Nat.not_lt.mpr hfirst.le_start)
  | take hfirst _ ih =>
    cases hother with
    | done hnone => exact absurd (hnone _ hfirst.valid) (Nat.not_lt.mpr hfirst.le_start)
    | take hfirst' hlater' =>
      have heq := hfirst.valid.unique hfirst'.valid (Nat.le_antisymm
        (hfirst.least _ hfirst'.valid hfirst'.le_start)
        (hfirst'.least _ hfirst.valid hfirst.le_start))
      subst heq
      rw [ih hlater']

/-- The greedy choice from a later start is that from an earlier one, if no valid segment begins
between them. -/
theorem Greedy.of_none_between {data : Bytes} {start later : Nat} {chosen : List Placed}
    (hle : start ≤ later)
    (hskip : ∀ p : Placed, p.ValidIn data → start ≤ p.start → later ≤ p.start)
    (hchosen : Greedy data later chosen) : Greedy data start chosen := by
  cases hchosen with
  | done hnone =>
    refine .done fun p hp => ?_
    by_contra hnot
    have := hskip p hp (by omega)
    have := hnone p hp
    omega
  | take hfirst hlater =>
    refine .take ⟨hfirst.valid, Nat.le_trans hle hfirst.le_start, ?_⟩ hlater
    exact fun p hp hstart => hfirst.least p hp (hskip p hp hstart)

theorem Greedy.le_start {data : Bytes} {start : Nat} {chosen : List Placed}
    (hchosen : Greedy data start chosen) : ∀ p ∈ chosen, start ≤ p.start := by
  induction hchosen with
  | done => simp
  | take hfirst _ ih =>
    intro p hp
    rcases List.mem_cons.mp hp with rfl | hp
    · exact hfirst.le_start
    · have := ih p hp
      have := hfirst.valid.start_lt_stop
      have := hfirst.le_start
      omega

/-- The chosen segments are disjoint and in the order of the input. -/
theorem Greedy.pairwise {data : Bytes} {start : Nat} {chosen : List Placed}
    (hchosen : Greedy data start chosen) : chosen.Pairwise fun p q => p.stop ≤ q.start := by
  induction hchosen with
  | done => exact .nil
  | take _ hlater ih => exact .cons hlater.le_start ih

/-- Of two different chosen segments one stops before the other one starts. -/
theorem Greedy.apart {data : Bytes} {start : Nat} {chosen : List Placed}
    (hchosen : Greedy data start chosen) {p q : Placed} (hp : p ∈ chosen) (hq : q ∈ chosen) :
    p = q ∨ p.stop ≤ q.start ∨ q.stop ≤ p.start := by
  induction hchosen with
  | done => cases hp
  | take _ hlater ih =>
    rcases List.mem_cons.mp hp with rfl | hpLater <;> rcases List.mem_cons.mp hq with rfl | hqLater
    · exact .inl rfl
    · exact .inr (.inl (hlater.le_start q hqLater))
    · exact .inr (.inr (hlater.le_start p hpLater))
    · exact ih hpLater hqLater

/-- A valid segment is chosen or starts inside of a chosen one. -/
theorem Greedy.mem_or_inside {data : Bytes} {start : Nat} {chosen : List Placed}
    (hchosen : Greedy data start chosen) {p : Placed} (hp : p.ValidIn data)
    (hstart : start ≤ p.start) :
    p ∈ chosen ∨ ∃ q ∈ chosen, q.start < p.start ∧ p.start < q.stop := by
  induction hchosen with
  | done hnone => exact absurd (hnone p hp) (Nat.not_lt.mpr hstart)
  | @take _ first _ hfirst _ ih =>
    rcases Nat.lt_or_ge p.start first.stop with hinside | hbehind
    · rcases Nat.eq_or_lt_of_le (hfirst.least p hp hstart) with heq | hlt
      · exact .inl (List.mem_cons.mpr (.inl (hp.unique hfirst.valid heq.symm)))
      · exact .inr ⟨first, List.mem_cons_self, hlt, hinside⟩
    · rcases ih hbehind with hmem | ⟨q, hq, hinside⟩
      · exact .inl (List.mem_cons_of_mem _ hmem)
      · exact .inr ⟨q, List.mem_cons_of_mem _ hq, hinside⟩

/-- `segment?` returns exactly the label at a begin marker and the length up to the first end marker
of that label. -/
theorem segment?_eq_some_iff {data label : Bytes} {start length : Nat}
    (hbegin : beginMarker <+: data.drop start) :
    segment? (data.drop start) = some (label, length) ↔
      LabelAt data start label ∧ ∃ last, FirstAt (endOf label) (data.drop start) last ∧
        length = last + (endOf label).length := by
  simp only [segment?, Option.bind_eq_bind, Option.pure_def, Option.bind_eq_some_iff,
    List.drop_drop, Prod.exists, splitAt?_eq_some_iff, indexOf?_eq_some_iff, Option.some.injEq,
    Prod.mk.injEq]
  constructor
  · rintro ⟨label, _, ⟨n, hn, rfl, rfl⟩, last, hlast, rfl, rfl⟩
    exact ⟨⟨hbegin, n, hn, rfl⟩, last, hlast, rfl⟩
  · rintro ⟨⟨-, n, hn, rfl⟩, last, hlast, rfl⟩
    exact ⟨_, _, ⟨n, hn, rfl, rfl⟩, last, hlast, rfl, rfl⟩

/-- `findingAt` a begin marker finds a block exactly if a valid segment starts there, and the rest
is what stands behind it. -/
theorem findingAt_eq_block_iff {data rest : Bytes} {start : Nat} {block : Block}
    (hbegin : beginMarker <+: data.drop start) :
    findingAt (data.drop start) = (.block block, rest) ↔
      ∃ p : Placed, p.ValidIn data ∧ p.start = start ∧ p.block = block ∧
        rest = data.drop p.stop := by
  constructor
  · intro h
    unfold findingAt at h
    split at h
    · simp at h
    · rename_i label length hsegment
      obtain ⟨hlabel, last, hlast, rfl⟩ := (segment?_eq_some_iff hbegin).mp hsegment
      split at h
      · rename_i found hparse
        simp only [Prod.mk.injEq, Finding.block.injEq, List.drop_drop] at h
        obtain ⟨rfl, rfl⟩ := h
        refine ⟨⟨start, start + last + (endOf label).length, found⟩, ⟨⟨label, last, hlabel, hlast,
          rfl⟩, ?_⟩, rfl, rfl, by rw [Nat.add_assoc]⟩
        rw [show start + last + (endOf label).length - start = last + (endOf label).length by omega]
        exact hparse
      · simp at h
  · rintro ⟨p, hp, rfl, rfl, rfl⟩
    obtain ⟨label, last, hlabel, hlast, hstop⟩ := hp.ends
    have hlength : p.stop - p.start = last + (endOf label).length := by omega
    have hsegment := (segment?_eq_some_iff hbegin).mpr ⟨hlabel, last, hlast, rfl⟩
    have hparse := hp.parses
    rw [hlength] at hparse
    simp only [findingAt, hsegment, hparse, List.drop_drop, Prod.mk.injEq, true_and]
    rw [hstop, Nat.add_assoc]

/-- If `findingAt` finds no block, the rest is what stands behind the begin marker. -/
theorem findingAt_snd_of_block?_eq_none (input : Bytes)
    (h : (findingAt input).1.block? = none) :
    (findingAt input).2 = input.drop beginMarker.length := by
  unfold findingAt at h ⊢
  split
  · rfl
  · rename_i hsegment
    simp only [hsegment] at h
    split
    · rename_i hparse
      simp [hparse, Finding.block?] at h
    · rfl

/-- `step?` is `findingAt` the first begin marker. -/
theorem step?_eq_some_iff {data rest : Bytes} {start : Nat} {finding : Finding} :
    step? (data.drop start) = some (finding, rest) ↔
      ∃ place, start ≤ place ∧ beginMarker <+: data.drop place ∧
        (∀ i, start ≤ i → i < place → ¬ beginMarker <+: data.drop i) ∧
          findingAt (data.drop place) = (finding, rest) := by
  simp only [step?, Option.map_eq_some_iff, Prod.exists, splitAt?_eq_some_iff]
  constructor
  · rintro ⟨_, _, ⟨k, ⟨hat, hbefore⟩, rfl, rfl⟩, hfinding⟩
    simp only [List.drop_drop] at hat hbefore hfinding
    refine ⟨start + k, by omega, hat, fun i hle hlt hbegin => ?_, hfinding⟩
    refine hbefore (i - start) (by omega) ?_
    rwa [show start + (i - start) = i by omega]
  · rintro ⟨place, hle, hat, hbefore, hfinding⟩
    refine ⟨_, _, ⟨place - start, ⟨?_, fun j hj => ?_⟩, rfl, rfl⟩, ?_⟩
    · rwa [List.drop_drop, show start + (place - start) = place by omega]
    · rw [List.drop_drop]
      exact hbefore (start + j) (by omega) (by omega)
    · rwa [List.drop_drop, show start + (place - start) = place by omega]

/-- If `step?` fails, no valid segment is left. -/
theorem start_lt_of_step?_eq_none {data : Bytes} {start : Nat}
    (h : step? (data.drop start) = none) (p : Placed) (hp : p.ValidIn data) : p.start < start := by
  simp only [step?, Option.map_eq_none_iff, splitAt?_eq_none_iff] at h
  by_contra hnot
  refine h (p.start - start) ?_
  rw [List.drop_drop, show start + (p.start - start) = p.start by omega]
  exact hp.begins

/-- If `step?` finds a block, it is that of the first valid segment, and the rest is what stands
behind that. -/
theorem step?_block {data rest : Bytes} {start : Nat} {block : Block}
    (h : step? (data.drop start) = some (.block block, rest)) :
    ∃ p : Placed, p.FirstFrom data start ∧ p.block = block ∧ rest = data.drop p.stop := by
  obtain ⟨place, hle, hat, hbefore, hfinding⟩ := step?_eq_some_iff.mp h
  obtain ⟨p, hp, rfl, rfl, rfl⟩ := (findingAt_eq_block_iff hat).mp hfinding
  refine ⟨p, ⟨hp, hle, fun q hq hstart => ?_⟩, rfl, rfl⟩
  by_contra hnot
  exact hbefore q.start hstart (by omega) hq.begins

/-- If `step?` finds no block, no valid segment starts before the rest: none does at the marker that
it looked at, and begin markers do not overlap. -/
theorem step?_skip {data rest : Bytes} {start : Nat} {finding : Finding}
    (h : step? (data.drop start) = some (finding, rest)) (hfinding : finding.block? = none) :
    ∃ later, start + beginMarker.length ≤ later ∧ later ≤ data.length ∧ rest = data.drop later ∧
      ∀ p : Placed, p.ValidIn data → start ≤ p.start → later ≤ p.start := by
  obtain ⟨place, hle, hat, hbefore, hfound⟩ := step?_eq_some_iff.mp h
  have hrest := findingAt_snd_of_block?_eq_none (data.drop place) (by rwa [hfound])
  rw [hfound, List.drop_drop] at hrest
  have hlength := hat.length_le
  rw [List.length_drop, length_beginMarker] at hlength
  refine ⟨place + beginMarker.length, by omega, by rw [length_beginMarker]; omega, hrest,
    fun p hp hstart => ?_⟩
  rcases Nat.lt_trichotomy p.start place with hlt | heq | hgt
  · exact absurd hp.begins (hbefore p.start hstart hlt)
  · have hblock := (findingAt_eq_block_iff hat).mpr ⟨p, hp, heq, rfl, rfl⟩
    rw [hfound, Prod.mk.injEq] at hblock
    simp [hblock.1, Finding.block?] at hfinding
  · exact beginMarker_unbordered.le_of_lt hat hp.begins hgt

/-- The rest of `step?` is a suffix of the input. -/
theorem exists_drop_of_step? {data rest : Bytes} {start : Nat} {finding : Finding}
    (h : step? (data.drop start) = some (finding, rest)) : ∃ later, rest = data.drop later := by
  cases hfinding : finding.block? with
  | none =>
    obtain ⟨later, -, -, hrest, -⟩ := step?_skip h hfinding
    exact ⟨later, hrest⟩
  | some block =>
    cases finding <;> simp only [Finding.block?, reduceCtorEq, Option.some.injEq] at hfinding
    subst hfinding
    obtain ⟨p, -, -, hrest⟩ := step?_block h
    exact ⟨p.stop, hrest⟩

theorem findings_of_step?_eq_none {input : Bytes} (h : step? input = none) : findings input = [] := by
  rw [findings]
  split <;> simp_all

theorem findings_of_step?_eq_some {input rest : Bytes} {finding : Finding}
    (h : step? input = some (finding, rest)) : findings input = finding :: findings rest := by
  rw [findings]
  split
  · simp_all
  · rename_i hstep
    rw [h, Option.some.injEq, Prod.mk.injEq] at hstep
    obtain ⟨rfl, rfl⟩ := hstep
    rfl

theorem blocks_of_step?_eq_none {input : Bytes} (h : step? input = none) : blocks input = [] := by
  rw [blocks, findings_of_step?_eq_none h, List.filterMap_nil]

theorem blocks_of_step?_eq_some {input rest : Bytes} {finding : Finding}
    (h : step? input = some (finding, rest)) :
    blocks input = (finding.block?).toList ++ blocks rest := by
  rw [blocks, findings_of_step?_eq_some h]
  cases hblock : finding.block? <;> simp [blocks, hblock]

/-- `blocks` from every start are those of a greedy choice. The induction is on the length of what
is left, which `step?` makes smaller. -/
theorem exists_greedy (data : Bytes) (start : Nat) :
    ∃ chosen, Greedy data start chosen ∧ blocks (data.drop start) = chosen.map Placed.block := by
  generalize hleft : data.length - start = left
  induction left using Nat.strongRecOn generalizing start with
  | ind left ih =>
    cases hstep : step? (data.drop start) with
    | none =>
      refine ⟨[], .done (start_lt_of_step?_eq_none hstep), ?_⟩
      simpa using blocks_of_step?_eq_none hstep
    | some found =>
      obtain ⟨finding, rest⟩ := found
      have hshorter := step?_length_lt hstep
      have hblocks := blocks_of_step?_eq_some hstep
      cases hfinding : finding.block? with
      | none =>
        obtain ⟨later, hle, -, rfl, hskip⟩ := step?_skip hstep hfinding
        simp only [List.length_drop] at hshorter
        obtain ⟨chosen, hchosen, heq⟩ := ih (data.length - later) (by omega) later rfl
        refine ⟨chosen, hchosen.of_none_between (by omega) hskip, ?_⟩
        simpa [hfinding, heq] using hblocks
      | some block =>
        cases finding <;> simp only [Finding.block?, reduceCtorEq, Option.some.injEq] at hfinding
        subst hfinding
        obtain ⟨p, hp, hblock, rfl⟩ := step?_block hstep
        simp only [List.length_drop] at hshorter
        obtain ⟨chosen, hchosen, heq⟩ := ih (data.length - p.stop) (by omega) p.stop rfl
        refine ⟨p :: chosen, .take hp hchosen, ?_⟩
        simpa [Finding.block?, heq, hblock] using hblocks

/-- The first valid segment of an input is the first one of every other input with the same valid
segments up to it. -/
theorem Placed.FirstFrom.congr {data other : Bytes} {start : Nat} {p : Placed}
    (hfirst : p.FirstFrom data start)
    (hvalid : ∀ q : Placed, q.start ≤ p.start → (q.ValidIn data ↔ q.ValidIn other)) :
    p.FirstFrom other start where
  valid := (hvalid p (Nat.le_refl _)).mp hfirst.valid
  le_start := hfirst.le_start
  least q hq hstart := by
    by_contra hnot
    exact hnot (hfirst.least q ((hvalid q (by omega)).mpr hq) hstart)

/-- Inputs with the same valid segments up to a chosen one have the same choice up to it. -/
theorem Greedy.exists_of_agree {data other : Bytes} {start : Nat} {before after : List Placed}
    {p : Placed} (hchosen : Greedy data start (before ++ p :: after))
    (hvalid : ∀ q : Placed, q.start ≤ p.start → (q.ValidIn data ↔ q.ValidIn other)) :
    ∃ later, Greedy other start (before ++ p :: later) := by
  induction before generalizing start with
  | nil =>
    obtain - | ⟨hfirst, -⟩ := hchosen
    obtain ⟨later, hlater, -⟩ := exists_greedy other p.stop
    exact ⟨later, .take (hfirst.congr hvalid) hlater⟩
  | cons first before ih =>
    obtain - | ⟨hfirst, hrest⟩ := hchosen
    have hle := hrest.le_start p (List.mem_append_right _ List.mem_cons_self)
    have hlt := hfirst.valid.start_lt_stop
    obtain ⟨later, hlater⟩ := ih hrest
    exact ⟨later, .take (hfirst.congr fun q hq => hvalid q (by omega)) hlater⟩

/-- Whether a segment is chosen depends only on the valid segments up to its start. -/
theorem Greedy.mem_of_agree {data other : Bytes} {start : Nat} {chosen otherChosen : List Placed}
    {p : Placed} (hchosen : Greedy data start chosen) (hother : Greedy other start otherChosen)
    (hvalid : ∀ q : Placed, q.start ≤ p.start → (q.ValidIn data ↔ q.ValidIn other))
    (hmem : p ∈ chosen) : p ∈ otherChosen := by
  obtain ⟨before, after, rfl⟩ := List.append_of_mem hmem
  obtain ⟨later, hlater⟩ := hchosen.exists_of_agree hvalid
  rw [hother.unique hlater]
  exact List.mem_append_right _ List.mem_cons_self

/-- The block of the first valid segment from a position on with the input behind it, or none if
there is no such segment. -/
def FoundFrom (data : Bytes) (start : Nat) : Option (Block × Bytes) → Prop
  | some (block, rest) =>
    ∃ p : Placed, p.FirstFrom data start ∧ p.block = block ∧ rest = data.drop p.stop
  | none => ∀ p : Placed, p.ValidIn data → p.start < start

theorem FoundFrom.of_none_between {data : Bytes} {start later : Nat}
    {found : Option (Block × Bytes)} (hle : start ≤ later)
    (hskip : ∀ p : Placed, p.ValidIn data → start ≤ p.start → later ≤ p.start)
    (hfound : FoundFrom data later found) : FoundFrom data start found := by
  cases found with
  | none =>
    intro p hp
    by_contra hnot
    have := hskip p hp (by omega)
    have := hfound p hp
    omega
  | some found =>
    obtain ⟨p, hp, hblock, hrest⟩ := hfound
    refine ⟨p, ⟨hp.valid, Nat.le_trans hle hp.le_start, ?_⟩, hblock, hrest⟩
    exact fun q hq hstart => hp.least q hq (hskip q hq hstart)

theorem next_found_drop (data : Bytes) (start : Nat) :
    FoundFrom data start (next (data.drop start)).found := by
  generalize hinput : data.drop start = input
  fun_induction next input generalizing start with
  | case1 input hstep =>
    subst hinput
    exact start_lt_of_step?_eq_none hstep
  | case2 input block rest hstep =>
    subst hinput
    exact step?_block hstep
  | case3 input malformed rest hstep _ ih =>
    subst hinput
    obtain ⟨later, hle, -, rfl, hskip⟩ := step?_skip hstep rfl
    exact (ih later rfl).of_none_between (by omega) hskip
  | case4 input rest hstep ih =>
    subst hinput
    obtain ⟨later, hle, -, rfl, hskip⟩ := step?_skip hstep rfl
    exact (ih later rfl).of_none_between (by omega) hskip

/-- The rest of `step?` is shorter than its input by a begin marker at least. -/
theorem length_step?_le {input rest : Bytes} {finding : Finding}
    (h : step? input = some (finding, rest)) :
    rest.length + beginMarker.length ≤ input.length := by
  rw [← List.drop_zero (l := input)] at h
  cases hfinding : finding.block? with
  | none =>
    obtain ⟨later, hle, hbound, rfl, -⟩ := step?_skip h hfinding
    rw [List.length_drop]
    omega
  | some block =>
    cases finding <;> simp only [Finding.block?, reduceCtorEq, Option.some.injEq] at hfinding
    subst hfinding
    obtain ⟨p, hp, -, rfl⟩ := step?_block h
    have hstop := hp.valid.start_lt_stop
    have hbound := hp.valid.stop_le_length
    rw [List.length_drop]
    omega

/-- `findings` has at most as many elements as begin markers fit into the input. -/
theorem length_findings_le (input : Bytes) :
    (findings input).length * beginMarker.length ≤ input.length := by
  fun_induction findings input with
  | case1 => simp
  | case2 input finding rest hstep ih =>
    have hlength := length_step?_le hstep
    rw [List.length_cons, Nat.succ_mul]
    omega

/-- `blocks` returns the blocks of the greedy choice among the valid segments, and there is exactly
one such choice. Its segments are disjoint and in order, and a valid segment outside of it starts
inside of one of them. Each call of `next` returns the first valid segment that is left. This holds
of every input, and `findings` is bounded by its length. -/
theorem blocks_eq_greedy (data : Bytes) :
    ∃ chosen, (∀ other, Greedy data 0 other ↔ other = chosen) ∧
      blocks data = chosen.map Placed.block ∧
      (∀ start, FoundFrom data start (next (data.drop start)).found) ∧
      (chosen.Pairwise fun p q => p.stop ≤ q.start) ∧
      (∀ p : Placed, p.ValidIn data →
        p ∈ chosen ∨ ∃ q ∈ chosen, q.start < p.start ∧ p.start < q.stop) ∧
      (findings data).length * beginMarker.length ≤ data.length := by
  obtain ⟨chosen, hchosen, hblocks⟩ := exists_greedy data 0
  rw [List.drop_zero] at hblocks
  refine ⟨chosen, fun other => ⟨fun hother => hother.unique hchosen, ?_⟩, hblocks,
    next_found_drop data, hchosen.pairwise, ?_, length_findings_le data⟩
  · rintro rfl
    exact hchosen
  · exact fun p hp => hchosen.mem_or_inside hp (Nat.zero_le _)

end ClientIdentity.Pem
