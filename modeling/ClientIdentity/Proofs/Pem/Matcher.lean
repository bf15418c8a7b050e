import ClientIdentity.Pem.Segment
import ClientIdentity.Proofs.Bytes.Occurrence

namespace ClientIdentity.Pem.Segment

/-- The matcher goes through a piece of input without a match, and forgets about it: whatever
follows, the whole marker is pending again behind the piece. -/
def Skips (marker piece : Bytes) : Prop :=
  ∀ position rest, matchEnd? marker marker position (piece ++ rest) =
    matchEnd? marker marker (position + piece.length) rest

theorem Skips.nil (marker : Bytes) : Skips marker [] := fun _ _ => rfl

theorem Skips.append {marker first second : Bytes} (hfirst : Skips marker first)
    (hsecond : Skips marker second) : Skips marker (first ++ second) := by
  intro position rest
  rw [List.append_assoc, hfirst, hsecond, List.length_append, Nat.add_assoc]

/-- The matcher skips bytes without the first byte of the marker. -/
theorem Skips.of_not_mem {b : UInt8} {marker piece : Bytes} (h : b ∉ piece) :
    Skips (b :: marker) piece := by
  induction piece with
  | nil => exact .nil _
  | cons c piece ih =>
    rw [List.mem_cons, not_or] at h
    intro position rest
    rw [List.cons_append, matchEnd?, if_neg (Ne.symm h.1), ih h.2, List.length_cons]
    congr 1
    omega

/-- `matchEnd?` of the pending bytes themselves stops right behind them. -/
theorem matchEnd?_append (marker pending : Bytes) (position : Nat) (rest : Bytes) :
    matchEnd? marker pending position (pending ++ rest) = some (position + pending.length) := by
  induction pending generalizing position with
  | nil => simp [matchEnd?]
  | cons expected pending ih =>
    rw [List.cons_append, matchEnd?, if_pos rfl, ih, List.length_cons]
    congr 1
    omega

/-- `readUntil?` of a skipped piece and the marker returns the piece and what stands behind the
marker. -/
theorem readUntil?_append {marker before : Bytes} (h : Skips marker before) (rest : Bytes) :
    readUntil? marker (before ++ marker ++ rest) = some (before, rest) := by
  rw [readUntil?, List.append_assoc, h, matchEnd?_append, Option.map_some]
  simp

/-- What `matchEnd?` takes ends with the marker, and no shorter beginning of the input matches. -/
theorem matchEnd?_spec {marker done pending input : Bytes} {position stop : Nat}
    (hmarker : marker = done ++ pending)
    (h : matchEnd? marker pending position input = some stop) :
    ∃ taken rest, input = taken ++ rest ∧ stop = position + taken.length ∧
      marker <:+ done ++ taken ∧
        ∀ n < taken.length, matchEnd? marker pending position (taken.take n) = none := by
  induction input generalizing done pending position with
  | nil =>
    cases pending with
    | nil =>
      simp only [matchEnd?, Option.some.injEq] at h
      exact ⟨[], [], rfl, h.symm, by rw [hmarker], by simp⟩
    | cons => simp [matchEnd?] at h
  | cons c input ih =>
    cases pending with
    | nil =>
      simp only [matchEnd?, Option.some.injEq] at h
      exact ⟨[], c :: input, rfl, h.symm, by rw [hmarker], by simp⟩
    | cons expected pending =>
      rw [matchEnd?] at h
      have hnext : ∃ later, marker = later ++ (if c = expected then pending else marker) ∧
          later <:+ done ++ [c] := by
        split_ifs with hmatch
        · exact ⟨done ++ [c], by simp [hmarker, hmatch], List.suffix_rfl⟩
        · exact ⟨[], rfl, List.nil_suffix⟩
      obtain ⟨later, hlater, hsuffix⟩ := hnext
      obtain ⟨taken, rest, rfl, rfl, hend, hbefore⟩ := ih hlater h
      refine ⟨c :: taken, rest, rfl, by rw [List.length_cons]; omega, ?_, fun n hn => ?_⟩
      · obtain ⟨front, hfront⟩ := hsuffix
        have hwhole : later ++ taken <:+ done ++ c :: taken :=
          ⟨front, by rw [← List.append_assoc, hfront]; simp⟩
        exact hend.trans hwhole
      · cases n with
        | zero => rfl
        | succ n =>
          rw [List.take_succ_cons, matchEnd?]
          exact hbefore n (by simpa using hn)

/-- If `matchEnd?` succeeds, the marker is an infix of the input. -/
theorem infix_of_matchEnd? {marker input : Bytes} {position stop : Nat}
    (h : matchEnd? marker marker position input = some stop) : marker <:+: input := by
  obtain ⟨taken, rest, rfl, -, hend, -⟩ := matchEnd?_spec (List.nil_append _).symm h
  rw [List.nil_append] at hend
  exact hend.isInfix.trans (List.prefix_append taken rest).isInfix

/-- The matcher goes through an input without a match. This is weaker than that the marker does not
stand in the input, since the matcher may miss it. -/
def Unmatched (marker input : Bytes) : Prop :=
  matchEnd? marker marker 0 input = none

instance (marker input : Bytes) : Decidable (Unmatched marker input) :=
  inferInstanceAs (Decidable (_ = _))

theorem unmatched_of_absent {marker input : Bytes} (h : ¬ marker <:+: input) :
    Unmatched marker input := by
  rw [Unmatched, Option.eq_none_iff_forall_ne_some]
  exact fun stop hstop => h (infix_of_matchEnd? hstop)

theorem readUntil?_eq_none {marker input : Bytes} (h : ¬ marker <:+: input) :
    readUntil? marker input = none := by
  rw [readUntil?, unmatched_of_absent h, Option.map_none]

/-- Whether `matchEnd?` fails does not depend on the position it counts from. -/
theorem matchEnd?_eq_none_congr {marker pending input : Bytes} {position : Nat} (other : Nat)
    (h : matchEnd? marker pending position input = none) :
    matchEnd? marker pending other input = none := by
  induction input generalizing pending position other with
  | nil =>
    cases pending with
    | nil => simp [matchEnd?] at h
    | cons => rfl
  | cons c input ih =>
    cases pending with
    | nil => simp [matchEnd?] at h
    | cons expected pending =>
      rw [matchEnd?] at h ⊢
      exact ih (other + 1) h

/-- If `matchEnd?` fails on an input, it fails on every prefix of it. -/
theorem matchEnd?_eq_none_of_append {marker pending first rest : Bytes} {position : Nat}
    (h : matchEnd? marker pending position (first ++ rest) = none) :
    matchEnd? marker pending position first = none := by
  induction first generalizing pending position with
  | nil =>
    cases pending with
    | nil => simp [matchEnd?] at h
    | cons => rfl
  | cons c first ih =>
    cases pending with
    | nil => simp [matchEnd?] at h
    | cons expected pending =>
      rw [List.cons_append, matchEnd?] at h
      rw [matchEnd?]
      exact ih h

theorem Unmatched.of_append {marker first rest : Bytes} (h : Unmatched marker (first ++ rest)) :
    Unmatched marker first :=
  matchEnd?_eq_none_of_append h

/-- If `matchEnd?` fails on an input, no marker is matched behind a byte that is not in the marker,
its last byte apart. -/
theorem unmatched_of_matchEnd? {marker done pending before after : Bytes} {b : UInt8}
    {position : Nat} (hb : b ∉ marker.dropLast) (hmarker : marker = done ++ pending)
    (h : matchEnd? marker pending position (before ++ b :: after) = none) :
    Unmatched marker after := by
  induction before generalizing done pending position with
  | nil =>
    cases pending with
    | nil => simp [matchEnd?] at h
    | cons expected pending =>
      rw [List.nil_append, matchEnd?] at h
      split_ifs at h with hmatch
      · -- A byte that only ends the marker would have completed the match.
        cases pending with
        | nil => simp [matchEnd?] at h
        | cons next pending =>
          refine absurd ?_ hb
          rw [hmatch, hmarker, List.dropLast_append_of_ne_nil (by simp)]
          simp
      · exact matchEnd?_eq_none_congr 0 h
  | cons c before ih =>
    cases pending with
    | nil => simp [matchEnd?] at h
    | cons expected pending =>
      rw [List.cons_append, matchEnd?] at h
      split_ifs at h with hmatch
      · have hnext : marker = (done ++ [expected]) ++ pending := by simpa using hmarker
        exact ih hnext h
      · exact ih (List.nil_append _).symm h

theorem Unmatched.behind {marker before after : Bytes} {b : UInt8} (hb : b ∉ marker.dropLast)
    (h : Unmatched marker (before ++ b :: after)) : Unmatched marker after :=
  unmatched_of_matchEnd? hb (List.nil_append _).symm h

/-- An unmatched input does not begin with the marker. -/
theorem Unmatched.not_prefix {marker input : Bytes} (h : Unmatched marker input) :
    ¬ marker <+: input := by
  rintro ⟨rest, rfl⟩
  have hmatch := matchEnd?_append marker marker 0 rest
  rw [Unmatched, hmatch] at h
  cases h

/-- `matchEnd?` starts anew behind a byte that is not in the marker, from any state in which the
bytes before that have no match. -/
theorem matchEnd?_append_cons {marker pending line : Bytes} {b : UInt8} (hb : b ∉ marker)
    (hpending : pending <:+ marker) {position : Nat}
    (hline : matchEnd? marker pending position line = none) (rest : Bytes) :
    matchEnd? marker pending position (line ++ b :: rest) =
      matchEnd? marker marker (position + line.length + 1) rest := by
  induction line generalizing pending position with
  | nil =>
    cases pending with
    | nil => simp [matchEnd?] at hline
    | cons expected pending =>
      have hne : b ≠ expected := by
        rintro rfl
        exact hb (hpending.subset List.mem_cons_self)
      rw [List.nil_append, matchEnd?, if_neg hne, List.length_nil, Nat.add_zero]
  | cons c line ih =>
    cases pending with
    | nil => simp [matchEnd?] at hline
    | cons expected pending =>
      have hnext : (if c = expected then pending else marker) <:+ marker := by
        split_ifs
        · exact (List.suffix_cons expected pending).trans hpending
        · exact List.suffix_rfl
      rw [matchEnd?] at hline
      rw [List.cons_append, matchEnd?, ih hnext hline, List.length_cons]
      congr 1
      omega

/-- The matcher skips an unmatched line with a byte behind it that is not in the marker. -/
theorem Skips.of_unmatched {marker line : Bytes} {b : UInt8} (hb : b ∉ marker)
    (hline : Unmatched marker line) : Skips marker (line ++ [b]) := by
  intro position rest
  have hnone := matchEnd?_eq_none_congr position hline
  rw [List.append_assoc, List.singleton_append, matchEnd?_append_cons hb List.suffix_rfl hnone,
    List.length_append, List.length_singleton, Nat.add_assoc]

theorem Skips.of_line {marker line : Bytes} {b : UInt8} (hb : b ∉ marker)
    (hline : ¬ marker <:+: line) : Skips marker (line ++ [b]) :=
  .of_unmatched hb (unmatched_of_absent hline)

/-- Two unmatched inputs with a byte between them that is not in the marker are unmatched. -/
theorem Unmatched.append_cons {marker line rest : Bytes} {b : UInt8} (hb : b ∉ marker)
    (hline : Unmatched marker line) (hrest : Unmatched marker rest) :
    Unmatched marker (line ++ b :: rest) := by
  rw [Unmatched, matchEnd?_append_cons hb List.suffix_rfl hline]
  exact matchEnd?_eq_none_congr _ hrest

/-- `readUntil?` splits its input around a marker, and no match ends before that one does. -/
theorem readUntil?_eq_some {marker input before after : Bytes}
    (h : readUntil? marker input = some (before, after)) :
    input = before ++ marker ++ after ∧
      ∀ n < (before ++ marker).length, Unmatched marker ((before ++ marker).take n) := by
  obtain ⟨stop, hstop, hparts⟩ := Option.map_eq_some_iff.mp h
  obtain ⟨taken, rest, rfl, rfl, ⟨front, hfront⟩, hbefore⟩ :=
    matchEnd?_spec (List.nil_append _).symm hstop
  rw [List.nil_append] at hfront
  subst hfront
  obtain ⟨hfirst, hrest⟩ := Prod.mk.inj hparts
  have hlength : 0 + (front ++ marker).length - marker.length = front.length := by
    rw [List.length_append]
    omega
  rw [hlength, List.append_assoc, List.take_left] at hfirst
  rw [Nat.zero_add, List.drop_left] at hrest
  subst hfirst hrest
  exact ⟨rfl, hbefore⟩

/-- Both parts that `readUntil?` returns are infixes of its input. -/
theorem infix_of_readUntil? {marker input before after : Bytes}
    (h : readUntil? marker input = some (before, after)) : before <:+: input ∧ after <:+: input := by
  rw [(readUntil?_eq_some h).1]
  refine ⟨?_, (List.suffix_append _ _).isInfix⟩
  rw [List.append_assoc]
  exact (List.prefix_append _ _).isInfix

/-- The part in front of the marker is unmatched. -/
theorem unmatched_of_readUntil? {marker input before after : Bytes} (hmarker : marker ≠ [])
    (h : readUntil? marker input = some (before, after)) : Unmatched marker before := by
  have hpos := List.length_pos_iff.mpr hmarker
  have hbefore := (readUntil?_eq_some h).2 before.length (by rw [List.length_append]; omega)
  rwa [List.take_left] at hbefore

theorem le_of_matchEnd? {marker pending input : Bytes} {position stop : Nat}
    (h : matchEnd? marker pending position input = some stop) : position ≤ stop := by
  induction input generalizing pending position with
  | nil =>
    cases pending with
    | nil => exact (Option.some.inj h).le
    | cons => simp [matchEnd?] at h
  | cons c input ih =>
    cases pending with
    | nil => exact (Option.some.inj h).le
    | cons expected pending =>
      rw [matchEnd?] at h
      exact Nat.le_of_succ_le (ih h)

/-- A match of `matchEnd?` does not depend on the bytes behind it. -/
theorem matchEnd?_of_append {marker pending first rest : Bytes} {position stop : Nat}
    (hstop : stop ≤ position + first.length)
    (h : matchEnd? marker pending position (first ++ rest) = some stop) :
    matchEnd? marker pending position first = some stop := by
  induction first generalizing pending position with
  | nil =>
    cases pending with
    | nil => simpa [matchEnd?] using h
    | cons expected pending =>
      cases rest with
      | nil => simp [matchEnd?] at h
      | cons c rest =>
        rw [List.nil_append, matchEnd?] at h
        have hle := le_of_matchEnd? h
        rw [List.length_nil] at hstop
        omega
  | cons c first ih =>
    cases pending with
    | nil => simpa [matchEnd?] using h
    | cons expected pending =>
      rw [List.cons_append, matchEnd?] at h
      rw [matchEnd?]
      exact ih (by rw [List.length_cons] at hstop; omega) h

/-- The part in front of the marker and the marker itself are matched, whatever follows. -/
theorem not_unmatched_of_readUntil? {marker input before after : Bytes}
    (h : readUntil? marker input = some (before, after)) :
    ¬ Unmatched marker (before ++ marker) := by
  obtain ⟨hinput, -⟩ := readUntil?_eq_some h
  obtain ⟨stop, hstop, hparts⟩ := Option.map_eq_some_iff.mp h
  obtain ⟨taken, rest, htaken, hlength, -, -⟩ := matchEnd?_spec (List.nil_append _).symm hstop
  have hrest : rest = after := by
    rw [← (Prod.mk.inj hparts).2, htaken, hlength, Nat.zero_add, List.drop_left]
  rw [hrest, hinput, List.append_cancel_right_eq] at htaken
  rw [hinput] at hstop
  rw [Unmatched, matchEnd?_of_append (by rw [htaken]; omega) hstop]
  exact Option.some_ne_none _

/-- A byte that is not in the marker is in the part behind the match, if the bytes after it are
unmatched. -/
theorem mem_of_readUntil? {marker front rest before after : Bytes} {b : UInt8} (hb : b ∉ marker)
    (hrest : Unmatched marker rest) (h : readUntil? marker (front ++ b :: rest) = some (before, after)) :
    b ∈ after := by
  obtain ⟨hinput, hbefore⟩ := readUntil?_eq_some h
  have hmatched : before ++ marker <+: front ++ b :: rest := by
    rw [hinput]
    exact List.prefix_append _ _
  rcases Nat.lt_or_ge front.length (before ++ marker).length with hlong | hshort
  · -- The match would end behind the byte, where the whole marker is pending again.
    have hfront : (before ++ marker).take front.length = front := by
      obtain ⟨more, hmore⟩ := hmatched
      rw [← List.take_append_of_le_length hlong.le, hmore, List.take_left]
    have hnone := (hfront ▸ hbefore _ hlong).append_cons hb hrest
    rw [readUntil?, hnone] at h
    cases h
  · obtain ⟨middle, rfl⟩ :=
      List.prefix_of_prefix_length_le hmatched (List.prefix_append _ _) hshort
    rw [List.append_assoc] at hinput
    rw [← List.append_cancel_left hinput]
    exact List.mem_append_right _ List.mem_cons_self

/-- `matchEnd?` succeeds on every input with an infix of `size` equal bytes, if these are the
marker. -/
theorem matchEnd?_replicate_ne_none {b : UInt8} {size pending position : Nat} {input : Bytes}
    (hpending : pending ≤ size) (h : List.replicate size b <:+: input) :
    matchEnd? (List.replicate size b) (List.replicate pending b) position input ≠ none := by
  induction input generalizing pending position with
  | nil =>
    have hsize : size = 0 := by simpa using h.length_le
    obtain rfl : pending = 0 := by omega
    simp [matchEnd?]
  | cons c input ih =>
    cases pending with
    | zero => simp [matchEnd?]
    | succ pending =>
      rw [List.infix_cons_iff] at h
      rcases h with ⟨rest, hfront⟩ | hlater
      · -- What is pending comes next, though perhaps not as the first copy of the marker.
        have hsplit : c :: input = List.replicate (pending + 1) b ++
            (List.replicate (size - (pending + 1)) b ++ rest) := by
          rw [← List.append_assoc, List.replicate_append_replicate, ← hfront]
          congr 2
          omega
        rw [hsplit, matchEnd?_append]
        exact Option.some_ne_none _
      · rw [List.replicate_succ, matchEnd?]
        split_ifs
        · exact ih (by omega) hlater
        · exact ih (Nat.le_refl _) hlater

/-- The part in front of a marker of equal bytes does not hold the marker and does not end in its
byte. -/
theorem readUntil?_replicate {b : UInt8} {size : Nat} {input before after : Bytes}
    (hsize : 0 < size) (h : readUntil? (List.replicate size b) input = some (before, after)) :
    ¬ List.replicate size b <:+: before ∧ before.getLast? ≠ some b := by
  obtain ⟨-, hbefore⟩ := readUntil?_eq_some h
  have hnone : ∀ n < (before ++ List.replicate size b).length,
      ¬ List.replicate size b <:+: (before ++ List.replicate size b).take n :=
    fun n hn hinfix => matchEnd?_replicate_ne_none (Nat.le_refl _) hinfix (hbefore n hn)
  constructor
  · intro hinfix
    refine hnone before.length (by rw [List.length_append, List.length_replicate]; omega) ?_
    rwa [List.take_left]
  · intro hlast
    obtain ⟨front, rfl⟩ := List.getLast?_eq_some_iff.mp hlast
    refine hnone (front ++ List.replicate size b).length (by simp) ?_
    have hsplit : front ++ [b] ++ List.replicate size b =
        (front ++ List.replicate size b) ++ [b] := by
      rw [List.append_assoc, List.append_assoc, List.singleton_append, ← List.replicate_succ,
        List.replicate_succ']
    rw [hsplit, List.take_left]
    exact (List.suffix_append _ _).isInfix

/-- `cut?` is five times `readUntil?`, with the white space in front of the payload dropped. -/
theorem cut?_eq_some_iff {segment : Bytes} {parts : Parts} :
    cut? segment = some parts ↔
      ∃ front behindMarker behindTag behindPayload rest,
        readUntil? beginMarker segment = some (front, behindMarker) ∧
        readUntil? dashes behindMarker = some (parts.beginTag, behindTag) ∧
        readUntil? endMarker (behindTag.dropWhile isGap) = some (parts.payload, behindPayload) ∧
        readUntil? dashes behindPayload = some (parts.endTag, rest) := by
  simp only [cut?, Option.bind_eq_bind, Option.bind_eq_some_iff, Option.pure_def,
    Option.some.injEq, Prod.exists]
  constructor
  · rintro ⟨front, behindMarker, hbegin, tag, behindTag, htag, payload, behindPayload, hpayload,
      endTag, rest, hend, rfl⟩
    exact ⟨front, behindMarker, behindTag, behindPayload, rest, hbegin, htag, hpayload, hend⟩
  · rintro ⟨front, behindMarker, behindTag, behindPayload, rest, hbegin, htag, hpayload, hend⟩
    exact ⟨front, behindMarker, hbegin, _, behindTag, htag, _, behindPayload, hpayload, _, rest,
      hend, rfl⟩

/-- The parts that `cut?` returns are infixes of the segment. -/
theorem infix_of_cut? {segment : Bytes} {parts : Parts} (h : cut? segment = some parts) :
    parts.beginTag <:+: segment ∧ parts.payload <:+: segment ∧ parts.endTag <:+: segment := by
  obtain ⟨_, _, _, _, _, hbegin, htag, hpayload, hend⟩ := cut?_eq_some_iff.mp h
  have hmarker := (infix_of_readUntil? hbegin).2
  have hbehind := (infix_of_readUntil? htag).2.trans hmarker
  have hgap := (List.dropWhile_suffix isGap).isInfix.trans hbehind
  have hlast := (infix_of_readUntil? hpayload).2.trans hgap
  exact ⟨(infix_of_readUntil? htag).1.trans hmarker, (infix_of_readUntil? hpayload).1.trans hgap,
    (infix_of_readUntil? hend).1.trans hlast⟩

end ClientIdentity.Pem.Segment
