import ClientIdentity.Proofs.Pem.Search
import ClientIdentity.Proofs.Pem.Segment

namespace ClientIdentity.Pem

open Bytes

/-- `blocks` of an input without a begin marker is empty. -/
theorem blocks_of_absent {input : Bytes} (h : ¬ beginMarker <:+: input) : blocks input = [] :=
  blocks_of_step?_eq_none (by rw [step?, splitAt?_eq_none_of_not_infix h, Option.map_none])

theorem not_beginMarker_infix_ending (ending : LineEnding) : ¬ beginMarker <:+: ending.bytes := by
  intro h
  have hdash : 0x2D ∈ ending.bytes := h.subset (by decide)
  rcases mem_ending hdash with h | h <;> cases h

section Framed

variable {tag : Bytes} {lines : List Bytes} {ending : LineEnding}

/-- Lines are closed by the last one: the mark of their tag does not end in front of it, whatever
follows. -/
def Closed (ending : LineEnding) (tag : Bytes) (lines : List Bytes) : Prop :=
  ∀ rest, FirstAt (endOf tag) (framed ending tag lines ++ rest)
    ((beginLine tag ++ ending.bytes).length + (joinLines ending lines).length)

/-- Lines without end markers are closed under every tag. -/
theorem closed_of_unmarked (htag : ¬ dashes <:+: tag)
    (hlines : ∀ line ∈ lines, ¬ endMarker <:+: line) : Closed ending tag lines := by
  intro rest
  refine FirstAt.of_prefix (firstAt_endMarker_framed htag hlines ending rest)
    (endMarker_prefix_endOf tag) ?_
  simp only [framed, ← List.length_append, List.append_assoc _ (endOf _)]
  rw [List.drop_left]
  exact List.prefix_append _ _

/-- Lines without the end marker of the tag are closed, if the tag is one line. -/
theorem closed_of_single (htag : ¬ dashes <:+: tag) (hsingle : 0x0A ∉ tag)
    (hlines : ∀ line ∈ lines, ¬ endOf tag <:+: line) : Closed ending tag lines := by
  have hbegin : ¬ endOf tag <:+: beginLine tag := fun h =>
    not_endMarker_infix_beginLine htag ((endMarker_prefix_endOf tag).isInfix.trans h)
  exact firstAt_framed (withinLine_endOf hsingle) ending hbegin hlines List.prefix_rfl

variable (htag : Undashed tag) (hclosed : Closed ending tag lines)

include htag hclosed

/-- `segment?` of closed framed lines returns their tag and all of their length. -/
theorem segment?_framed (rest : Bytes) :
    segment? (framed ending tag lines ++ rest) = some (tag, (framed ending tag lines).length) := by
  have hdrop : (framed ending tag lines ++ rest).drop beginMarker.length =
      tag ++ dashes ++ (ending.bytes ++ (joinLines ending lines ++ (endOf tag ++ rest))) := by
    simp only [framed, beginLine, List.append_assoc, List.drop_left]
  have hlabel : splitAt? dashes ((framed ending tag lines ++ rest).drop beginMarker.length) =
      some (tag, dashes ++ (ending.bytes ++ (joinLines ending lines ++ (endOf tag ++ rest)))) := by
    rw [hdrop, splitAt?_eq_some_iff]
    refine ⟨tag.length, htag.firstAt_dashes _, ?_, ?_⟩
    · rw [List.append_assoc, List.take_left]
    · rw [List.append_assoc, List.drop_left]
  have hend := indexOf?_eq_some_iff.mpr (hclosed rest)
  have hlength : (framed ending tag lines).length = (beginLine tag ++ ending.bytes).length +
      (joinLines ending lines).length + (endOf tag).length := by
    simp only [framed, List.length_append]
  simp only [segment?, hlabel, hend, Option.bind_eq_bind, Option.bind_some, Option.pure_def, hlength]

variable {block : Block} (hparse : Segment.parse (framed ending tag lines) = .ok block)

include hparse

theorem findingAt_framed (rest : Bytes) :
    findingAt (framed ending tag lines ++ rest) = (.block block, rest) := by
  simp only [findingAt, segment?_framed htag hclosed, List.take_left, List.drop_left, hparse]

/-- `step?` finds framed lines behind bytes without a begin marker, and leaves what follows their
last dash. -/
theorem step?_framed {gap : Bytes} (hgap : ¬ beginMarker <:+: gap) (rest : Bytes) :
    step? (gap ++ framed ending tag lines ++ rest) = some (.block block, rest) := by
  have hmarker : ∃ tail, framed ending tag lines ++ rest = beginMarker ++ tail := by
    simp only [framed, beginLine, List.append_assoc]
    exact ⟨_, rfl⟩
  obtain ⟨tail, htail⟩ := hmarker
  have hsplit : splitAt? beginMarker (gap ++ framed ending tag lines ++ rest) =
      some (gap, framed ending tag lines ++ rest) := by
    rw [splitAt?_eq_some_iff]
    refine ⟨gap.length, ?_, ?_, ?_⟩
    · rw [List.append_assoc, htail]
      exact beginMarker_unbordered.firstAt_append hgap tail
    · rw [List.append_assoc, List.take_left]
    · rw [List.append_assoc, List.drop_left]
  simp only [step?, hsplit, Option.map_some, findingAt_framed htag hclosed hparse]

/-- `blocks` of framed lines alone returns their one block. -/
theorem blocks_framed : blocks (framed ending tag lines ++ ending.bytes) = [block] := by
  have hnone : ¬ beginMarker <:+: ([] : Bytes) := by decide
  have hstep := step?_framed htag hclosed hparse hnone ending.bytes
  rw [List.nil_append] at hstep
  rw [blocks_of_step?_eq_some hstep, blocks_of_absent (not_beginMarker_infix_ending ending)]
  rfl

end Framed

variable {block : Block} (hblock : block.Writable) (ending : LineEnding)

include hblock

theorem Block.Writable.closed : Closed ending (Utf8.encode block.tag) block.bodyLines :=
  closed_of_unmarked hblock.undashed hblock.not_endMarker_infix_bodyLines

theorem Block.Writable.parse_segment : Segment.parse (block.segment ending) = .ok block := by
  rw [Segment.parse_written hblock.scanned, hblock.trimmed_eq]

theorem findingAt_written (rest : Bytes) :
    findingAt (block.segment ending ++ rest) = (.block block, rest) :=
  findingAt_framed hblock.undashed_tag (hblock.closed ending) (hblock.parse_segment ending) rest

/-- `step?` finds a written block behind bytes without a begin marker, and leaves what follows its
last dash. -/
theorem step?_written {gap : Bytes} (hgap : ¬ beginMarker <:+: gap) (rest : Bytes) :
    step? (gap ++ block.segment ending ++ rest) = some (.block block, rest) :=
  step?_framed hblock.undashed_tag (hblock.closed ending) (hblock.parse_segment ending) hgap rest

/-- `blocks` of the text of a writable block returns the block alone. -/
theorem Block.Writable.blocks_encode : blocks (block.encode ending) = [block] := by
  rw [block.encode_eq]
  exact blocks_framed hblock.undashed_tag (hblock.closed ending) (hblock.parse_segment ending)

/-- `find?` returns a written block behind bytes without a begin marker if it has the property, and
searches the rest otherwise. -/
theorem find?_written {gap : Bytes} (hgap : ¬ beginMarker <:+: gap) (property : Block → Bool)
    (rest : Bytes) :
    find? property (gap ++ block.encode ending ++ rest) =
      if property block then ⟨[], some block, ()⟩ else find? property (ending.bytes ++ rest) := by
  have hstep := step?_written hblock ending hgap (ending.bytes ++ rest)
  rw [← List.append_assoc, List.append_assoc gap, ← block.encode_eq] at hstep
  rw [find?, search_of_block hstep]
  cases property block <;> rfl

omit hblock

/-- `find?` in the text of writable blocks returns the first one with the property and skips
nothing. -/
theorem find?_encodeAll {property : Block → Bool} {before : List Block}
    (hbefore : ∀ b ∈ before, b.trimmed.Writable ∧ property b.trimmed = false) {wanted : Block}
    (hwanted : wanted.Writable) (hproperty : property wanted = true) {gap : Bytes}
    (hgap : ¬ beginMarker <:+: gap) (rest : Bytes) :
    find? property (gap ++ encodeAll ending (before ++ [wanted]) ++ rest) =
      ⟨[], some wanted, ()⟩ := by
  induction before generalizing gap with
  | nil =>
    have hone : encodeAll ending ([] ++ [wanted]) = wanted.encode ending := by
      simp [encodeAll]
    rw [hone, find?_written hwanted ending hgap, if_pos hproperty]
  | cons first before ih =>
    simp only [List.forall_mem_cons] at hbefore
    obtain ⟨⟨hfirst, hother⟩, hbefore⟩ := hbefore
    have hsplit : encodeAll ending (first :: before ++ [wanted]) =
        first.trimmed.encode ending ++ encodeAll ending (before ++ [wanted]) := by
      rw [first.encode_trimmed]
      simp [encodeAll]
    have hrest := ih hbefore (not_beginMarker_infix_ending ending)
    rw [hsplit, ← List.append_assoc, List.append_assoc _ _ rest,
      find?_written hfirst ending hgap, hother, if_neg Bool.false_ne_true,
      ← List.append_assoc, hrest]

end ClientIdentity.Pem
