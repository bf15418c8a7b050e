import ClientIdentity.Proofs.Pem.Scanned

namespace ClientIdentity.Pem

open Bytes

/-- How a valid segment is put together: its begin line, the white space behind that, its payload and
its end marker. -/
structure Placed.Built (placed : Placed) (data gap payload : Bytes) : Prop where
  /-- Its parts stand in the input, one behind the other. -/
  stands : beginLine (Utf8.encode placed.block.tag) ++ gap ++ payload ++
    endOf (Utf8.encode placed.block.tag) <+: data.drop placed.start
  stop_eq : placed.stop = placed.start + (beginLine (Utf8.encode placed.block.tag)).length +
    gap.length + payload.length + (endOf (Utf8.encode placed.block.tag)).length
  /-- The end marker with its tag is the first such behind the begin line. -/
  first : FirstAt (endOf (Utf8.encode placed.block.tag)) (data.drop placed.start)
    ((beginLine (Utf8.encode placed.block.tag)).length + gap.length + payload.length)
  tag : Undashed (Utf8.encode placed.block.tag)
  gap : ∀ b ∈ gap, Segment.isGap b = true
  /-- All the white space behind the begin line is in the gap. -/
  head : ∀ b ∈ (payload ++ endOf (Utf8.encode placed.block.tag)).head?, Segment.isGap b = false
  /-- The matcher stops at the end marker. -/
  read : Segment.readUntil? endMarker (payload ++ endOf (Utf8.encode placed.block.tag)) =
    some (payload, Utf8.encode placed.block.tag ++ dashes)
  decodes : Segment.contents (Segment.divide payload).2 = .ok placed.block.contents
  headed : Segment.headerLines (Segment.divide payload).1 = .ok placed.block.headerLines

/-- The label of a begin line is the undashed label it is made of. -/
theorem labelAt_of_beginLine {data label : Bytes} {start : Nat} (hlabel : Undashed label)
    (h : beginLine label <+: data.drop start) : LabelAt data start label := by
  obtain ⟨more, hmore⟩ := h
  have hbehind : data.drop (start + beginMarker.length) = label ++ dashes ++ more := by
    rw [← List.drop_drop, ← hmore, beginLine]
    simp only [List.append_assoc, List.drop_left]
  refine ⟨?_, label.length, hbehind ▸ hlabel.firstAt_dashes more, ?_⟩
  · rw [← hmore, beginLine]
    simp only [List.append_assoc]
    exact List.prefix_append _ _
  · rw [hbehind, List.append_assoc, List.take_left]

namespace Segment

/-- A segment that `parse` accepts is a begin line, white space, a payload and the end marker of its
tag, and more. -/
theorem exists_parts_of_parse {segment : Bytes} {block : Block} (hbegin : beginMarker <+: segment)
    (h : parse segment = .ok block) :
    ∃ gap payload rest, segment = beginLine (Utf8.encode block.tag) ++ gap ++ payload ++
        endOf (Utf8.encode block.tag) ++ rest ∧
      (∀ b ∈ gap, isGap b = true) ∧
      (∀ b ∈ (payload ++ endOf (Utf8.encode block.tag)).head?, isGap b = false) ∧
      readUntil? endMarker (payload ++ endOf (Utf8.encode block.tag) ++ rest) =
        some (payload, Utf8.encode block.tag ++ dashes ++ rest) ∧
      contents (divide payload).2 = .ok block.contents ∧
      headerLines (divide payload).1 = .ok block.headerLines := by
  unfold parse at h
  split at h
  · cases h
  rename_i parts hcut
  obtain ⟨htag, -, hend, hcontents, hheaders⟩ := toBlock_eq_ok_iff.mp h
  rw [text_eq_ok_iff] at htag hend
  obtain ⟨tag, payload, endTag⟩ := parts
  dsimp only at htag hend hcontents hheaders
  subst htag hend
  obtain ⟨front, behindMarker, behindTag, behindPayload, rest, hmarker, hlabel, hpayload, hlast⟩ :=
    cut?_eq_some_iff.mp hcut
  -- The begin marker at the beginning of the segment is the one that the matcher comes to.
  obtain ⟨more, rfl⟩ := hbegin
  have hfirst := readUntil?_append (Skips.nil beginMarker) more
  rw [List.nil_append] at hfirst
  obtain ⟨rfl, rfl⟩ := Prod.mk.inj (Option.some.inj (hfirst.symm.trans hmarker))
  obtain ⟨hbehindMarker, -⟩ := readUntil?_eq_some hlabel
  obtain ⟨hbehindTag, -⟩ := readUntil?_eq_some hpayload
  obtain ⟨rfl, -⟩ := readUntil?_eq_some hlast
  have hparted : behindTag.dropWhile isGap = payload ++ endOf (Utf8.encode block.tag) ++ rest := by
    rw [hbehindTag, endOf]
    simp only [List.append_assoc]
  have hbehind : behindTag = behindTag.takeWhile isGap ++
      (payload ++ endOf (Utf8.encode block.tag) ++ rest) := by
    rw [← hparted, List.takeWhile_append_dropWhile]
  refine ⟨behindTag.takeWhile isGap, payload, rest, ?_, ?_, ?_, ?_, hcontents, hheaders⟩
  · generalize behindTag.takeWhile isGap = gap at hbehind
    rw [hbehindMarker, hbehind, beginLine]
    simp only [List.append_assoc]
  · exact fun b hb => List.mem_takeWhile_imp hb
  · intro b hb
    have hhead := List.head?_dropWhile_not isGap behindTag
    rw [hparted, List.head?_append, Option.mem_def.mp hb] at hhead
    simpa using hhead
  · rw [← hparted]
    exact hpayload

end Segment

/-- A valid segment is built from white space and a payload, and its label is its tag. -/
theorem Placed.ValidIn.exists_built {data : Bytes} {p : Placed} (h : p.ValidIn data) :
    ∃ gap payload, p.Built data gap payload := by
  obtain ⟨label, last, hlabel, hlast, hstop⟩ := h.ends
  have hle := h.stop_le_length
  set segment := (data.drop p.start).take (p.stop - p.start) with hsegment
  have hlength : segment.length = last + (endOf label).length := by
    rw [hsegment, List.length_take, List.length_drop]
    omega
  have hbegin : beginMarker <+: segment := by
    refine List.prefix_of_prefix_length_le hlabel.1 (List.take_prefix _ _) ?_
    rw [hlength, length_beginMarker, length_endOf]
    omega
  obtain ⟨gap, payload, rest, heq, hgap, hhead, hread, hdecodes, hheaded⟩ :=
    Segment.exists_parts_of_parse hbegin h.parses
  have htag := (Segment.scanned_of_parse h.parses).tag
  have hprefix : segment <+: data.drop p.start := List.take_prefix _ _
  have hsame : label = Utf8.encode p.block.tag := by
    refine hlabel.unique (labelAt_of_beginLine htag (List.IsPrefix.trans ?_ hprefix))
    rw [heq]
    simp only [List.append_assoc]
    exact List.prefix_append _ _
  subst hsame
  -- The end marker that the matcher comes to is not in front of the first one, and not behind it.
  have hat : endOf (Utf8.encode p.block.tag) <+: (data.drop p.start).drop
      (beginLine (Utf8.encode p.block.tag) ++ gap ++ payload).length := by
    obtain ⟨more, hmore⟩ := hprefix
    rw [← hmore, heq, List.append_assoc _ rest, List.append_assoc _ (endOf _), List.drop_left]
    exact List.prefix_append _ _
  have hlength' := congrArg List.length heq
  have hbefore := mt (hlast.2 _) (not_not.mpr hat)
  simp only [List.length_append] at hbefore hlength' hat
  have hrest : rest = [] := List.length_eq_zero_iff.mp (by omega)
  subst hrest
  rw [List.append_nil] at heq hread
  rw [List.append_nil] at hread
  refine ⟨gap, payload, heq ▸ hprefix, ?_, ?_, htag, hgap, hhead, hread, hdecodes,
    hheaded⟩
  · omega
  · rwa [show (beginLine (Utf8.encode p.block.tag)).length + gap.length + payload.length = last by
      omega]

theorem length_beginLine (tag : Bytes) : (beginLine tag).length = tag.length + 16 := by
  simp only [beginLine, List.length_append, length_beginMarker, length_dashes]
  omega

/-- An undashed label ends no later than at the first dashes behind its start. -/
theorem Undashed.le_of_dashes {data label : Bytes} {i j : Nat} (hlabel : Undashed label)
    (hat : label ++ Pem.dashes <+: data.drop i) (hdashes : Pem.dashes <+: data.drop j) (hle : i ≤ j) :
    i + label.length ≤ j := by
  obtain ⟨rest, hrest⟩ := hat
  have hfirst := hlabel.firstAt_dashes rest
  rw [hrest] at hfirst
  by_contra hnot
  refine hfirst.2 (j - i) (by omega) ?_
  rwa [List.drop_drop, Nat.add_sub_cancel' hle]

/-- Where the end marker of a segment stands. -/
def Placed.last (placed : Placed) : Nat :=
  placed.stop - (endOf (Utf8.encode placed.block.tag)).length

namespace Placed.Built

variable {data gap payload : Bytes} {p : Placed} (h : p.Built data gap payload)

include h

theorem last_eq : p.last =
    p.start + (beginLine (Utf8.encode p.block.tag)).length + gap.length + payload.length := by
  rw [Placed.last, h.stop_eq, Nat.add_sub_cancel]

theorem stop_eq_last : p.stop = p.last + 14 + (Utf8.encode p.block.tag).length := by
  rw [h.last_eq, h.stop_eq, length_endOf]
  omega

theorem beginLine_at : beginLine (Utf8.encode p.block.tag) <+: data.drop p.start := by
  refine List.IsPrefix.trans ?_ h.stands
  simp only [List.append_assoc]
  exact List.prefix_append _ _

theorem begins : beginMarker <+: data.drop p.start := by
  refine List.IsPrefix.trans ?_ h.beginLine_at
  rw [beginLine, List.append_assoc]
  exact List.prefix_append _ _

theorem tag_at : Utf8.encode p.block.tag ++ dashes <+: data.drop (p.start + beginMarker.length) := by
  refine prefix_drop_of_append ?_
  rw [← List.append_assoc]
  exact h.beginLine_at

theorem gap_at : gap ++ (payload ++ endOf (Utf8.encode p.block.tag)) <+:
    data.drop (p.start + (beginLine (Utf8.encode p.block.tag)).length) := by
  refine prefix_drop_of_append ?_
  simpa only [List.append_assoc] using h.stands

theorem payload_at : payload ++ endOf (Utf8.encode p.block.tag) <+:
    data.drop (p.start + (beginLine (Utf8.encode p.block.tag)).length + gap.length) :=
  prefix_drop_of_append h.gap_at

theorem endOf_at : endOf (Utf8.encode p.block.tag) <+: data.drop p.last := by
  rw [h.last_eq]
  exact prefix_drop_of_append h.payload_at

theorem endMarker_at : endMarker <+: data.drop p.last :=
  (endMarker_prefix_endOf _).trans h.endOf_at

theorem endTag_at : Utf8.encode p.block.tag ++ dashes <+: data.drop (p.last + endMarker.length) := by
  refine prefix_drop_of_append ?_
  rw [← List.append_assoc]
  exact h.endOf_at

end Placed.Built

/-- A segment is valid whatever follows it. -/
theorem Placed.ValidIn.append_congr {first rest : Bytes} {p : Placed} (other : Bytes)
    (h : p.ValidIn (first ++ rest)) (hstop : p.stop ≤ first.length) :
    p.ValidIn (first ++ other) := by
  obtain ⟨gap, payload, hbuilt⟩ := h.exists_built
  have hends := hbuilt.stop_eq
  have hdrop : ∀ more : Bytes, (first ++ more).drop p.start = first.drop p.start ++ more :=
    fun more => List.drop_append_of_le_length (by omega)
  refine ⟨⟨_, (beginLine (Utf8.encode p.block.tag)).length + gap.length + payload.length,
    labelAt_of_beginLine hbuilt.tag ?_, ?_, by rw [hends]; omega⟩, ?_⟩
  · have hbegin := hbuilt.beginLine_at
    rwa [prefix_drop_append_iff (by omega)] at hbegin ⊢
  · have hfirst := hbuilt.first
    rw [hdrop, FirstAt.append_iff _ (by rw [List.length_drop]; omega)] at hfirst ⊢
    exact hfirst
  · have htake : ∀ more : Bytes, ((first ++ more).drop p.start).take (p.stop - p.start) =
        (first.drop p.start).take (p.stop - p.start) := by
      intro more
      rw [hdrop, List.take_append_of_le_length (by rw [List.length_drop]; omega)]
    rw [htake, ← htake rest]
    exact h.parses

namespace Placed.Built

variable {data gap payload : Bytes} {p : Placed} (h : p.Built data gap payload)

include h

/-- White space right behind the begin line is part of the gap. -/
theorem gap_ne_nil {b : UInt8} (hb : Segment.isGap b = true)
    (hat : beginLine (Utf8.encode p.block.tag) ++ [b] <+: data.drop p.start) : gap ≠ [] := by
  rintro rfl
  have hbehind := prefix_drop_of_append hat
  have hpayload := h.payload_at
  have hhead := h.head
  rw [List.length_nil, Nat.add_zero] at hpayload
  have hne : payload ++ endOf (Utf8.encode p.block.tag) ≠ [] := by
    intro hnil
    have hlength := congrArg List.length hnil
    rw [List.length_append, length_endOf] at hlength
    simp at hlength
  obtain ⟨c, more, hcons⟩ := List.exists_cons_of_ne_nil hne
  rw [hcons] at hpayload hhead
  have hfirst : [c] <+: data.drop (p.start + (beginLine (Utf8.encode p.block.tag)).length) :=
    List.IsPrefix.trans (List.prefix_append [c] more) hpayload
  obtain rfl : c = b := List.singleton_inj.mp
    ((List.prefix_of_prefix_length_le hfirst hbehind (Nat.le_refl _)).eq_of_length rfl)
  have hnot := hhead c rfl
  rw [hb] at hnot
  cases hnot

/-- The payload of a segment starts no later than behind the dashes of the next begin marker: the
label ends at these dashes at the latest, and the letter behind them is no white space. -/
theorem payload_start_le {j : Nat} (hbegin : beginMarker <+: data.drop j) (hlt : p.start < j) :
    p.start + (beginLine (Utf8.encode p.block.tag)).length + gap.length ≤ j + dashes.length := by
  have hapart := beginMarker_unbordered.le_of_lt h.begins hbegin hlt
  rw [beginMarker_eq] at hbegin
  have hdashes : dashes <+: data.drop j := (List.prefix_append _ _).trans hbegin
  have hlabel := h.tag.le_of_dashes h.tag_at hdashes hapart
  have hletter : [0x42] <+: data.drop (j + dashes.length) :=
    List.IsPrefix.trans (by decide) (prefix_drop_of_append hbegin)
  have hline := length_beginLine (Utf8.encode p.block.tag)
  rw [length_beginMarker] at hlabel
  rw [length_dashes] at hletter ⊢
  have hfree : 0x42 ∉ gap := fun hmem => absurd (h.gap _ hmem) (by decide)
  exact end_le_of_not_mem ((List.prefix_append _ _).trans h.gap_at) hletter hfree (by omega)

/-- The end marker of a segment starts no later than that of a segment that starts behind it. The
matcher stops at the first one that it sees, and the white space behind the second begin line resets
it. -/
theorem last_le {otherGap otherPayload : Bytes} {q : Placed}
    (hq : q.Built data otherGap otherPayload) (hgap : otherGap ≠ []) (hlt : p.start < q.start) :
    p.last ≤ q.last := by
  by_contra hnot
  have hstart := h.payload_start_le hq.begins hlt
  have hapart := endMarker_unbordered.le_of_lt hq.endMarker_at h.endMarker_at (by omega)
  have hline := length_beginLine (Utf8.encode q.block.tag)
  have hqlast := hq.last_eq
  have hplast := h.last_eq
  rw [length_dashes] at hstart
  obtain ⟨front, b, rfl⟩ := (List.eq_nil_or_concat otherGap).resolve_left hgap
  rw [List.concat_eq_append] at *
  have hbreak : b ∉ endMarker.dropLast := by
    intro hmem
    have hnone : ∀ b ∈ endMarker.dropLast, Segment.isGap b = false := by decide +kernel
    have hb := hq.gap b (List.mem_append_right _ List.mem_cons_self)
    rw [hnone b hmem] at hb
    cases hb
  have hrun : b :: (otherPayload ++ endMarker) <+:
      data.drop (q.start + (beginLine (Utf8.encode q.block.tag)).length + front.length) := by
    refine prefix_drop_of_append (List.IsPrefix.trans ?_ hq.gap_at)
    simp only [endOf, List.append_assoc, List.prefix_append_right_inj, List.cons_append,
      List.nil_append, List.cons_prefix_cons, true_and]
    exact List.prefix_append _ _
  rw [List.length_append, List.length_singleton] at hqlast
  obtain ⟨more, hmore⟩ := prefix_drop_of_within ((List.prefix_append _ _).trans h.payload_at) hrun
    (by omega) (by rw [List.length_cons, List.length_append]; omega)
  have hunmatched := Segment.unmatched_of_readUntil? (by decide) h.read
  rw [← List.take_append_drop _ payload, ← hmore, List.cons_append] at hunmatched
  exact Segment.not_unmatched_of_readUntil? hq.read (hunmatched.behind hbreak).of_append

/-- A segment stops no later than a segment that starts behind it. -/
theorem stop_le {otherGap otherPayload : Bytes} {q : Placed}
    (hq : q.Built data otherGap otherPayload) (hgap : otherGap ≠ []) (hlt : p.start < q.start) :
    p.stop ≤ q.stop := by
  rw [h.stop_eq_last, hq.stop_eq_last]
  rcases Nat.eq_or_lt_of_le (h.last_le hq hgap hlt) with hsame | hbefore
  · -- Both labels end at the first dashes behind the one end marker.
    have hdashes := prefix_drop_of_append hq.endTag_at
    rw [← hsame] at hdashes
    have hle := h.tag.le_of_dashes h.endTag_at hdashes (by omega)
    omega
  · have hapart := endMarker_unbordered.le_of_lt h.endMarker_at hq.endMarker_at hbefore
    have hdashes : dashes <+: data.drop q.last := by
      refine List.IsPrefix.trans ?_ hq.endMarker_at
      rw [endMarker_eq]
      exact List.prefix_append _ _
    have hle := h.tag.le_of_dashes h.endTag_at hdashes hapart
    rw [length_endMarker] at hle
    omega

end Placed.Built

/-- A valid segment stops no later than one that starts at the same place or behind, if white space
follows the begin line of that one. -/
theorem Placed.ValidIn.stop_le {data : Bytes} {p q : Placed} {b : UInt8} (hp : p.ValidIn data)
    (hq : q.ValidIn data) (hb : Segment.isGap b = true)
    (hat : beginLine (Utf8.encode q.block.tag) ++ [b] <+: data.drop q.start)
    (hle : p.start ≤ q.start) : p.stop ≤ q.stop := by
  rcases Nat.eq_or_lt_of_le hle with heq | hlt
  · rw [hp.unique hq heq]
  · obtain ⟨gap, payload, hpBuilt⟩ := hp.exists_built
    obtain ⟨otherGap, otherPayload, hqBuilt⟩ := hq.exists_built
    exact hpBuilt.stop_le hqBuilt (hqBuilt.gap_ne_nil hb hat) hlt

end ClientIdentity.Pem
