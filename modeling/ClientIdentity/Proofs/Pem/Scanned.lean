import ClientIdentity.Proofs.Pem.Greedy
import ClientIdentity.Proofs.Pem.Written
import ClientIdentity.Proofs.Run
import ClientIdentity.Proofs.Text.Split

namespace ClientIdentity.Pem

open Bytes

/-- A header line as the scan hands it out: it has a colon, it is one line, and the matcher goes
through it without coming upon an end marker. Carriage returns and begin markers may stand in it. -/
structure ScannedLine (line : String) : Prop where
  named : (Block.header? line).isSome
  single : 0x0A ∉ Utf8.encode line
  unmatched : Segment.Unmatched endMarker (Utf8.encode line)

/-- A block as the scan hands it out. Nothing is known of its contents, and line breaks and single
dashes may stand in its tag. -/
structure Block.Scanned (block : Block) : Prop where
  tag : Undashed (Utf8.encode block.tag)
  lines : ∀ line ∈ block.headerLines, ScannedLine line

section Written

/-- The last byte of a white space character is in no end marker, the blank at the end apart. -/
theorem getLast_utf8EncodeChar_of_blank {c : Char} (hc : Blank.isBlank c = true) :
    ∃ front b, String.utf8EncodeChar c = front ++ [b] ∧ b ∉ endMarker.dropLast := by
  have hne : String.utf8EncodeChar c ≠ [] := by
    intro hnil
    have hlength := congrArg List.length hnil
    rw [String.length_utf8EncodeChar] at hlength
    exact absurd hlength (Nat.ne_of_gt c.utf8Size_pos)
  obtain ⟨front, b, hbytes⟩ := List.eq_nil_or_concat _ |>.resolve_left hne
  rw [List.concat_eq_append] at hbytes
  refine ⟨front, b, hbytes, fun hb => ?_⟩
  have hall : ∀ b ∈ endMarker.dropLast, b < 128 ∧ Blank.isBlank (Char.ofNat b.toNat) = false := by
    decide +kernel
  obtain ⟨hsmall, hblank⟩ := hall b hb
  have hchar := Utf8.eq_ofNat_of_mem_utf8EncodeChar hsmall
    (hbytes ▸ List.mem_append_right front (List.mem_singleton_self b))
  rw [hchar, hblank] at hc
  cases hc

variable {line : String}

/-- The bytes of a line are those of its trimmed form with bytes around them, the front ones with no
end of an end marker pending. -/
theorem exists_encode_trim (line : String) :
    ∃ before after, Utf8.encode line = before ++ Utf8.encode (Blank.trim line) ++ after ∧
      (before = [] ∨ ∃ front b, before = front ++ [b] ∧ b ∉ endMarker.dropLast) := by
  obtain ⟨before, after, hline, hbefore, -⟩ := Blank.exists_append_trim line
  refine ⟨_, _, Utf8.encode_of_toList_eq hline, ?_⟩
  rcases List.eq_nil_or_concat before with rfl | ⟨front, c, rfl⟩
  · exact .inl rfl
  · obtain ⟨bytes, b, hbytes, hb⟩ := getLast_utf8EncodeChar_of_blank (hbefore c (by simp))
    refine .inr ⟨Utf8.encode (String.ofList front) ++ bytes, b, ?_, hb⟩
    rw [List.concat_eq_append, String.ofList_append, Utf8.encode_append, Utf8.encode_ofList [c],
      List.flatMap_singleton, hbytes, List.append_assoc]

theorem infix_encode_trim (line : String) :
    Utf8.encode (Blank.trim line) <:+: Utf8.encode line := by
  obtain ⟨before, after, hline, -⟩ := exists_encode_trim line
  exact ⟨before, after, hline.symm⟩

theorem colon_of_named (h : (Block.header? line).isSome) : ':' ∈ line.toList := by
  rw [Block.header?, Option.isSome_map, Option.isSome_iff_exists] at h
  obtain ⟨⟨before, after⟩, hcut⟩ := h
  rw [(Split.eq_of_atFirst? hcut).1]
  simp

/-- The trimmed form of a header line has a colon and no line feed, and no end marker is matched in
it. -/
theorem ScannedLine.written (h : ScannedLine line) :
    0x3A ∈ Utf8.encode (Blank.trim line) ∧ 0x0A ∉ Utf8.encode (Blank.trim line) ∧
      Segment.Unmatched endMarker (Utf8.encode (Blank.trim line)) := by
  obtain ⟨before, after, hline, hbefore⟩ := exists_encode_trim line
  refine ⟨?_, fun hlf => h.single ?_, ?_⟩
  · rw [Utf8.mem_encode_iff (by decide)]
    exact (Blank.mem_trim (by decide)).mpr (colon_of_named h.named)
  · rw [hline]
    exact List.mem_append_left _ (List.mem_append_right _ hlf)
  · have hfront := (hline ▸ h.unmatched).of_append
    rcases hbefore with rfl | ⟨front, b, rfl, hb⟩
    · exact hfront
    · rw [List.append_assoc, List.singleton_append] at hfront
      exact hfront.behind hb

theorem unmatched_of_undashed {line : Bytes} (h : 0x2D ∉ line) :
    Segment.Unmatched endMarker line :=
  Segment.unmatched_of_absent fun hmarker => h (hmarker.subset (by decide))

variable {block : Block}

/-- No end marker is matched in the lines of a scanned block in front of its last one. -/
theorem Block.Scanned.unmatched_lines (hblock : block.Scanned) :
    ∀ line ∈ beginLine (Utf8.encode block.tag) :: block.bodyLines,
      Segment.Unmatched endMarker line := by
  intro line hline
  rcases List.mem_cons.mp hline with rfl | hbody
  · exact Segment.unmatched_of_absent (not_endMarker_infix_beginLine hblock.tag.dashes)
  · rcases Block.mem_bodyLines hbody with ⟨text, htext, rfl⟩ | rfl | hdata
    · exact (hblock.lines text htext).written.2.2
    · rfl
    · exact unmatched_of_undashed (undashed_dataLines _ line hdata)

/-- The trimmed form of a header line is one too. -/
theorem ScannedLine.trim (h : ScannedLine line) : ScannedLine (Blank.trim line) := by
  obtain ⟨hcolon, hsingle, hunmatched⟩ := h.written
  refine ⟨?_, hsingle, hunmatched⟩
  rw [Utf8.mem_encode_iff (by decide)] at hcolon
  rw [Block.header?, Option.isSome_map, Option.isSome_iff_ne_none, Ne, Split.atFirst?_eq_none_iff]
  exact not_not.mpr hcolon

/-- A writable line is a header line. -/
theorem WritableLine.scanned (h : WritableLine line) : ScannedLine line :=
  ⟨h.named, h.unbroken.1, Segment.unmatched_of_absent h.unmarked⟩

theorem Block.Writable.scanned (hblock : block.Writable) : block.Scanned :=
  ⟨hblock.undashed_tag, fun line hline => (hblock.lines line hline).scanned⟩

/-- A writable block is its own trimmed form. -/
theorem Block.Writable.trimmed_eq (hblock : block.Writable) : block.trimmed = block := by
  have hlines : block.headerLines.map Blank.trim = block.headerLines := by
    conv_rhs => rw [← List.map_id block.headerLines]
    exact List.map_congr_left fun line hline => (hblock.lines line hline).trimmed
  rw [Block.trimmed, hlines]

end Written

namespace Segment

theorem text_eq_ok_iff {input : Bytes} {line : String} :
    text input = .ok line ↔ Utf8.encode line = input := by
  rw [← Utf8.decode?_eq_some_iff, text, Utf8.decode, Utf8.decode?]
  cases String.fromUTF8? input.toByteArray <;> simp [Except.mapError]

/-- `headerLines` returns exactly the lines of the UTF-8 text of the part, if each of them has a
colon. -/
theorem headerLines_eq_ok_iff {part : Bytes} {lines : List String} :
    headerLines part = .ok lines ↔
      ∃ whole, Utf8.encode whole = part ∧ lines = Split.lines whole ∧
        ∀ line ∈ lines, (Block.header? line).isSome := by
  constructor
  · intro h
    cases hwhole : text part with
    | error fault => simp [headerLines, hwhole, bind, Except.bind] at h
    | ok whole =>
      simp only [headerLines, hwhole, bind, Except.bind] at h
      split at h
      · cases h
      · rename_i hnone
        obtain rfl := Except.ok.inj h
        refine ⟨whole, text_eq_ok_iff.mp hwhole, rfl, fun line hline => ?_⟩
        have hnamed := List.find?_eq_none.mp hnone line hline
        simpa [Option.isSome_iff_ne_none] using hnamed
  · rintro ⟨whole, hwhole, rfl, hnamed⟩
    have hnone : (Split.lines whole).find? (fun line => (Block.header? line).isNone) = none := by
      rw [List.find?_eq_none]
      intro line hline
      simpa [Option.isSome_iff_ne_none] using hnamed line hline
    simp only [headerLines, text_eq_ok_iff.mpr hwhole, bind, Except.bind, hnone]

/-- The lines with a colon of an unmatched text are header lines. -/
theorem scannedLine_of_mem_lines {whole line : String}
    (hwhole : Unmatched endMarker (Utf8.encode whole)) (hline : line ∈ Split.lines whole)
    (hnamed : (Block.header? line).isSome) : ScannedLine line := by
  obtain ⟨hsingle, before, after, htext, hbefore⟩ := Split.exists_append_of_mem_lines hline
  refine ⟨hnamed, ?_, ?_⟩
  · rw [Utf8.mem_encode_iff (by decide)]
    exact hsingle
  · rw [Utf8.encode_of_toList_eq htext] at hwhole
    have hfront := hwhole.of_append
    rcases hbefore with rfl | ⟨front, rfl⟩
    · exact hfront
    · have hlf : Utf8.encode (String.ofList (front ++ ['\n'])) =
          Utf8.encode (String.ofList front) ++ [0x0A] := by
        rw [String.ofList_append, Utf8.encode_append]
        rfl
      rw [hlf, List.append_assoc, List.singleton_append] at hfront
      exact hfront.behind (by decide)

/-- Both parts that `divide` returns are infixes of the payload. -/
theorem infix_of_divide (payload : Bytes) :
    (divide payload).1 <:+: payload ∧ (divide payload).2 <:+: payload := by
  unfold divide
  split
  · rename_i hparts
    exact infix_of_readUntil? hparts
  · split
    · rename_i hparts
      exact infix_of_readUntil? hparts
    · exact ⟨List.nil_infix, List.infix_rfl⟩

/-- The header part of an unmatched payload is unmatched. -/
theorem unmatched_divide {payload : Bytes} (h : Unmatched endMarker payload) :
    Unmatched endMarker (divide payload).1 := by
  have hpart : ∀ marker parts, readUntil? marker payload = some parts →
      Unmatched endMarker parts.1 := by
    rintro marker ⟨part, rest⟩ hread
    have hpayload := (readUntil?_eq_some hread).1
    rw [hpayload, List.append_assoc] at h
    exact h.of_append
  unfold divide
  split
  · rename_i parts hread
    exact hpart _ _ hread
  · split
    · rename_i parts hread
      exact hpart _ _ hread
    · rfl

/-- `toBlock` returns a block exactly if both tags are its tag and not empty, the data part decodes
to its contents, and the header part is its header lines. -/
theorem toBlock_eq_ok_iff {parts : Parts} {block : Block} :
    parts.toBlock = .ok block ↔
      text parts.beginTag = .ok block.tag ∧ block.tag ≠ "" ∧ text parts.endTag = .ok block.tag ∧
        contents (divide parts.payload).2 = .ok block.contents ∧
          headerLines (divide parts.payload).1 = .ok block.headerLines := by
  simp only [Parts.toBlock, Run.bind_eq_ok_iff, Run.throw_eq_ok_iff, String.isEmpty_iff]
  constructor
  · rintro ⟨tag, htag, hne, endTag, hend, -, hsame, contents, hcontents, lines, hlines, h⟩
    obtain rfl := not_not.mp hsame
    cases h
    exact ⟨htag, hne, hend, hcontents, hlines⟩
  · rintro ⟨htag, hne, hend, hcontents, hlines⟩
    exact ⟨block.tag, htag, hne, block.tag, hend, hne, not_not.mpr rfl, block.contents, hcontents,
      block.headerLines, hlines, rfl⟩

/-- The tag that `cut?` returns holds no dashes and does not end in one, and the payload is
unmatched. -/
theorem of_cut? {segment : Bytes} {parts : Parts} (h : cut? segment = some parts) :
    ¬ dashes <:+: parts.beginTag ∧ parts.beginTag.getLast? ≠ some 0x2D ∧
      Unmatched endMarker parts.payload := by
  obtain ⟨_, behindMarker, behindTag, behindPayload, _, -, htag, hpayload, -⟩ := cut?_eq_some_iff.mp h
  have hdashes : dashes = List.replicate 5 0x2D := by decide
  rw [hdashes] at htag ⊢
  obtain ⟨hundashed, hlast⟩ := readUntil?_replicate (by decide) htag
  exact ⟨hundashed, hlast, unmatched_of_readUntil? (by decide) hpayload⟩

/-- Every block that `parse` returns is scanned. -/
theorem scanned_of_parse {segment : Bytes} {block : Block} (h : parse segment = .ok block) :
    block.Scanned := by
  unfold parse at h
  split at h
  · cases h
  · rename_i parts hcut
    obtain ⟨hundashed, hlast, hpayload⟩ := of_cut? hcut
    obtain ⟨htag, hne, -, -, hheaders⟩ := toBlock_eq_ok_iff.mp h
    rw [text_eq_ok_iff] at htag
    obtain ⟨whole, hwhole, hlines, hnamed⟩ := headerLines_eq_ok_iff.mp hheaders
    have hunmatched : Unmatched endMarker (Utf8.encode whole) := hwhole ▸ unmatched_divide hpayload
    have hnonempty : Utf8.encode block.tag ≠ [] :=
      fun hnil => hne (Utf8.encode_injective (hnil.trans rfl))
    refine ⟨⟨hnonempty, htag ▸ hundashed, htag ▸ hlast⟩, fun line hline => ?_⟩
    exact scannedLine_of_mem_lines hunmatched (hlines ▸ hline) (hnamed line hline)

end Segment

theorem Greedy.valid_of_mem {data : Bytes} {start : Nat} {chosen : List Placed}
    (h : Greedy data start chosen) : ∀ p ∈ chosen, p.ValidIn data := by
  induction h with
  | done => exact List.forall_mem_nil _
  | take hfirst _ ih => exact List.forall_mem_cons.mpr ⟨hfirst.valid, ih⟩

/-- Every block of `blocks` has a valid segment in the input. -/
theorem exists_placed_of_mem_blocks {input : Bytes} {block : Block} (h : block ∈ blocks input) :
    ∃ placed : Placed, placed.block = block ∧ placed.ValidIn input := by
  obtain ⟨chosen, hchosen, hblocks⟩ := exists_greedy input 0
  rw [List.drop_zero] at hblocks
  rw [hblocks] at h
  obtain ⟨placed, hplaced, hblock⟩ := List.mem_map.mp h
  exact ⟨placed, hblock, hchosen.valid_of_mem placed hplaced⟩

/-- Every block of `blocks` is `parse` of an infix of the input. -/
theorem exists_parse_of_mem_blocks {input : Bytes} {block : Block} (h : block ∈ blocks input) :
    ∃ segment, segment <:+: input ∧ Segment.parse segment = .ok block := by
  obtain ⟨placed, rfl, hvalid⟩ := exists_placed_of_mem_blocks h
  refine ⟨_, ?_, hvalid.parses⟩
  exact (List.take_prefix _ _).isInfix.trans (List.drop_suffix _ _).isInfix

theorem scanned_of_mem_blocks {input : Bytes} {block : Block} (h : block ∈ blocks input) :
    block.Scanned := by
  obtain ⟨segment, -, hparse⟩ := exists_parse_of_mem_blocks h
  exact Segment.scanned_of_parse hparse

end ClientIdentity.Pem
