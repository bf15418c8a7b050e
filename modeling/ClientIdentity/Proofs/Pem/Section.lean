import ClientIdentity.Pem.Section
import ClientIdentity.Proofs.Pem.Written
import ClientIdentity.Proofs.Text.Base64.Lenient
import ClientIdentity.Proofs.Text.Split

namespace ClientIdentity.Pem

open Bytes

/-- A block without header lines, whose tag is on one line and has no dashes. -/
structure Block.Plain (block : Block) : Prop where
  headerless : block.headerLines = []
  undashed : 0x2D ∉ Utf8.encode block.tag
  unbroken : Unbroken (Utf8.encode block.tag)

theorem Block.Plain.writable {block : Block} (h : block.Plain) (htag : block.tag ≠ "") :
    block.Writable where
  tag_ne := htag
  undashed hdashes := h.undashed (hdashes.subset (by decide))
  getLast_ne hlast := h.undashed (List.mem_of_getLast? hlast)
  lines line hline := by
    rw [h.headerless] at hline
    cases hline

namespace Section

section Pieces

/-- What a line and its ending are to the reader: a line feed behind a carriage return is a line of
its own. -/
def pieces : LineEnding → Bytes → List Bytes
  | .lf, line => [line ++ [0x0A]]
  | .crlf, line => [line ++ [0x0D], [0x0A]]

theorem endsLine_eq_true_iff {b : UInt8} : endsLine b = true ↔ b = 0x0A ∨ b = 0x0D := by
  simp [endsLine]

theorem endsLine_eq_false {line : Bytes} (h : Unbroken line) : ∀ b ∈ line, endsLine b = false := by
  intro b hb
  rw [← Bool.not_eq_true, endsLine_eq_true_iff]
  rintro (rfl | rfl)
  · exact h.1 hb
  · exact h.2 hb

theorem lines_line (ending : LineEnding) {line : Bytes} (hline : Unbroken line) (rest : Bytes) :
    lines (line ++ ending.bytes ++ rest) = pieces ending line ++ lines rest := by
  have hfree := endsLine_eq_false hline
  rw [List.append_assoc]
  cases ending with
  | lf => exact Split.behind_append_cons hfree (by decide) rest
  | crlf =>
    have hcr := Split.behind_append_cons hfree (by decide : endsLine 0x0D = true) (0x0A :: rest)
    have hlf := Split.behind_append_cons (List.forall_mem_nil _)
      (by decide : endsLine 0x0A = true) rest
    rw [List.nil_append] at hlf
    simp only [lines, pieces, LineEnding.bytes, List.cons_append, List.nil_append]
    rw [hcr, hlf]
    rfl

theorem lines_joinLines (ending : LineEnding) {input : List Bytes}
    (hinput : ∀ line ∈ input, Unbroken line) (rest : Bytes) :
    lines (joinLines ending input ++ rest) = input.flatMap (pieces ending) ++ lines rest := by
  induction input with
  | nil => rfl
  | cons line input ih =>
    simp only [List.forall_mem_cons] at hinput
    rw [joinLines_cons, List.append_assoc, lines_line ending hinput.1, ih hinput.2,
      List.flatMap_cons, List.append_assoc]

theorem flatten_pieces (ending : LineEnding) (line : Bytes) :
    (pieces ending line).flatten = line ++ ending.bytes := by
  cases ending <;> simp [pieces, LineEnding.bytes]

/-- The pieces of a line are the line with its first ending byte, and a line feed if the ending has
two. -/
theorem pieces_eq (ending : LineEnding) : ∃ b more, endsLine b = true ∧
    (more = [] ∨ more = [[0x0A]]) ∧ ∀ line, pieces ending line = (line ++ [b]) :: more := by
  cases ending with
  | lf => exact ⟨0x0A, [], by decide, .inl rfl, fun _ => rfl⟩
  | crlf => exact ⟨0x0D, [[0x0A]], by decide, .inr rfl, fun _ => rfl⟩

end Pieces

section Labels

variable {tag : Bytes} {b : UInt8} (htag : 0x2D ∉ tag) (hb : endsLine b = true)

theorem reverse_dashes : dashes.reverse = dashes := by decide

include htag

/-- The bytes that `trailer` passes over in front of the last dashes of a begin line hold no
dash. -/
theorem undashed_takeWhile_reverse :
    0x2D ∉ (tag.reverse ++ beginMarker.reverse).takeWhile fun b => b == 0x2D || isPassedOver b := by
  have hmarker : beginMarker.reverse.takeWhile (fun b => b == 0x2D || isPassedOver b) =
      [0x20] := by decide
  intro hmem
  rw [List.takeWhile_append, hmarker] at hmem
  split at hmem
  · rcases List.mem_append.mp hmem with hlabel | hspace
    · exact htag (List.mem_reverse.mp hlabel)
    · exact absurd hspace (by decide)
  · exact htag (List.mem_reverse.mp (List.takeWhile_subset _ hmem))

include hb

/-- The trailer of a begin line is its ending byte, five dashes and passed-over bytes. -/
theorem exists_trailer_beginLine :
    ∃ inner, 0x2D ∉ inner ∧ trailer (beginLine tag ++ [b]) = b :: (dashes ++ inner) := by
  refine ⟨_, undashed_takeWhile_reverse htag, ?_⟩
  have hreverse : (beginLine tag ++ [b]).reverse =
      (b :: dashes) ++ (tag.reverse ++ beginMarker.reverse) := by
    simp only [beginLine, List.reverse_append, List.reverse_singleton, reverse_dashes,
      List.append_assoc, List.cons_append, List.nil_append]
  have hpassed : ∀ c ∈ b :: dashes, (c == 0x2D || isPassedOver c) = true := by
    simp [dashes_eq, isPassedOver, hb]
  rw [trailer, hreverse, List.takeWhile_append_of_pos hpassed]
  rfl

omit htag hb

/-- The trailer of a begin line has five dashes, and the part from the first of them on has six
bytes. -/
theorem dashed_of_undashed {inner : Bytes} (hb : b ≠ 0x2D) (hinner : 0x2D ∉ inner) :
    (b :: (dashes ++ inner)).count 0x2D = 5 ∧
      ((b :: (dashes ++ inner)).reverse.dropWhile (· != 0x2D)).length = 6 := by
  constructor
  · have hfive : dashes.count 0x2D = 5 := by decide
    rw [List.count_cons_of_ne hb, List.count_append, hfive, List.count_eq_zero_of_not_mem hinner]
  · have hreverse : (b :: (dashes ++ inner)).reverse = inner.reverse ++ (dashes ++ [b]) := by
      simp [reverse_dashes]
    have hdrop : ∀ c ∈ inner.reverse, (c != 0x2D) = true := by
      intro c hc
      rw [bne_iff_ne]
      rintro rfl
      exact hinner (List.mem_reverse.mp hc)
    rw [hreverse, List.dropWhile_append_of_pos hdrop, dashes_eq]
    rfl

include htag hb

/-- `startLabel?` of the begin line of a label returns the label. -/
theorem startLabel?_beginLine : startLabel? (beginLine tag ++ [b]) = some tag := by
  have hdash : b ≠ 0x2D := by
    rintro rfl
    exact absurd hb (by decide)
  obtain ⟨inner, hinner, htrailer⟩ := exists_trailer_beginLine htag hb
  obtain ⟨hcount, hlength⟩ := dashed_of_undashed hdash hinner
  have hsplit : beginLine tag ++ [b] = (beginMarker ++ tag) ++ (dashes ++ [b]) := by
    simp only [beginLine, List.append_assoc]
  have hsix : (dashes ++ [b]).length = 6 := by
    rw [dashes_eq]
    rfl
  have htake : (beginLine tag ++ [b]).take ((beginLine tag ++ [b]).length - 6) =
      beginMarker ++ tag := by
    rw [hsplit, List.length_append, hsix, Nat.add_sub_cancel, List.take_left]
  simp only [startLabel?, htrailer, hcount, if_true, hlength, htake, List.drop_left]

end Labels

section Reading

variable {label line : Bytes} {text : List Bytes}

/-- `feed` adds a line that does not begin with five dashes to the text of the section. -/
theorem feed_text (hline : ¬ dashes <+: line) :
    Progress.feed ⟨some label, text⟩ line = .ok (⟨some label, line :: text⟩, none) := by
  have hfree : ∀ marker : Bytes, dashes <+: marker → marker.isPrefixOf line = false := by
    intro marker hmarker
    rw [← Bool.not_eq_true, List.isPrefixOf_iff_prefix]
    exact fun h => hline (hmarker.trans h)
  have hbegin := hfree beginMarker (by decide)
  have hend := hfree (endOf label) (by
    rw [endOf, endMarker_eq, List.append_assoc, List.append_assoc]
    exact List.prefix_append _ _)
  simp [Progress.feed, hbegin, hend]

theorem read_texts {input : List Bytes} (hinput : ∀ line ∈ input, ¬ dashes <+: line)
    (rest : List Bytes) :
    Progress.read ⟨some label, text⟩ (input ++ rest) =
      Progress.read ⟨some label, input.reverse ++ text⟩ rest := by
  induction input generalizing text with
  | nil => rfl
  | cons line input ih =>
    simp only [List.forall_mem_cons] at hinput
    rw [List.cons_append, Progress.read, feed_text hinput.1]
    simp only [ih hinput.2, List.reverse_cons, List.append_assoc, List.singleton_append]

theorem not_dashes_prefix_of_head? (hline : line.head? ≠ some 0x2D) : ¬ dashes <+: line := by
  rintro ⟨rest, rfl⟩
  exact hline rfl

/-- Lines without begin markers between sections are ignored. -/
theorem read_unmarked {input : List Bytes} (hinput : ∀ line ∈ input, ¬ beginMarker <+: line)
    (rest : List Bytes) : Progress.fresh.read (input ++ rest) = Progress.fresh.read rest := by
  induction input with
  | nil => rfl
  | cons line input ih =>
    rw [List.forall_mem_cons] at hinput
    have hbegin : beginMarker.isPrefixOf line = false := by
      rw [← Bool.not_eq_true, List.isPrefixOf_iff_prefix]
      exact hinput.1
    have hfeed : Progress.fresh.feed line = .ok (.fresh, none) := by
      simp [Progress.feed, hbegin, Progress.fresh]
    rw [List.cons_append, Progress.read, hfeed]
    exact ih hinput.2

/-- A line feed between sections is ignored. -/
theorem read_between {more : List Bytes} (hmore : more = [] ∨ more = [[0x0A]])
    (rest : List Bytes) : Progress.fresh.read (more ++ rest) = Progress.fresh.read rest := by
  refine read_unmarked ?_ rest
  rcases hmore with rfl | rfl <;> decide

theorem feed_beginLine {tag : Bytes} {b : UInt8} (htag : 0x2D ∉ tag) (hb : endsLine b = true)
    (progress : Progress) : progress.feed (beginLine tag ++ [b]) =
      .ok ({ progress with label := some tag }, none) := by
  have hbegin : beginMarker.isPrefixOf (beginLine tag ++ [b]) = true := by
    rw [List.isPrefixOf_iff_prefix, beginLine, List.append_assoc, List.append_assoc]
    exact List.prefix_append _ _
  simp only [Progress.feed, hbegin, if_true, startLabel?_beginLine htag hb]

/-- `feed` of the end line of a section decodes the text if the label is known, and drops it
otherwise. -/
theorem feed_endLine {tag : Bytes} {b : UInt8} :
    Progress.feed ⟨some tag, text⟩ (endOf tag ++ [b]) =
      if knownLabels.contains tag then
        match Base64.Lenient.decode text.reverse.flatten with
        | .ok contents => .ok (.fresh, some ⟨tag, contents⟩)
        | .error fault => .error (.badText fault)
      else
        .ok (.fresh, none) := by
  have hbegin : beginMarker.isPrefixOf (endOf tag ++ [b]) = false := by
    rw [← Bool.not_eq_true, List.isPrefixOf_iff_prefix, beginMarker_eq, endOf, endMarker_eq]
    simp only [List.append_assoc, List.prefix_append_right_inj, List.cons_append]
    exact fun h => absurd (List.cons_prefix_cons.mp h).1 (by decide)
  have hend : (endOf tag).isPrefixOf (endOf tag ++ [b]) = true := by
    rw [List.isPrefixOf_iff_prefix]
    exact List.prefix_append _ _
  rw [Progress.feed, if_neg (by simp [hbegin])]
  exact if_pos hend

end Reading

section Written

/-- The section that a block without header lines is. -/
def ofBlock (block : Block) : Section :=
  ⟨Utf8.encode block.tag, block.contents⟩

/-- A block of which no line but the first and the last one can be taken for a marker. -/
structure Lined (block : Block) : Prop where
  undashed : 0x2D ∉ Utf8.encode block.tag
  unbroken : Unbroken (Utf8.encode block.tag)
  body : ∀ line ∈ block.bodyLines, Unbroken line ∧ line.head? ≠ some 0x2D

theorem bodyLines_plain {block : Block} (h : block.Plain) :
    block.bodyLines = dataLines block.contents := by
  rw [Block.bodyLines, Block.writtenHeaders, h.headerless]
  rfl

theorem lined_plain {block : Block} (h : block.Plain) : Lined block where
  undashed := h.undashed
  unbroken := h.unbroken
  body line hline := by
    rw [bodyLines_plain h] at hline
    exact ⟨(unbroken_of_mem_dataLines hline).2,
      fun hhead => undashed_dataLines _ line hline (List.mem_of_mem_head? hhead)⟩

variable (ending : LineEnding)

theorem flatten_flatMap_pieces (lines : List Bytes) :
    (lines.flatMap (pieces ending)).flatten = joinLines ending lines := by
  induction lines with
  | nil => rfl
  | cons line lines ih =>
    rw [List.flatMap_cons, List.flatten_append, flatten_pieces, ih, joinLines_cons]

/-- The pieces of a line that does not begin with five dashes do not either. -/
theorem not_dashes_prefix_of_mem_pieces {line piece : Bytes} (hline : ¬ dashes <+: line)
    (h : piece ∈ pieces ending line) : ¬ dashes <+: piece := by
  have hfirst : ∀ b : UInt8, b ≠ 0x2D → ¬ dashes <+: line ++ [b] := by
    intro b hb hdashes
    rcases List.prefix_concat_iff.mp hdashes with hwhole | hfront
    · have hlast := congrArg List.getLast? hwhole
      rw [List.getLast?_concat, dashes_eq] at hlast
      exact hb (Option.some.inj hlast).symm
    · exact hline hfront
  cases ending with
  | lf =>
    obtain rfl := List.mem_singleton.mp h
    exact hfirst _ (by decide)
  | crlf =>
    simp only [pieces, List.mem_cons, List.not_mem_nil, or_false] at h
    rcases h with rfl | rfl
    · exact hfirst _ (by decide)
    · decide

/-- The lenient decoding ignores a line feed in front of the text. -/
theorem decode_append_of_between {more : List Bytes} (hmore : more = [] ∨ more = [[0x0A]])
    (text : Bytes) :
    Base64.Lenient.decode (more.flatten ++ text) = Base64.Lenient.decode text := by
  rcases hmore with rfl | rfl
  · rfl
  · rfl

/-- The lenient decoding of base64 that is wrapped into lines returns its contents, for lines of any
lengths. -/
theorem decode_joinLines {lines : List Bytes} {contents : Bytes}
    (hlines : lines.flatten = Base64.encode contents) :
    Base64.Lenient.decode (joinLines ending lines) = .ok contents := by
  have hending : ∀ b ∈ ending.bytes, (!Base64.Lenient.isSpace b) = false := by
    intro b hb
    rcases mem_ending hb with rfl | rfl <;> decide
  apply Base64.Lenient.decode_of_filter
  rw [filter_joinLines ending hending, hlines, List.filter_eq_self]
  intro b hb
  rw [Base64.Lenient.isSpace_of_isSymbol (Base64.isSymbol_or_eq_pad hb), Bool.not_false]

section Framed

variable {tag : Bytes} {body : List Bytes} (htag : Unbroken tag)
  (hbody : ∀ line ∈ body, Unbroken line ∧ ¬ dashes <+: line) (rest : Bytes)

include htag hbody

/-- `lines` of framed lines are the pieces of each line, the begin line and the end line
included. -/
theorem lines_framed : lines (framed ending tag body ++ ending.bytes ++ rest) =
    pieces ending (beginLine tag) ++ (body.flatMap (pieces ending) ++
      (pieces ending (endOf tag) ++ lines rest)) := by
  have hmarker : Unbroken beginMarker := by decide
  have hbegin : Unbroken (beginLine tag) := (hmarker.append htag).append unbroken_dashes
  have hsplit : framed ending tag body ++ ending.bytes ++ rest =
      beginLine tag ++ ending.bytes ++
        (joinLines ending body ++ (endOf tag ++ ending.bytes ++ rest)) := by
    simp only [framed, List.append_assoc]
  rw [hsplit, lines_line ending hbegin, lines_joinLines ending fun line hline => (hbody line hline).1,
    lines_line ending (unbroken_endOf htag)]

/-- `read` of framed lines with a known label decodes all lines of the frame, and fails or adds the
section to those of the rest. With any other label it reads the rest. -/
theorem read_framed (hdash : 0x2D ∉ tag) :
    read (framed ending tag body ++ ending.bytes ++ rest) =
      if knownLabels.contains tag then
        match Base64.Lenient.decode (joinLines ending body) with
        | .ok contents => { read rest with sections := ⟨tag, contents⟩ :: (read rest).sections }
        | .error fault => ⟨[], some (.badText fault)⟩
      else
        read rest := by
  obtain ⟨b, more, hb, hmore, hpieces⟩ := pieces_eq ending
  have htexts : ∀ line ∈ more ++ body.flatMap (pieces ending), ¬ dashes <+: line := by
    intro line hline
    rcases List.mem_append.mp hline with hmem | hmem
    · rcases hmore with rfl | rfl
      · cases hmem
      · obtain rfl := List.mem_singleton.mp hmem
        decide
    · obtain ⟨whole, hwhole, hpiece⟩ := List.mem_flatMap.mp hmem
      exact not_dashes_prefix_of_mem_pieces ending (hbody whole hwhole).2 hpiece
  have hbegin := feed_beginLine hdash hb .fresh
  rw [read, lines_framed ending htag hbody, hpieces, hpieces, List.cons_append, Progress.read, hbegin]
  simp only [Progress.fresh]
  rw [← List.append_assoc more, read_texts htexts, List.append_nil, List.cons_append,
    Progress.read, feed_endLine, List.reverse_reverse, List.flatten_append,
    flatten_flatMap_pieces, decode_append_of_between hmore]
  split_ifs
  · cases Base64.Lenient.decode (joinLines ending body) with
    | error fault => rfl
    | ok contents => simp only [read_between hmore, read]
  · simp only [read_between hmore, read]

end Framed

variable {block : Block} (rest : Bytes)

/-- `read` of a written block with a known tag decodes all its lines, header lines as well. -/
theorem read_block (hblock : Lined block) : read (block.encode ending ++ rest) =
    if knownLabels.contains (Utf8.encode block.tag) then
      match Base64.Lenient.decode (joinLines ending block.bodyLines) with
      | .ok contents => { read rest with
          sections := ⟨Utf8.encode block.tag, contents⟩ :: (read rest).sections }
      | .error fault => ⟨[], some (.badText fault)⟩
    else
      read rest := by
  rw [block.encode_eq, block.segment_eq_framed, read_framed ending hblock.unbroken ?_ rest hblock.undashed]
  exact fun line hline =>
    ⟨(hblock.body line hline).1, not_dashes_prefix_of_head? (hblock.body line hline).2⟩

/-- `read` of a written block without header lines adds its section if the tag is known. -/
theorem read_written (hblock : block.Plain) : read (block.encode ending ++ rest) =
    { read rest with
      sections := (if knownLabels.contains (Utf8.encode block.tag) then [ofBlock block] else []) ++
        (read rest).sections } := by
  rw [read_block ending rest (lined_plain hblock), bodyLines_plain hblock,
    decode_joinLines ending (flatten_dataLines block.contents)]
  split_ifs <;> rfl

/-- `read` of written blocks without header lines returns the sections with known labels. -/
theorem read_encodeAll {blocks : List Block} (hblocks : ∀ b ∈ blocks, b.Plain) :
    read (encodeAll ending blocks) =
      ⟨(blocks.filter fun b => knownLabels.contains (Utf8.encode b.tag)).map ofBlock, none⟩ := by
  induction blocks with
  | nil => rfl
  | cons block blocks ih =>
    simp only [List.forall_mem_cons] at hblocks
    have hsplit : encodeAll ending (block :: blocks) =
        block.encode ending ++ encodeAll ending blocks := List.flatMap_cons
    rw [hsplit, read_written ending _ hblocks.1, ih hblocks.2]
    by_cases hknown : knownLabels.contains (Utf8.encode block.tag) = true
    · simp only [hknown, if_true, List.filter_cons_of_pos, List.map_cons, List.singleton_append]
    · simp only [hknown, Bool.false_eq_true, if_false, List.filter_cons_of_neg, not_false_eq_true,
        List.nil_append]

/-- `certificates` returns the contents of the certificate blocks, if `read` returns the sections of
the blocks. -/
theorem certificates_of_read {input : Bytes} {blocks : List Block}
    (h : read input =
      ⟨(blocks.filter fun b => knownLabels.contains (Utf8.encode b.tag)).map ofBlock, none⟩) :
    certificates input =
      .ok ((blocks.filter fun b => b.tag == "CERTIFICATE").map Block.contents) := by
  have hsame : ∀ b : Block, (Utf8.encode b.tag == certificateLabel &&
      knownLabels.contains (Utf8.encode b.tag)) = (b.tag == "CERTIFICATE") := by
    intro b
    by_cases htag : b.tag = "CERTIFICATE"
    · rw [htag]
      decide
    · have hlabel : Utf8.encode b.tag ≠ certificateLabel := fun h => htag (Utf8.encode_injective h)
      rw [beq_false_of_ne hlabel, beq_false_of_ne htag, Bool.false_and]
  simp only [certificates, h, List.filter_map, List.filter_filter, List.map_map]
  congr 2
  apply List.filter_congr
  intro b _
  exact hsame b

/-- `certificates` of written blocks returns the contents of the certificates in order, whatever the
other blocks are. -/
theorem certificates_encodeAll {blocks : List Block} (hblocks : ∀ b ∈ blocks, b.Plain) :
    certificates (encodeAll ending blocks) =
      .ok ((blocks.filter fun b => b.tag == "CERTIFICATE").map Block.contents) :=
  certificates_of_read (read_encodeAll ending hblocks)

theorem keyTag_ne (kind : KeyKind) : kind.tag ≠ "" := by
  cases kind <;> decide

theorem undashed_keyTag (kind : KeyKind) :
    0x2D ∉ Utf8.encode kind.tag ∧ Unbroken (Utf8.encode kind.tag) := by
  cases kind <;> decide

theorem plain_keyTag (kind : KeyKind) (der : Bytes) : (⟨kind.tag, [], der⟩ : Block).Plain where
  headerless := rfl
  undashed := (undashed_keyTag kind).1
  unbroken := (undashed_keyTag kind).2

/-- `firstPrivateKey` of a written private key block returns its key. -/
theorem firstPrivateKey_written (kind : KeyKind) (der : Bytes) :
    firstPrivateKey (Block.encode ending ⟨kind.tag, [], der⟩) = .ok (some ⟨kind, der⟩) := by
  have hknown : knownLabels.contains (Utf8.encode kind.tag) = true := by
    cases kind <;> decide
  have hread : read (Block.encode ending ⟨kind.tag, [], der⟩) =
      ⟨[⟨Utf8.encode kind.tag, der⟩], none⟩ := by
    have hempty : read [] = ⟨[], none⟩ := rfl
    have hwritten := read_written ending [] (plain_keyTag kind der)
    rw [List.append_nil, hempty] at hwritten
    rw [hwritten, if_pos hknown]
    rfl
  have hkind : ∀ s : Section, s.label = Utf8.encode kind.tag → s.keyKind? = some kind := by
    intro s hs
    rw [keyKind?, hs]
    cases kind <;> decide
  have hkey : privateKey? ⟨Utf8.encode kind.tag, der⟩ = some ⟨kind, der⟩ := by
    rw [privateKey?, hkind _ rfl]
    rfl
  simp only [firstPrivateKey, hread, List.findSome?_cons, hkey]

end Written

end Section

end ClientIdentity.Pem
