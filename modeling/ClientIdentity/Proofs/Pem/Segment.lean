import ClientIdentity.Proofs.Pem.Scanned

namespace ClientIdentity.Pem.Segment

open Bytes

section Cut

/-- Dropping white space from a line ending and a rest that begins with none leaves the rest. -/
theorem dropWhile_gap (ending : LineEnding) {rest : Bytes} (h : ∀ b ∈ rest.head?, isGap b = false) :
    (ending.bytes ++ rest).dropWhile isGap = rest := by
  have hending : ∀ b ∈ ending.bytes, isGap b = true := by
    intro b hb
    rcases mem_ending hb with rfl | rfl <;> decide
  rw [List.dropWhile_append_of_pos hending]
  cases rest with
  | nil => rfl
  | cons b rest => exact List.dropWhile_cons_of_neg (by simp [h b (by simp)])

theorem blank_of_gap {b : UInt8} (h : isGap b = true) :
    b < 128 ∧ Blank.isBlank (Char.ofNat b.toNat) = true := by
  have hall : ∀ b : UInt8, isGap b = true → b < 128 ∧ Blank.isBlank (Char.ofNat b.toNat) = true :=
    forall_byte (by decide)
  exact hall b h

/-- A character whose bytes include a byte of white space is white space. -/
theorem exists_blank_of_gap {c : Char} {b : UInt8} (hb : b ∈ String.utf8EncodeChar c)
    (hgap : isGap b = true) : Blank.isBlank c = true := by
  obtain ⟨hascii, hblank⟩ := blank_of_gap hgap
  rwa [Utf8.eq_ofNat_of_mem_utf8EncodeChar hascii hb]

/-- A trimmed line does not begin with a byte of white space. -/
theorem not_gap_of_head_encode {line : String} (h : Blank.trim line = line) :
    ∀ b ∈ (Utf8.encode line).head?, isGap b = false := by
  intro b hb
  rw [← Bool.not_eq_true]
  intro hgap
  rw [Utf8.encode_eq_flatMap] at hb
  cases hchars : line.toList with
  | nil => simp [hchars] at hb
  | cons c chars =>
    rw [hchars, List.flatMap_cons, List.head?_append_of_ne_nil _ String.utf8EncodeChar_ne_nil] at hb
    have hfalse := Blank.head_of_trim_eq_self h c (by simp [hchars])
    rw [exists_blank_of_gap (List.mem_of_mem_head? hb) hgap] at hfalse
    cases hfalse

theorem not_gap_of_getLast_encode {line : String} (h : Blank.trim line = line) :
    ∀ b ∈ (Utf8.encode line).getLast?, isGap b = false := by
  intro b hb
  rw [← Bool.not_eq_true]
  intro hgap
  rw [Utf8.encode_eq_flatMap] at hb
  rcases List.eq_nil_or_concat line.toList with hchars | ⟨chars, c, hchars⟩
  · simp [hchars] at hb
  · rw [List.concat_eq_append] at hchars
    rw [hchars, List.flatMap_append, List.flatMap_singleton,
      List.getLast?_append_of_ne_nil _ String.utf8EncodeChar_ne_nil] at hb
    have hfalse := Blank.getLast_of_trim_eq_self h c (by simp [hchars])
    rw [exists_blank_of_gap (List.mem_of_mem_getLast? hb) hgap] at hfalse
    cases hfalse

theorem encode_ne_nil_of_scanned {line : String} (h : ScannedLine line) :
    Utf8.encode (Blank.trim line) ≠ [] :=
  List.ne_nil_of_mem h.written.1

/-- A payload does not begin with white space if its first line does not; a payload without lines
begins with a dash. -/
theorem not_gap_of_head_joinLines {lines : List Bytes} {tag : Bytes} (ending : LineEnding)
    (hfirst : ∀ line ∈ lines.head?, line ≠ [] ∧ ∀ b ∈ line.head?, isGap b = false) :
    ∀ b ∈ (joinLines ending lines ++ endOf tag).head?, isGap b = false := by
  cases lines with
  | nil =>
    rw [joinLines_nil, List.nil_append, endOf, endMarker_eq, dashes_eq]
    simp only [List.cons_append, List.head?_cons, Option.mem_def, Option.some.injEq]
    rintro b rfl
    decide
  | cons line lines =>
    obtain ⟨hne, hhead⟩ := hfirst line rfl
    rwa [joinLines_cons, List.append_assoc, List.append_assoc, List.head?_append_of_ne_nil _ hne]

theorem not_gap_of_mem_wraps {lines : List Bytes} {contents line : Bytes}
    (h : Wraps lines contents) (hline : line ∈ lines) :
    line ≠ [] ∧ ∀ b ∈ line.head?, isGap b = false :=
  ⟨h.ne_nil line hline, fun _ hb =>
    (plain_of_mem_base64 (h.mem_base64 hline (List.mem_of_mem_head? hb))).2.2.2.1⟩

/-- The payload of a written block begins with a letter of its first header line, a base64 symbol,
or a dash of the end marker. -/
theorem not_gap_of_head_payload {block : Block} (hblock : block.Scanned) (ending : LineEnding) :
    ∀ b ∈ (joinLines ending block.bodyLines ++ endOf (Utf8.encode block.tag)).head?,
      isGap b = false := by
  apply not_gap_of_head_joinLines
  intro line hline
  rw [Block.bodyLines, Block.writtenHeaders] at hline
  cases hheaders : block.headerLines with
  | nil =>
    rw [hheaders, List.isEmpty_nil, if_pos rfl, List.nil_append] at hline
    exact not_gap_of_mem_wraps (wraps_dataLines _) (List.mem_of_mem_head? hline)
  | cons first others =>
    obtain rfl : Utf8.encode (Blank.trim first) = line := by simpa [hheaders] using hline
    exact ⟨encode_ne_nil_of_scanned (hblock.lines first (by simp [hheaders])),
      not_gap_of_head_encode (Blank.trim_trim first)⟩

/-- `cut?` of a tag and a payload that the matcher skips returns them, with the white space between
them dropped. -/
theorem cut?_of_skips {tag body payload : Bytes} (htag : Skips dashes tag)
    (hpayload : Skips endMarker payload)
    (hgap : (body ++ endOf tag).dropWhile isGap = payload ++ endOf tag) :
    cut? (beginLine tag ++ body ++ endOf tag) = some ⟨tag, payload, tag⟩ := by
  have hbegin := readUntil?_append (Skips.nil beginMarker) (tag ++ dashes ++ (body ++ endOf tag))
  have hlabel := readUntil?_append htag (body ++ endOf tag)
  have hlast := readUntil?_append hpayload (tag ++ dashes)
  have hend := readUntil?_append htag []
  rw [List.nil_append] at hbegin
  rw [List.append_nil] at hend
  refine cut?_eq_some_iff.mpr ⟨[], _, _, _, _, ?_, hlabel, ?_, hend⟩
  · rw [← hbegin, beginLine]
    simp only [List.append_assoc]
  · rw [hgap, ← hlast, endOf]
    simp only [List.append_assoc]

/-- `cut?` of unmatched framed lines returns their tag and the lines, if the first line does not
begin with white space. -/
theorem cut?_framed {tag : Bytes} {lines : List Bytes} (htag : Undashed tag)
    (hlines : ∀ line ∈ lines, Unmatched endMarker line) {ending : LineEnding}
    (hhead : ∀ b ∈ (joinLines ending lines ++ endOf tag).head?, isGap b = false) :
    cut? (framed ending tag lines) = some ⟨tag, joinLines ending lines, tag⟩ := by
  have hskipped : Skips dashes tag := by
    obtain ⟨front, b, rfl, hb, hfront⟩ := htag.exists_eq_append
    exact .of_line hb hfront
  have hbody : Skips endMarker (joinLines ending lines) :=
    skips_joinLines ending unbroken_endMarker hlines
  have hgap := dropWhile_gap ending hhead
  rw [← List.append_assoc] at hgap
  rw [framed, List.append_assoc (beginLine _)]
  exact cut?_of_skips hskipped hbody hgap

/-- `cut?` of a written block returns its tag and its lines. -/
theorem cut?_written {block : Block} (hblock : block.Scanned) (ending : LineEnding) :
    cut? (block.segment ending) =
      some ⟨Utf8.encode block.tag, joinLines ending block.bodyLines, Utf8.encode block.tag⟩ :=
  cut?_framed hblock.tag
    (fun line hline => hblock.unmatched_lines line (List.mem_cons_of_mem _ hline))
    (not_gap_of_head_payload hblock ending)

end Cut

section Divide

/-- Lines with an ending between any two of them, but not behind the last one. -/
def betweenLines (ending : LineEnding) (first : Bytes) (others : List Bytes) : Bytes :=
  first ++ others.flatMap (ending.bytes ++ ·)

theorem joinLines_eq_betweenLines (ending : LineEnding) (first : Bytes) (others : List Bytes) :
    joinLines ending (first :: others) = betweenLines ending first others ++ ending.bytes := by
  induction others generalizing first with
  | nil => simp [joinLines, betweenLines]
  | cons second others ih =>
    rw [joinLines_cons, ih second]
    simp only [betweenLines, List.flatMap_cons, List.append_assoc]

/-- A line without line feeds that neither begins nor ends with a carriage return. -/
structure Whole (line : Bytes) : Prop where
  single : 0x0A ∉ line
  head : line.head? ≠ some 0x0D
  last : line.getLast? ≠ some 0x0D

theorem whole_of_unbroken {line : Bytes} (h : Unbroken line) : Whole line :=
  ⟨h.1, fun hhead => h.2 (List.mem_of_head? hhead), fun hlast => h.2 (List.mem_of_getLast? hlast)⟩

/-- The trimmed form of a header line is a whole line. -/
theorem whole_of_scanned {line : String} (h : ScannedLine line) :
    Whole (Utf8.encode (Blank.trim line)) where
  single := h.written.2.1
  head hhead := absurd (not_gap_of_head_encode (Blank.trim_trim line) _ hhead) (by decide)
  last hlast := absurd (not_gap_of_getLast_encode (Blank.trim_trim line) _ hlast) (by decide)

/-- A marker that stands for an empty line: it is made of line breaks, a line feed among them, and is
not part of one ending. -/
structure EmptyLine (ending : LineEnding) (marker : Bytes) : Prop where
  breaks : ∀ b ∈ marker, b = 0x0A ∨ b = 0x0D
  feeds : 0x0A ∈ marker
  long : ¬ marker <:+: ending.bytes

theorem emptyLine_lf (ending : LineEnding) : EmptyLine ending [0x0A, 0x0A] :=
  ⟨by simp, by simp, by cases ending <;> decide⟩

theorem emptyLine_crlf (ending : LineEnding) : EmptyLine ending [0x0D, 0x0A, 0x0D, 0x0A] :=
  ⟨by simp, by simp, by cases ending <;> decide⟩

section EmptyLine

variable {marker : Bytes} {ending : LineEnding} (hmarker : EmptyLine ending marker)

include hmarker

theorem EmptyLine.not_mem {b : UInt8} (hlf : b ≠ 0x0A) (hcr : b ≠ 0x0D) : b ∉ marker :=
  fun hmem => (hmarker.breaks b hmem).elim hlf hcr

/-- The matcher of an empty line skips every line that does not end in a carriage return. -/
theorem skips_line {line : Bytes} (hsingle : 0x0A ∉ line) (hlast : line.getLast? ≠ some 0x0D) :
    Skips marker line := by
  rcases List.eq_nil_or_concat line with rfl | ⟨front, b, rfl⟩
  · exact .nil _
  · rw [List.concat_eq_append] at hsingle hlast ⊢
    rw [List.mem_append, not_or] at hsingle
    rw [List.getLast?_concat] at hlast
    refine .of_line (hmarker.not_mem ?_ ?_) fun h => hsingle.1 (h.subset hmarker.feeds)
    · rintro rfl
      exact hsingle.2 (List.mem_singleton_self _)
    · rintro rfl
      exact hlast rfl

/-- The matcher of an empty line skips a line ending and a line that is not empty. -/
theorem skips_ending_line {line : Bytes} (hne : line ≠ []) (hline : Whole line) :
    Skips marker (ending.bytes ++ line) := by
  cases line with
  | nil => exact absurd rfl hne
  | cons b line =>
    have hfirst : b ∉ marker := by
      refine hmarker.not_mem ?_ ?_
      · rintro rfl
        exact hline.single List.mem_cons_self
      · rintro rfl
        exact hline.head rfl
    have hhead : Skips marker (ending.bytes ++ [b]) := .of_line hfirst hmarker.long
    have htail : Skips marker line := by
      refine skips_line hmarker (fun hlf => hline.single (List.mem_cons_of_mem b hlf)) ?_
      intro hlast
      refine hline.last ?_
      rw [List.getLast?_cons, hlast]
      rfl
    have hboth := hhead.append htail
    rwa [List.append_assoc, List.singleton_append] at hboth

theorem skips_betweenLines {first : Bytes} {others : List Bytes} (hfirst : Whole first)
    (hothers : ∀ line ∈ others, line ≠ [] ∧ Whole line) :
    Skips marker (betweenLines ending first others) := by
  refine (skips_line hmarker hfirst.single hfirst.last).append ?_
  induction others with
  | nil => exact .nil _
  | cons line others ih =>
    simp only [List.forall_mem_cons] at hothers
    exact (skips_ending_line hmarker hothers.1.1 hothers.1.2).append (ih hothers.2)

/-- `readUntil?` finds no empty line in lines of which only the first may be empty. -/
theorem readUntil?_joinLines_cons_eq_none {first : Bytes} {others : List Bytes}
    (hfirst : Whole first) (hothers : ∀ line ∈ others, line ≠ [] ∧ Whole line) :
    readUntil? marker (joinLines ending (first :: others)) = none := by
  have hskips := skips_betweenLines hmarker hfirst hothers
  rw [joinLines_eq_betweenLines, readUntil?, hskips, Option.map_eq_none_iff,
    Option.eq_none_iff_forall_ne_some]
  intro stop hstop
  exact hmarker.long (infix_of_matchEnd? hstop)

/-- `readUntil?` finds no empty line in lines that are not empty. -/
theorem readUntil?_joinLines_eq_none {lines : List Bytes}
    (hlines : ∀ line ∈ lines, line ≠ [] ∧ Whole line) :
    readUntil? marker (joinLines ending lines) = none := by
  cases lines with
  | nil =>
    have hne : ¬ marker <:+: [] := fun h => List.not_mem_nil (h.subset hmarker.feeds)
    exact readUntil?_eq_none hne
  | cons first others =>
    simp only [List.forall_mem_cons] at hlines
    exact readUntil?_joinLines_cons_eq_none hmarker hlines.1.2 hlines.2

end EmptyLine

/-- `divide` of lines that are not empty returns them all as data. -/
theorem divide_data {lines : List Bytes} (ending : LineEnding)
    (hlines : ∀ line ∈ lines, line ≠ [] ∧ Whole line) :
    divide (joinLines ending lines) = ([], joinLines ending lines) := by
  have hlf := readUntil?_joinLines_eq_none (emptyLine_lf ending) hlines
  have hcrlf := readUntil?_joinLines_eq_none (emptyLine_crlf ending) hlines
  simp only [divide, hlf, hcrlf]

/-- `divide` of header lines, an empty line and data lines returns both parts. -/
theorem divide_headers {first : Bytes} {others data : List Bytes} (ending : LineEnding)
    (hfirst : Whole first) (hothers : ∀ line ∈ others, line ≠ [] ∧ Whole line)
    (hdata : ∀ line ∈ data, 0x0A ∉ line) :
    divide (joinLines ending (first :: others ++ [[]] ++ data)) =
      (betweenLines ending first others, joinLines ending data) := by
  have hsplit : joinLines ending (first :: others ++ [[]] ++ data) =
      betweenLines ending first others ++ (ending.bytes ++ ending.bytes) ++
        joinLines ending data := by
    rw [joinLines_append, joinLines_append, joinLines_eq_betweenLines]
    simp only [joinLines_cons, joinLines_nil, List.nil_append, List.append_nil, List.append_assoc]
  cases ending with
  | lf =>
    have hskips := skips_betweenLines (emptyLine_lf .lf) hfirst hothers
    have hread := readUntil?_append hskips (joinLines .lf data)
    rw [hsplit]
    simp only [divide, LineEnding.bytes, List.singleton_append, hread]
  | crlf =>
    have hskips := skips_betweenLines (emptyLine_crlf .crlf) hfirst hothers
    have hread := readUntil?_append hskips (joinLines .crlf data)
    have hlines : ∀ line ∈ first :: others ++ [[]] ++ data, 0x0A ∉ line := by
      intro line hline
      simp only [List.cons_append, List.mem_cons, List.mem_append, List.not_mem_nil,
        or_false] at hline
      rcases hline with rfl | (hother | rfl) | hdatum
      · exact hfirst.single
      · exact (hothers line hother).2.single
      · exact List.not_mem_nil
      · exact hdata line hdatum
    have hnone : readUntil? [0x0A, 0x0A] (joinLines .crlf (first :: others ++ [[]] ++ data)) =
        none := by
      rw [← toCrlf_joinLines hlines]
      exact readUntil?_eq_none (not_lf_lf_infix_toCrlf _).1
    simp only [divide, hnone]
    rw [hsplit]
    simp only [LineEnding.bytes, List.cons_append, List.nil_append, hread]

end Divide

section Payload

theorem text_encode (line : String) : text (Utf8.encode line) = .ok line := by
  rw [text, Utf8.decode_encode]
  rfl

/-- The characters that end a line. -/
def endingChars : LineEnding → List Char
  | .lf => ['\n']
  | .crlf => ['\r', '\n']

theorem flatMap_endingChars (ending : LineEnding) :
    (endingChars ending).flatMap String.utf8EncodeChar = ending.bytes := by
  cases ending <;> decide

/-- The text of lines, like `betweenLines`. -/
def textBetween (ending : LineEnding) (first : String) (others : List String) : List Char :=
  first.toList ++ others.flatMap fun line => endingChars ending ++ line.toList

theorem encode_textBetween (ending : LineEnding) (first : String) (others : List String) :
    Utf8.encode (String.ofList (textBetween ending first others)) =
      betweenLines ending (Utf8.encode first) (others.map Utf8.encode) := by
  rw [Utf8.encode_ofList, textBetween, betweenLines, List.flatMap_append,
    ← Utf8.encode_eq_flatMap, List.flatMap_assoc, List.flatMap_map]
  congr 1
  apply List.flatMap_congr
  intro line _
  rw [List.flatMap_append, flatMap_endingChars, ← Utf8.encode_eq_flatMap]

/-- A whole line has no line feed and no carriage return at its end. -/
theorem not_mem_of_whole {line : String} (h : Whole (Utf8.encode line)) :
    '\n' ∉ line.toList ∧ line.toList.getLast? ≠ some '\r' := by
  constructor
  · intro hmem
    exact h.single ((Utf8.mem_encode_iff (by decide)).mpr hmem)
  · intro hlast
    obtain ⟨front, hchars⟩ := List.getLast?_eq_some_iff.mp hlast
    refine h.last ?_
    rw [Utf8.encode_eq_flatMap, hchars, List.flatMap_append, List.flatMap_singleton]
    exact List.getLast?_concat

theorem forall_ne_lf {line : String} (h : Whole (Utf8.encode line)) :
    ∀ c ∈ line.toList, (c == '\n') = false := by
  intro c hc
  rw [beq_eq_false_iff_ne]
  rintro rfl
  exact (not_mem_of_whole h).1 hc

/-- Cutting a whole line, its ending and more returns the line and the lines of the rest. -/
theorem lines_append (ending : LineEnding) {line : String} (h : Whole (Utf8.encode line))
    (rest : List Char) :
    (Split.behind (· == '\n') (line.toList ++ endingChars ending ++ rest)).map
        (fun piece => String.ofList (Split.dropEnding piece)) =
      line :: (Split.behind (· == '\n') rest).map
        fun piece => String.ofList (Split.dropEnding piece) := by
  have hline := forall_ne_lf h
  cases ending with
  | lf =>
    rw [endingChars, List.append_assoc, List.singleton_append,
      Split.behind_append_cons hline (by decide), List.map_cons,
      Split.dropEnding_lf (not_mem_of_whole h).2, String.ofList_toList]
  | crlf =>
    have hlong : ∀ c ∈ line.toList ++ ['\r'], (c == '\n') = false := by
      intro c hc
      rcases List.mem_append.mp hc with hmem | hmem
      · exact hline c hmem
      · obtain rfl := List.mem_singleton.mp hmem
        decide
    have happend : line.toList ++ endingChars .crlf ++ rest =
        (line.toList ++ ['\r']) ++ '\n' :: rest := by
      simp [endingChars]
    rw [happend, Split.behind_append_cons hlong (by decide), List.map_cons,
      List.append_assoc, List.singleton_append, Split.dropEnding_crlf, String.ofList_toList]

/-- `lines` of lines with endings between them returns the lines. -/
theorem lines_textBetween (ending : LineEnding) {first : String} {others : List String}
    (hfirst : Utf8.encode first ≠ [] ∧ Whole (Utf8.encode first))
    (hothers : ∀ line ∈ others, Utf8.encode line ≠ [] ∧ Whole (Utf8.encode line)) :
    Split.lines (String.ofList (textBetween ending first others)) = first :: others := by
  rw [Split.lines, String.toList_ofList]
  induction others generalizing first with
  | nil =>
    have hne : first.toList ≠ [] := by
      intro hnil
      apply hfirst.1
      rw [Utf8.encode_eq_flatMap, hnil, List.flatMap_nil]
    rw [textBetween, List.flatMap_nil, List.append_nil,
      Split.behind_of_forall hne (forall_ne_lf hfirst.2), List.map_singleton,
      Split.dropEnding_of_not_mem (not_mem_of_whole hfirst.2).1, String.ofList_toList]
  | cons second others ih =>
    simp only [List.forall_mem_cons] at hothers
    have hsplit : textBetween ending first (second :: others) =
        first.toList ++ endingChars ending ++ textBetween ending second others := by
      simp only [textBetween, List.flatMap_cons, List.append_assoc]
    rw [hsplit, lines_append ending hfirst.2, ih hothers.1 hothers.2]

/-- `headerLines` of the header part of a written block returns its trimmed header lines. -/
theorem headerLines_betweenLines (ending : LineEnding) {first : String} {others : List String}
    (hfirst : ScannedLine first) (hothers : ∀ line ∈ others, ScannedLine line) :
    headerLines (betweenLines ending (Utf8.encode (Blank.trim first))
      (others.map fun line => Utf8.encode (Blank.trim line))) =
        .ok ((first :: others).map Blank.trim) := by
  have hnamed : ((first :: others).map Blank.trim).find?
      (fun line => (Block.header? line).isNone) = none := by
    rw [List.find?_eq_none]
    intro line hline
    obtain ⟨line, hmem, rfl⟩ := List.mem_map.mp hline
    rw [Bool.not_eq_true, Option.isNone_eq_false_iff]
    rcases List.mem_cons.mp hmem with rfl | hother
    · exact hfirst.trim.named
    · exact (hothers line hother).trim.named
  have hlines : ∀ line ∈ others.map Blank.trim,
      Utf8.encode line ≠ [] ∧ Whole (Utf8.encode line) := by
    intro line hline
    obtain ⟨line, hother, rfl⟩ := List.mem_map.mp hline
    exact ⟨encode_ne_nil_of_scanned (hothers line hother), whole_of_scanned (hothers line hother)⟩
  have hencode : (others.map fun line => Utf8.encode (Blank.trim line)) =
      (others.map Blank.trim).map Utf8.encode := by
    rw [List.map_map]
    rfl
  have hcut := lines_textBetween ending ⟨encode_ne_nil_of_scanned hfirst, whole_of_scanned hfirst⟩ hlines
  rw [List.map_cons] at hnamed ⊢
  rw [hencode, ← encode_textBetween, headerLines, text_encode]
  simp only [bind, Except.bind, hcut, hnamed]

/-- `text` of ASCII bytes succeeds. -/
theorem text_of_ascii {input : Bytes} (h : ∀ b ∈ input, b < 128) :
    text input = .ok (Utf8.ascii input) := by
  rw [← text_encode, Utf8.encode_ascii h]

/-- `contents` of ASCII data decodes them without their white space. -/
theorem contents_of_ascii {data : Bytes} (h : ∀ b ∈ data, b < 128) :
    contents data = (Base64.decode
      (data.filter fun b => !Blank.isBlank (Char.ofNat b.toNat))).mapError .badData := by
  simp only [contents, text_of_ascii h, bind, Except.bind, Blank.encode_strip_ascii h]

/-- `contents` of base64 that is wrapped into lines returns what it encodes. -/
theorem contents_joinLines (ending : LineEnding) {lines : List Bytes} {bytes : Bytes}
    (hlines : lines.flatten = Base64.encode bytes) :
    contents (joinLines ending lines) = .ok bytes := by
  have hascii : ∀ b ∈ joinLines ending lines, b < 128 := by
    intro b hb
    rcases mem_flatten_or_mem_ending hb with hsymbol | hend
    · exact Base64.lt_of_mem_encode (hlines ▸ hsymbol)
    · rcases mem_ending hend with rfl | rfl <;> decide
  have hstrip : ((joinLines ending lines).filter
      fun b => !Blank.isBlank (Char.ofNat b.toNat)) = Base64.encode bytes := by
    rw [filter_joinLines, hlines, List.filter_eq_self.mpr]
    · intro b hb
      simp [(plain_of_mem_base64 hb).2.2.2.2]
    · intro b hb
      rcases mem_ending hb with rfl | rfl <;> decide
  rw [contents_of_ascii hascii, hstrip, Base64.decode_encode]
  rfl

end Payload

/-- `toBlock` of a tag and base64 that is wrapped into lines returns the block without header
lines. -/
theorem toBlock_wraps {tag : String} (htag : tag ≠ "") (ending : LineEnding) {lines : List Bytes}
    {bytes : Bytes} (hlines : Wraps lines bytes) :
    Parts.toBlock ⟨Utf8.encode tag, joinLines ending lines, Utf8.encode tag⟩ =
      .ok ⟨tag, [], bytes⟩ := by
  have hempty : tag.isEmpty = false := by
    rw [← Bool.not_eq_true, String.isEmpty_iff]
    exact htag
  have hdivide := divide_data ending
    fun line hline => ⟨hlines.ne_nil line hline, whole_of_unbroken (hlines.unbroken hline)⟩
  simp only [Parts.toBlock, text_encode, bind, Except.bind, hempty, Bool.false_eq_true, if_false,
    ne_eq, not_true_eq_false, hdivide, contents_joinLines ending hlines.flatten]
  rfl

/-- `toBlock` of the parts of a written block returns its trimmed form. -/
theorem toBlock_written {block : Block} (hblock : block.Scanned) (ending : LineEnding) :
    Parts.toBlock ⟨Utf8.encode block.tag, joinLines ending block.bodyLines,
      Utf8.encode block.tag⟩ = .ok block.trimmed := by
  obtain ⟨tag, headers, bytes⟩ := block
  have hne : tag ≠ "" := by
    rintro rfl
    exact hblock.tag.ne_nil rfl
  have htag : tag.isEmpty = false := by
    rw [← Bool.not_eq_true, String.isEmpty_iff]
    exact hne
  cases headers with
  | nil => exact toBlock_wraps hne ending (wraps_dataLines bytes)
  | cons first others =>
    have hfirst := hblock.lines first List.mem_cons_self
    have hothers := fun line hline => hblock.lines line (List.mem_cons_of_mem first hline)
    have hbody : Block.bodyLines ⟨tag, first :: others, bytes⟩ =
        Utf8.encode (Blank.trim first) :: (others.map fun line => Utf8.encode (Blank.trim line)) ++
          [[]] ++ dataLines bytes := rfl
    have hlines : ∀ line ∈ others.map fun line => Utf8.encode (Blank.trim line),
        line ≠ [] ∧ Whole line := by
      intro line hline
      obtain ⟨text, htext, rfl⟩ := List.mem_map.mp hline
      exact ⟨encode_ne_nil_of_scanned (hothers text htext), whole_of_scanned (hothers text htext)⟩
    have hdata : ∀ line ∈ dataLines bytes, 0x0A ∉ line :=
      fun line hline => (unbroken_of_mem_dataLines hline).2.1
    have hdivide := divide_headers ending (whole_of_scanned hfirst) hlines hdata
    rw [hbody]
    simp only [Parts.toBlock, text_encode, bind, Except.bind, htag, Bool.false_eq_true, if_false,
      ne_eq, not_true_eq_false, hdivide,
      contents_joinLines ending (flatten_dataLines bytes),
      headerLines_betweenLines ending hfirst hothers]
    rfl

/-- `parse` of a written block returns its trimmed form, with either line ending and any
contents. -/
theorem parse_written {block : Block} (hblock : block.Scanned) (ending : LineEnding) :
    parse (block.segment ending) = .ok block.trimmed := by
  rw [parse, cut?_written hblock]
  exact toBlock_written hblock ending

/-- `parse` of framed base64 lines returns the block, with either line ending and lines of any
lengths. -/
theorem parse_wraps {tag : String} (htag : Undashed (Utf8.encode tag)) (ending : LineEnding)
    {lines : List Bytes} {bytes : Bytes} (hlines : Wraps lines bytes) :
    parse (framed ending (Utf8.encode tag) lines) = .ok ⟨tag, [], bytes⟩ := by
  have hne : tag ≠ "" := by
    rintro rfl
    exact htag.ne_nil rfl
  have hcut := cut?_framed htag (fun line hline => unmatched_of_absent (hlines.unmarked hline))
    (not_gap_of_head_joinLines ending fun line hline =>
      not_gap_of_mem_wraps hlines (List.mem_of_mem_head? hline))
  rw [parse, hcut]
  exact toBlock_wraps hne ending hlines

end ClientIdentity.Pem.Segment
