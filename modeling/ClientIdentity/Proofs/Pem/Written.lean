import ClientIdentity.Pem.Printer
import ClientIdentity.Pem.Segment
import ClientIdentity.Proofs.Bytes.Chunks
import ClientIdentity.Proofs.Bytes.Crlf
import ClientIdentity.Proofs.Pem.Block
import ClientIdentity.Proofs.Pem.Matcher
import ClientIdentity.Proofs.Text.Base64
import ClientIdentity.Proofs.Text.Blank

namespace ClientIdentity.Pem

open Bytes

/-- No byte of the input ends a line. -/
def Unbroken (input : Bytes) : Prop :=
  0x0A ∉ input ∧ 0x0D ∉ input

instance (input : Bytes) : Decidable (Unbroken input) :=
  inferInstanceAs (Decidable (_ ∧ _))

/-- A header line that comes back as it was written: it has no white space at its ends, a colon, no
line break and no end marker. The name in front of the colon may be empty, and begin markers do no
harm. -/
structure WritableLine (line : String) : Prop where
  trimmed : Blank.trim line = line
  named : (Block.header? line).isSome
  unbroken : Unbroken (Utf8.encode line)
  unmarked : ¬ endMarker <:+: Utf8.encode line

/-- A block that comes back as it was written: its tag is not empty, and the five dashes behind the
tag are the first ones. Single dashes and line breaks may stand in a tag. Nothing is required of the
contents. -/
structure Block.Writable (block : Block) : Prop where
  tag_ne : block.tag ≠ ""
  undashed : ¬ dashes <:+: Utf8.encode block.tag
  getLast_ne : (Utf8.encode block.tag).getLast? ≠ some 0x2D
  lines : ∀ line ∈ block.headerLines, WritableLine line

/-- The block as it comes back: writing takes the white space off the ends of its header lines. -/
def Block.trimmed (block : Block) : Block :=
  { block with headerLines := block.headerLines.map Blank.trim }

/-- A block and its trimmed form have the same headers. -/
theorem Block.headers_trimmed (block : Block) : block.trimmed.headers = block.headers := by
  have hsame : Block.header? ∘ Blank.trim = Block.header? := by
    funext line
    rw [Function.comp_apply, Block.header?_trim]
  rw [Block.headers, Block.headers, Block.trimmed, List.filterMap_map, hsame]

theorem Block.encode_trimmed (block : Block) (ending : LineEnding) :
    block.trimmed.encode ending = block.encode ending := by
  have hlines : (block.trimmed.headerLines.map fun line => Utf8.encode (Blank.trim line)) =
      block.headerLines.map fun line => Utf8.encode (Blank.trim line) := by
    rw [Block.trimmed, List.map_map]
    apply List.map_congr_left
    intro line _
    rw [Function.comp_apply, Blank.trim_trim]
  have hempty : block.trimmed.headerLines.isEmpty = block.headerLines.isEmpty := List.isEmpty_map
  have hheaders : block.trimmed.writtenHeaders = block.writtenHeaders := by
    rw [Block.writtenHeaders, Block.writtenHeaders, hlines, hempty]
  rw [Block.encode, Block.encode, Block.writtenLines, Block.writtenLines, hheaders]
  rfl

section Lines

theorem mem_ending {ending : LineEnding} {b : UInt8} (h : b ∈ ending.bytes) :
    b = 0x0A ∨ b = 0x0D := by
  cases ending with
  | lf => exact .inl (List.mem_singleton.mp h)
  | crlf =>
    simp only [LineEnding.bytes, List.mem_cons, List.not_mem_nil, or_false] at h
    exact h.symm

theorem joinLines_nil (ending : LineEnding) : joinLines ending [] = [] := rfl

theorem joinLines_cons (ending : LineEnding) (line : Bytes) (lines : List Bytes) :
    joinLines ending (line :: lines) = line ++ ending.bytes ++ joinLines ending lines := rfl

theorem joinLines_append (ending : LineEnding) (first second : List Bytes) :
    joinLines ending (first ++ second) = joinLines ending first ++ joinLines ending second :=
  List.flatMap_append

theorem filter_joinLines {p : UInt8 → Bool} (ending : LineEnding)
    (h : ∀ b ∈ ending.bytes, p b = false) (lines : List Bytes) :
    (joinLines ending lines).filter p = lines.flatten.filter p := by
  have hending : ending.bytes.filter p = [] := by
    rw [List.filter_eq_nil_iff]
    intro b hb
    simp [h b hb]
  induction lines with
  | nil => rfl
  | cons line lines ih =>
    rw [joinLines_cons, List.filter_append, List.filter_append, hending, List.append_nil, ih,
      List.flatten_cons, List.filter_append]

theorem not_mem_joinLines_lf {lines : List Bytes} (hlines : ∀ line ∈ lines, Unbroken line) :
    0x0D ∉ joinLines .lf lines := by
  intro hcr
  obtain ⟨line, hline, hmem⟩ := List.mem_flatMap.mp hcr
  rcases List.mem_append.mp hmem with hmem | hmem
  · exact (hlines line hline).2 hmem
  · exact absurd hmem (by decide)

/-- `toCrlf` of lines joined with line feeds joins them with the other ending. -/
theorem toCrlf_joinLines {lines : List Bytes} (hlines : ∀ line ∈ lines, 0x0A ∉ line) :
    toCrlf (joinLines .lf lines) = joinLines .crlf lines := by
  induction lines with
  | nil => rfl
  | cons line lines ih =>
    rw [List.forall_mem_cons] at hlines
    rw [joinLines_cons, joinLines_cons, toCrlf_append, toCrlf_append, ih hlines.2,
      toCrlf_of_not_mem hlines.1]
    rfl

/-- A marker that stands in one line if it stands in lines at all: it holds no line feed, and it does
not end in a carriage return. -/
structure WithinLine (marker : Bytes) : Prop where
  single : 0x0A ∉ marker
  last : marker.getLast? ≠ some 0x0D

theorem Unbroken.withinLine {marker : Bytes} (h : Unbroken marker) : WithinLine marker :=
  ⟨h.1, fun hlast => h.2 (List.mem_of_getLast? hlast)⟩

variable {marker : Bytes} (hmarker : WithinLine marker) (ending : LineEnding)

include hmarker

/-- The first marker behind a line without one is the first marker of the rest. -/
theorem firstAt_line {line more : Bytes} {i : Nat} (hline : ¬ marker <:+: line)
    (h : FirstAt marker more i) :
    FirstAt marker (line ++ ending.bytes ++ more) ((line ++ ending.bytes).length + i) := by
  cases ending with
  | lf => simpa [LineEnding.bytes] using h.append_cons hmarker.single hline
  | crlf =>
    -- The carriage return is part of the line here, and ends no occurrence.
    have hlong : ¬ marker <:+: line ++ [0x0D] := by
      rw [List.infix_concat_iff, not_or]
      refine ⟨fun hsuffix => ?_, hline⟩
      have hne : marker ≠ [] := fun hnil => hline (hnil ▸ List.nil_infix)
      obtain ⟨front, hfront⟩ := hsuffix
      have hlast := congrArg List.getLast? hfront
      rw [List.getLast?_append_of_ne_nil _ hne, List.getLast?_concat] at hlast
      exact hmarker.last hlast
    have hlf := h.append_cons hmarker.single hlong
    have hlength : (line ++ LineEnding.crlf.bytes).length + i = (line ++ [0x0D]).length + 1 + i := by
      simp only [LineEnding.bytes, List.length_append, List.length_cons, List.length_nil]
    have hinput : line ++ LineEnding.crlf.bytes ++ more = line ++ [0x0D] ++ 0x0A :: more := by
      simp [LineEnding.bytes]
    rw [hlength, hinput]
    exact hlf

theorem firstAt_joinLines {lines : List Bytes} (hlines : ∀ line ∈ lines, ¬ marker <:+: line)
    {more : Bytes} {i : Nat} (h : FirstAt marker more i) :
    FirstAt marker (joinLines ending lines ++ more) ((joinLines ending lines).length + i) := by
  induction lines with
  | nil => simpa [joinLines_nil] using h
  | cons line lines ih =>
    simp only [List.forall_mem_cons] at hlines
    have hrest := firstAt_line hmarker ending hlines.1 (ih hlines.2)
    rw [joinLines_cons, List.append_assoc, List.length_append, Nat.add_assoc]
    exact hrest

omit hmarker in
/-- The matcher skips unmatched lines. -/
theorem skips_joinLines (hunbroken : Unbroken marker) {lines : List Bytes}
    (hlines : ∀ line ∈ lines, Segment.Unmatched marker line) :
    Segment.Skips marker (joinLines ending lines) := by
  induction lines with
  | nil => exact .nil _
  | cons line lines ih =>
    simp only [List.forall_mem_cons] at hlines
    refine Segment.Skips.append ?_ (ih hlines.2)
    cases ending with
    | lf => exact .of_unmatched hunbroken.1 hlines.1
    | crlf =>
      have hempty : Segment.Unmatched marker [] := Segment.Unmatched.of_append hlines.1
      have hcr := Segment.Skips.of_unmatched hunbroken.2 hlines.1
      have hlf := Segment.Skips.of_unmatched hunbroken.1 hempty
      have hboth := hcr.append hlf
      rwa [List.nil_append, List.append_assoc] at hboth

end Lines

section Payload

/-- Every byte of a base64 text is a symbol or padding, and none is a dash, a colon or white
space. -/
theorem plain_of_mem_base64 {contents : Bytes} {b : UInt8} (h : b ∈ Base64.encode contents) :
    b ≠ 0x2D ∧ b ≠ 0x0A ∧ b ≠ 0x0D ∧ Segment.isGap b = false ∧
      Blank.isBlank (Char.ofNat b.toNat) = false := by
  have hall : ∀ b : UInt8, Base64.isSymbol b = true ∨ b = Base64.pad →
      b ≠ 0x2D ∧ b ≠ 0x0A ∧ b ≠ 0x0D ∧ Segment.isGap b = false ∧
        Blank.isBlank (Char.ofNat b.toNat) = false := forall_byte (by decide)
  exact hall b (Base64.isSymbol_or_eq_pad h)

/-- The lines of contents. -/
def dataLines (contents : Bytes) : List Bytes :=
  chunks lineWidth (Base64.encode contents)

theorem flatten_dataLines (contents : Bytes) :
    (dataLines contents).flatten = Base64.encode contents :=
  flatten_chunks (by decide) _

/-- Lines of any lengths that hold contents in base64. -/
structure Wraps (lines : List Bytes) (contents : Bytes) : Prop where
  ne_nil : ∀ line ∈ lines, line ≠ []
  flatten : lines.flatten = Base64.encode contents

theorem wraps_dataLines (contents : Bytes) : Wraps (dataLines contents) contents :=
  ⟨fun _ hline => ne_nil_of_mem_chunks hline, flatten_dataLines contents⟩

section Wraps

variable {lines : List Bytes} {contents line : Bytes} (h : Wraps lines contents)
  (hline : line ∈ lines)

include h hline

theorem Wraps.mem_base64 {b : UInt8} (hb : b ∈ line) : b ∈ Base64.encode contents := by
  rw [← h.flatten]
  exact List.mem_flatten_of_mem hline hb

theorem Wraps.undashed : 0x2D ∉ line :=
  fun hdash => (plain_of_mem_base64 (h.mem_base64 hline hdash)).1 rfl

theorem Wraps.unbroken : Unbroken line :=
  ⟨fun hlf => (plain_of_mem_base64 (h.mem_base64 hline hlf)).2.1 rfl,
    fun hcr => (plain_of_mem_base64 (h.mem_base64 hline hcr)).2.2.1 rfl⟩

theorem Wraps.unmarked : ¬ endMarker <:+: line :=
  fun hmarker => h.undashed hline (hmarker.subset (by decide))

end Wraps

theorem undashed_dataLines (contents : Bytes) : ∀ line ∈ dataLines contents, 0x2D ∉ line :=
  fun _ hline => (wraps_dataLines contents).undashed hline

theorem undashed_joinLines (ending : LineEnding) {lines : List Bytes}
    (hlines : ∀ line ∈ lines, 0x2D ∉ line) : 0x2D ∉ joinLines ending lines := by
  intro hdash
  simp only [joinLines, List.mem_flatMap, List.mem_append] at hdash
  obtain ⟨line, hline, hmem | hend⟩ := hdash
  · exact hlines line hline hmem
  · rcases mem_ending hend with h | h <;> cases h

theorem unbroken_of_mem_dataLines {bytes line : Bytes} (h : line ∈ dataLines bytes) :
    line ≠ [] ∧ Unbroken line :=
  ⟨(wraps_dataLines bytes).ne_nil line h, (wraps_dataLines bytes).unbroken h⟩

theorem mem_flatten_or_mem_ending {ending : LineEnding} {lines : List Bytes} {b : UInt8}
    (h : b ∈ joinLines ending lines) : b ∈ lines.flatten ∨ b ∈ ending.bytes := by
  simp only [joinLines, List.mem_flatMap, List.mem_append] at h
  obtain ⟨line, hline, hmem | hend⟩ := h
  · exact .inl (List.mem_flatten_of_mem hline hmem)
  · exact .inr hend

/-- The lines between the first and the last one of a block. -/
def Block.bodyLines (block : Block) : List Bytes :=
  block.writtenHeaders ++ dataLines block.contents

/-- The lines of a block with header lines are these, an empty line and the data lines. -/
theorem Block.bodyLines_of_headerLines {block : Block} (h : block.headerLines ≠ []) :
    block.bodyLines = (block.headerLines.map fun line => Utf8.encode (Blank.trim line)) ++
      ([] :: dataLines block.contents) := by
  rw [Block.bodyLines, Block.writtenHeaders, if_neg (by simpa using h), List.append_assoc]
  rfl

/-- A line of a block is a header line, the empty line behind those, or a data line. -/
theorem Block.mem_bodyLines {block : Block} {line : Bytes} (h : line ∈ block.bodyLines) :
    (∃ text ∈ block.headerLines, line = Utf8.encode (Blank.trim text)) ∨ line = [] ∨
      line ∈ dataLines block.contents := by
  rw [Block.bodyLines, Block.writtenHeaders, List.mem_append] at h
  rcases h with hheader | hdata
  · split_ifs at hheader
    · cases hheader
    · rw [List.mem_append, List.mem_map, List.mem_singleton] at hheader
      rcases hheader with ⟨text, htext, rfl⟩ | rfl
      · exact .inl ⟨text, htext, rfl⟩
      · exact .inr (.inl rfl)
  · exact .inr (.inr hdata)

/-- The first line of a block. -/
def beginLine (tag : Bytes) : Bytes :=
  beginMarker ++ tag ++ dashes

/-- Lines between the first and the last line of a block. -/
def framed (ending : LineEnding) (tag : Bytes) (lines : List Bytes) : Bytes :=
  beginLine tag ++ ending.bytes ++ joinLines ending lines ++ endOf tag

/-- A written block without the ending of its last line. -/
def Block.segment (block : Block) (ending : LineEnding) : Bytes :=
  beginLine (Utf8.encode block.tag) ++ ending.bytes ++ joinLines ending block.bodyLines ++
    endOf (Utf8.encode block.tag)

theorem Block.segment_eq_framed (block : Block) (ending : LineEnding) :
    block.segment ending = framed ending (Utf8.encode block.tag) block.bodyLines := rfl

theorem Block.writtenLines_eq (block : Block) : block.writtenLines =
    beginLine (Utf8.encode block.tag) :: (block.bodyLines ++ [endOf (Utf8.encode block.tag)]) := by
  simp only [Block.writtenLines, Block.bodyLines, dataLines, beginLine, List.append_assoc,
    List.cons_append, List.nil_append]

theorem Block.encode_eq (block : Block) (ending : LineEnding) :
    block.encode ending = block.segment ending ++ ending.bytes := by
  rw [Block.encode, Block.writtenLines_eq, joinLines_cons, joinLines_append, joinLines_cons,
    joinLines_nil, List.append_nil, Block.segment]
  simp only [List.append_assoc]

/-- A file of blocks, one right behind the other. -/
def encodeAll (ending : LineEnding) (blocks : List Block) : Bytes :=
  blocks.flatMap (Block.encode ending)

theorem encodeAll_eq_joinLines (ending : LineEnding) (blocks : List Block) :
    encodeAll ending blocks = joinLines ending (blocks.flatMap Block.writtenLines) := by
  rw [joinLines, List.flatMap_assoc]
  rfl

end Payload

section Markers

theorem beginMarker_eq : beginMarker = dashes ++ 0x42 :: [0x45, 0x47, 0x49, 0x4E, 0x20] := by
  decide

theorem endMarker_eq : endMarker = dashes ++ [0x45, 0x4E, 0x44, 0x20] := by decide

theorem dashes_eq : dashes = 0x2D :: [0x2D, 0x2D, 0x2D, 0x2D] := by decide

theorem unbroken_dashes : Unbroken dashes := by decide

theorem unbroken_endMarker : Unbroken endMarker := by decide

theorem Unbroken.append {first second : Bytes} (hfirst : Unbroken first)
    (hsecond : Unbroken second) : Unbroken (first ++ second) := by
  simp only [Unbroken, List.mem_append, not_or]
  exact ⟨⟨hfirst.1, hsecond.1⟩, hfirst.2, hsecond.2⟩

theorem unbroken_endOf {tag : Bytes} (h : Unbroken tag) : Unbroken (endOf tag) :=
  (unbroken_endMarker.append h).append unbroken_dashes

/-- The end marker of a label ends in a dash. -/
theorem withinLine_endOf {tag : Bytes} (hsingle : 0x0A ∉ tag) : WithinLine (endOf tag) where
  single := by
    have hmarker : 0x0A ∉ endMarker := by decide
    have hdashes : 0x0A ∉ dashes := by decide
    simp only [endOf, List.mem_append, hmarker, hsingle, hdashes, or_self, not_false_eq_true]
  last := by
    have hdashes : dashes.getLast? = some 0x2D := by decide
    rw [endOf, List.getLast?_append_of_ne_nil _ (by decide), hdashes]
    decide

theorem dashes_infix_endMarker : dashes <:+: endMarker := by
  rw [endMarker_eq]
  exact (List.prefix_append _ _).isInfix

/-- Dashes behind a label add no end marker to it: the marker ends in a blank. -/
theorem endMarker_infix_append_dashes_iff {input : Bytes} :
    endMarker <:+: input ++ dashes ↔ endMarker <:+: input := by
  have hreverse : endMarker.reverse = 0x20 :: [0x44, 0x4E, 0x45, 0x2D, 0x2D, 0x2D, 0x2D, 0x2D] := by
    decide
  have hspace : 0x20 ∉ dashes.reverse := by decide
  rw [← List.reverse_infix, List.reverse_append, hreverse, infix_append_iff hspace, ← hreverse,
    List.reverse_infix]

/-- The begin line of a label without end markers holds none. -/
theorem not_endMarker_infix_beginLine {tag : Bytes} (htag : ¬ dashes <:+: tag) :
    ¬ endMarker <:+: beginLine tag := by
  have hline : beginLine tag =
      dashes ++ 0x42 :: ([0x45, 0x47, 0x49, 0x4E] ++ 0x20 :: tag ++ dashes) := by
    simp only [beginLine, beginMarker_eq, List.append_assoc, List.cons_append, List.nil_append]
  have hshort : ¬ endMarker <:+: dashes := fun h => absurd h.length_le (by decide)
  have hword : ¬ dashes <:+: [0x45, 0x47, 0x49, 0x4E] :=
    fun h => absurd h.length_le (by decide)
  rw [hline, infix_append_cons_iff (by decide), endMarker_infix_append_dashes_iff, not_or]
  refine ⟨hshort, fun hmarker => ?_⟩
  have hdashes := dashes_infix_endMarker.trans hmarker
  rw [infix_append_cons_iff (by decide)] at hdashes
  exact hdashes.elim hword htag

end Markers

section Labels

/-- A label that ends at the first five dashes behind it. -/
structure Undashed (label : Bytes) : Prop where
  ne_nil : label ≠ []
  dashes : ¬ dashes <:+: label
  getLast_ne : label.getLast? ≠ some 0x2D

variable {label : Bytes} (hlabel : Undashed label)

include hlabel

/-- An undashed label is empty or ends in a byte other than a dash. -/
theorem Undashed.exists_eq_append :
    ∃ front b, label = front ++ [b] ∧ b ∉ Pem.dashes ∧ ¬ Pem.dashes <:+: front := by
  obtain ⟨hne, hundashed, hlast⟩ := hlabel
  obtain ⟨front, b, rfl⟩ := (List.eq_nil_or_concat label).resolve_left hne
  rw [List.concat_eq_append] at hundashed hlast ⊢
  refine ⟨front, b, rfl, fun hb => ?_, fun h => ?_⟩
  · rw [dashes_eq] at hb
    obtain rfl : b = 0x2D := by simpa using hb
    exact hlast List.getLast?_concat
  · exact hundashed (h.trans (List.prefix_append _ _).isInfix)

theorem Undashed.firstAt_dashes (rest : Bytes) :
    FirstAt Pem.dashes (label ++ Pem.dashes ++ rest) label.length := by
  obtain ⟨front, b, rfl, hb, hfront⟩ := hlabel.exists_eq_append
  have hat : FirstAt Pem.dashes (Pem.dashes ++ rest) 0 :=
    firstAt_zero_iff.mpr (List.prefix_append _ _)
  rw [List.length_append, List.length_singleton, List.append_assoc, List.append_assoc]
  exact hat.append_cons hb hfront

end Labels

section Framed

variable {tag : Bytes} {lines : List Bytes}

/-- A marker in no line of framed lines but at the start of the last one is first found there. -/
theorem firstAt_framed {marker : Bytes} (hmarker : WithinLine marker) (ending : LineEnding)
    (hbegin : ¬ marker <:+: beginLine tag) (hlines : ∀ line ∈ lines, ¬ marker <:+: line)
    (hend : marker <+: endOf tag) (rest : Bytes) : FirstAt marker (framed ending tag lines ++ rest)
      ((beginLine tag ++ ending.bytes).length + (joinLines ending lines).length) := by
  have hlast : FirstAt marker (endOf tag ++ rest) 0 :=
    firstAt_zero_iff.mpr (hend.trans (List.prefix_append _ _))
  have hall := firstAt_line hmarker ending hbegin (firstAt_joinLines hmarker ending hlines hlast)
  rwa [Nat.add_zero, ← List.append_assoc, ← List.append_assoc] at hall

/-- The first end marker of framed lines starts the last line. -/
theorem firstAt_endMarker_framed (htag : ¬ dashes <:+: tag)
    (hlines : ∀ line ∈ lines, ¬ endMarker <:+: line) (ending : LineEnding) (rest : Bytes) :
    FirstAt endMarker (framed ending tag lines ++ rest)
      ((beginLine tag ++ ending.bytes).length + (joinLines ending lines).length) :=
  firstAt_framed unbroken_endMarker.withinLine ending (not_endMarker_infix_beginLine htag) hlines
    (endMarker_prefix_endOf tag) rest

end Framed

namespace Block

variable {block : Block} (hblock : block.Writable)

include hblock

theorem Writable.undashed_tag : Undashed (Utf8.encode block.tag) where
  ne_nil hnil := hblock.tag_ne (Utf8.encode_injective (hnil.trans rfl))
  dashes := hblock.undashed
  getLast_ne := hblock.getLast_ne

/-- No line of a writable block between the first and the last one holds an end marker. -/
theorem Writable.not_endMarker_infix_bodyLines :
    ∀ line ∈ block.bodyLines, ¬ endMarker <:+: line := by
  intro line hline
  rcases Block.mem_bodyLines hline with ⟨text, htext, rfl⟩ | rfl | hdata
  · rw [(hblock.lines text htext).trimmed]
    exact (hblock.lines text htext).unmarked
  · decide
  · exact fun hmarker => undashed_dataLines _ line hdata (hmarker.subset (by decide))

/-- No line of a writable block holds a line break, if its tag holds none. -/
theorem Writable.unbroken_writtenLines (htag : Unbroken (Utf8.encode block.tag)) :
    ∀ line ∈ block.writtenLines, Unbroken line := by
  intro line hline
  rw [Block.writtenLines_eq, List.mem_cons, List.mem_append, List.mem_singleton] at hline
  rcases hline with rfl | hbody | rfl
  · exact (Unbroken.append (by decide) htag).append unbroken_dashes
  · rcases Block.mem_bodyLines hbody with ⟨text, htext, rfl⟩ | rfl | hdata
    · rw [(hblock.lines text htext).trimmed]
      exact (hblock.lines text htext).unbroken
    · decide
    · exact (unbroken_of_mem_dataLines hdata).2
  · exact unbroken_endOf htag

/-- The first end marker of a writable block starts its last line. -/
theorem Writable.firstAt_endMarker (ending : LineEnding) (rest : Bytes) :
    FirstAt endMarker (block.segment ending ++ rest)
      ((beginLine (Utf8.encode block.tag) ++ ending.bytes).length +
        (joinLines ending block.bodyLines).length) :=
  firstAt_endMarker_framed hblock.undashed hblock.not_endMarker_infix_bodyLines ending rest

end Block

end ClientIdentity.Pem
