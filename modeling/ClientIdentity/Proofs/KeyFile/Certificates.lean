import ClientIdentity.Proofs.KeyFile.Questions
import ClientIdentity.Proofs.Pem.Interleaved
import ClientIdentity.Proofs.Pem.Section

namespace ClientIdentity

open Bytes

namespace Pem

/-- Whole lines of other text, in which no block begins. -/
structure Prose where
  bytes : Bytes
  whole : ∀ b ∈ bytes.getLast?, Section.endsLine b = true
  unmarked : ¬ beginMarker <:+: bytes

/-- A block without header lines. Its contents are in base64, on lines of any lengths. -/
structure Wrapped where
  tag : String
  contents : Bytes
  lines : List Bytes
  ending : LineEnding
  tag_ne : tag ≠ ""
  undashed : 0x2D ∉ Utf8.encode tag
  unbroken : Unbroken (Utf8.encode tag)
  wraps : Wraps lines contents

/-- A piece of a file. -/
inductive Piece where
  | prose (text : Prose)
  | block (wrapped : Wrapped)

namespace Wrapped

def block (wrapped : Wrapped) : Block :=
  ⟨wrapped.tag, [], wrapped.contents⟩

theorem tag_block (wrapped : Wrapped) : wrapped.block.tag = wrapped.tag := rfl

/-- The block as it stands in the file. -/
def text (wrapped : Wrapped) : Bytes :=
  framed wrapped.ending (Utf8.encode wrapped.tag) wrapped.lines ++ wrapped.ending.bytes

end Wrapped

namespace Piece

def bytes : Piece → Bytes
  | .prose text => text.bytes
  | .block wrapped => wrapped.text

def block? : Piece → Option Block
  | .prose _ => none
  | .block wrapped => some wrapped.block

end Piece

section Prose

variable (prose : Prose)

/-- A piece of text is empty or ends in a byte that ends a line, which no begin marker holds. -/
theorem Prose.eq_nil_or : prose.bytes = [] ∨ ∃ front b, prose.bytes = front ++ [b] ∧
    Section.endsLine b = true ∧ b ∉ beginMarker ∧ ¬ beginMarker <:+: front := by
  obtain hnil | ⟨front, b, hbytes⟩ := List.eq_nil_or_concat prose.bytes
  · exact .inl hnil
  · rw [List.concat_eq_append] at hbytes
    have hb : Section.endsLine b = true := prose.whole b (by rw [hbytes, List.getLast?_concat]; rfl)
    refine .inr ⟨front, b, hbytes, hb, ?_, fun hmarker => prose.unmarked ?_⟩
    · rcases Section.endsLine_eq_true_iff.mp hb with rfl | rfl <;> decide
    · rw [hbytes]
      exact hmarker.trans (List.prefix_append _ _).isInfix

/-- The text that the ending of a line is. -/
def Prose.ofEnding (ending : LineEnding) : Prose where
  bytes := ending.bytes
  whole := by cases ending <;> simp [LineEnding.bytes, Section.endsLine]
  unmarked := not_beginMarker_infix_ending ending

/-- A step of the scan does not depend on text in front of its input. -/
theorem step?_prose (rest : Bytes) : step? (prose.bytes ++ rest) = step? rest := by
  obtain hnil | ⟨front, b, hbytes, -, hb, hfront⟩ := prose.eq_nil_or
  · rw [hnil, List.nil_append]
  · rw [hbytes, List.append_assoc, List.singleton_append]
    cases hsplit : splitAt? beginMarker rest with
    | none =>
      have hnone : splitAt? beginMarker (front ++ b :: rest) = none := by
        apply splitAt?_eq_none_of_not_infix
        rw [infix_append_cons_iff hb, not_or]
        exact ⟨hfront, not_infix_of_splitAt?_eq_none hsplit⟩
      simp only [step?, hsplit, hnone]
    | some parts =>
      obtain ⟨before, found⟩ := parts
      obtain ⟨i, hat, -, rfl⟩ := splitAt?_eq_some_iff.mp hsplit
      have hlater : splitAt? beginMarker (front ++ b :: rest) =
          some ((front ++ b :: rest).take (front.length + 1 + i), rest.drop i) := by
        refine splitAt?_eq_some_iff.mpr ⟨_, hat.append_cons hb hfront, rfl, ?_⟩
        rw [Nat.add_assoc, List.drop_length_add_append, Nat.add_comm 1, List.drop_succ_cons]
      simp only [step?, hsplit, hlater, Option.map_some]

theorem blocks_prose (rest : Bytes) : blocks (prose.bytes ++ rest) = blocks rest := by
  have hstep := step?_prose prose rest
  cases hrest : step? rest with
  | none =>
    rw [hrest] at hstep
    rw [blocks_of_step?_eq_none hstep, blocks_of_step?_eq_none hrest]
  | some found =>
    rw [hrest] at hstep
    rw [blocks_of_step?_eq_some hstep, blocks_of_step?_eq_some hrest]

/-- No line of an input without begin markers begins with one. -/
theorem not_beginMarker_prefix_of_mem_lines {input : Bytes} (h : ¬ beginMarker <:+: input) :
    ∀ line ∈ Section.lines input, ¬ beginMarker <+: line := by
  intro line hline hmarker
  obtain ⟨before, after, rfl, -⟩ := Split.exists_append_of_mem_behind hline
  exact h (hmarker.isInfix.trans ⟨before, after, rfl⟩)

/-- `Section.read` ignores text in front of its input. -/
theorem read_prose (rest : Bytes) : Section.read (prose.bytes ++ rest) = Section.read rest := by
  obtain hnil | ⟨front, b, hbytes, hb, -, -⟩ := prose.eq_nil_or
  · rw [hnil, List.nil_append]
  · have hlines : Section.lines (prose.bytes ++ rest) =
        Section.lines prose.bytes ++ Section.lines rest := by
      rw [hbytes, List.append_assoc, List.singleton_append]
      exact Split.behind_append hb front rest
    rw [Section.read, hlines,
      Section.read_unmarked (not_beginMarker_prefix_of_mem_lines prose.unmarked), Section.read]

/-- `Section.read` finds neither sections nor a fault in an input without begin markers. -/
theorem read_of_absent {input : Bytes} (h : ¬ beginMarker <:+: input) :
    Section.read input = ⟨[], none⟩ := by
  have hread := Section.read_unmarked (not_beginMarker_prefix_of_mem_lines h) []
  rw [List.append_nil] at hread
  rw [Section.read, hread]
  rfl

end Prose

section Wrapped

variable (wrapped : Wrapped) (rest : Bytes)

theorem Wrapped.undashed_tag : Undashed (Utf8.encode wrapped.tag) := by
  have hplain : wrapped.block.Plain := ⟨rfl, wrapped.undashed, wrapped.unbroken⟩
  exact (hplain.writable wrapped.tag_ne).undashed_tag

/-- `blocks` returns a block with lines of any lengths, and then the blocks of the rest. -/
theorem blocks_wrapped : blocks (wrapped.text ++ rest) = wrapped.block :: blocks rest := by
  have hgap : ¬ beginMarker <:+: [] := by decide
  have hparse := Segment.parse_wraps wrapped.undashed_tag wrapped.ending wrapped.wraps
  have hclosed : Closed wrapped.ending (Utf8.encode wrapped.tag) wrapped.lines :=
    closed_of_unmarked wrapped.undashed_tag.dashes fun line hline => wrapped.wraps.unmarked hline
  have hstep := step?_framed wrapped.undashed_tag hclosed hparse hgap (wrapped.ending.bytes ++ rest)
  rw [List.nil_append, ← List.append_assoc] at hstep
  have hending := blocks_prose (.ofEnding wrapped.ending) rest
  rw [Wrapped.text, blocks_of_step?_eq_some hstep]
  exact congrArg (wrapped.block :: ·) hending

/-- `Section.read` returns the section of a block with lines of any lengths if its label is known,
and then those of the rest. -/
theorem read_wrapped : Section.read (wrapped.text ++ rest) =
    { Section.read rest with
      sections := (if Section.knownLabels.contains (Utf8.encode wrapped.block.tag) then
        [Section.ofBlock wrapped.block] else []) ++ (Section.read rest).sections } := by
  have hbody : ∀ line ∈ wrapped.lines, Unbroken line ∧ ¬ dashes <+: line := by
    intro line hline
    refine ⟨wrapped.wraps.unbroken hline, fun hdashes => ?_⟩
    exact wrapped.wraps.undashed hline (hdashes.subset (by decide))
  have hread := Section.read_framed wrapped.ending wrapped.unbroken hbody rest wrapped.undashed
  rw [Section.decode_joinLines wrapped.ending wrapped.wraps.flatten] at hread
  rw [Wrapped.text, hread, wrapped.tag_block]
  split_ifs <;> rfl

end Wrapped

section Pieces

variable {pieces : List Piece} {tail : Bytes} (htail : ¬ beginMarker <:+: tail)

include htail

/-- `blocks` returns the blocks of a file of pieces in order. The last line of the file may have no
ending. -/
theorem blocks_pieces : blocks (pieces.flatMap Piece.bytes ++ tail) =
    pieces.filterMap Piece.block? := by
  induction pieces with
  | nil => exact blocks_of_absent htail
  | cons piece pieces ih =>
    rw [List.flatMap_cons, List.append_assoc]
    cases piece with
    | prose prose =>
      rw [Piece.bytes, blocks_prose, ih]
      rfl
    | block wrapped =>
      rw [Piece.bytes, blocks_wrapped, ih]
      rfl

/-- `Section.read` returns the blocks with known labels of a file of pieces, and no fault. -/
theorem read_pieces : Section.read (pieces.flatMap Piece.bytes ++ tail) =
    ⟨((pieces.filterMap Piece.block?).filter fun b =>
      Section.knownLabels.contains (Utf8.encode b.tag)).map Section.ofBlock, none⟩ := by
  induction pieces with
  | nil => exact read_of_absent htail
  | cons piece pieces ih =>
    rw [List.flatMap_cons, List.append_assoc]
    cases piece with
    | prose prose =>
      rw [Piece.bytes, read_prose, ih]
      rfl
    | block wrapped =>
      have hblocks : (Piece.block wrapped :: pieces).filterMap Piece.block? =
          wrapped.block :: pieces.filterMap Piece.block? := rfl
      rw [Piece.bytes, read_wrapped, ih, hblocks, List.filter_cons]
      split_ifs <;> rfl

end Pieces

end Pem

namespace KeyFile

open Pem

/-- The contents of the blocks that hold certificates, in order. -/
def certificatesOf (blocks : List Block) : List Bytes :=
  (blocks.filter fun block => block.tag == "CERTIFICATE").map Block.contents

section Certificates

variable {pieces : List Piece} {tail : Bytes} {files : FileSystem} {path : String}

/-- `loadCertificates` returns the contents of the certificate blocks of a file in order, as often
as they occur, and `NoCertificate` with the path if there are none. The blocks have any tags, lines
of any lengths and either line ending, and any lines without a begin marker may stand between them.
The result agrees with the certificate blocks that `blocks` returns. -/
theorem loadCertificates_pieces (htail : ¬ beginMarker <:+: tail)
    (hfile : files.read (Utf8.encode path) = .ok (pieces.flatMap Piece.bytes ++ tail)) :
    (loadCertificates files path).outcome =
        (if certificatesOf (pieces.filterMap Piece.block?) = [] then .error (.noCertificate path)
        else .ok (certificatesOf (pieces.filterMap Piece.block?))) ∧
      certificatesOf (blocks (pieces.flatMap Piece.bytes ++ tail)) =
        certificatesOf (pieces.filterMap Piece.block?) := by
  refine ⟨?_, by rw [blocks_pieces htail]⟩
  have hread : readCertificates files (Utf8.encode path) =
      .ok (certificatesOf (pieces.filterMap Piece.block?)) := by
    simp only [readCertificates, hfile, Section.certificates_of_read (read_pieces htail)]
    rfl
  rw [outcome_loadCertificates, hread]
  cases certificatesOf (pieces.filterMap Piece.block?) with
  | nil => rfl
  | cons first more => rfl

end Certificates

namespace Sample

/-- A certificate on two short lines. -/
def split : Wrapped where
  tag := "CERTIFICATE"
  contents := [0x44, 0x45, 0x46]
  lines := [[0x52], [0x45, 0x56, 0x47]]
  ending := .crlf
  tag_ne := by decide
  undashed := by decide
  unbroken := by decide
  wraps := ⟨by decide, by decide⟩

/-- A block of another kind, without contents. -/
def other : Wrapped where
  tag := "X"
  contents := []
  lines := []
  ending := .lf
  tag_ne := by decide
  undashed := by decide
  unbroken := by decide
  wraps := ⟨by decide, by decide⟩

/-- An end line of no block. -/
def stray : Prose where
  bytes := endOf (Utf8.encode "CERTIFICATE") ++ [0x0A]
  whole b hb := by
    rw [List.getLast?_concat] at hb
    obtain rfl := Option.some.inj hb
    decide
  unmarked := by decide

/-- One certificate twice, with another block and an end line between. -/
def mixed : List Piece :=
  [.block split, .prose stray, .block other, .block split]

def mixedFile : FileSystem :=
  .ofReadings [(Utf8.encode "client.crt", .ok (mixed.flatMap Piece.bytes ++ dashes))]

end Sample

/-- A certificate that occurs twice in a file is returned twice. -/
theorem loadCertificates_mixed :
    (loadCertificates Sample.mixedFile "client.crt").outcome =
      .ok [[0x44, 0x45, 0x46], [0x44, 0x45, 0x46]] := by
  have htail : ¬ beginMarker <:+: dashes := by decide
  have hfile : Sample.mixedFile.read (Utf8.encode "client.crt") =
      .ok (Sample.mixed.flatMap Piece.bytes ++ dashes) := by
    simp only [Sample.mixedFile, FileSystem.ofReadings, List.lookup_cons_self, Option.getD_some]
  have hcertificates : certificatesOf (Sample.mixed.filterMap Piece.block?) =
      [[0x44, 0x45, 0x46], [0x44, 0x45, 0x46]] := by decide
  rw [(loadCertificates_pieces htail hfile).1, hcertificates]
  rfl

end KeyFile

end ClientIdentity
