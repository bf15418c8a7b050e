import ClientIdentity.Proofs.Pem.Overlap
import ClientIdentity.Proofs.Pem.Scan

namespace ClientIdentity.Pem

open Bytes

/-- Two blocks show the same: the tag, the names and values of the headers in order, and the contents.
The white space around header lines is not shown. -/
structure Block.Alike (block other : Block) : Prop where
  tag : block.tag = other.tag
  headers : block.headers = other.headers
  contents : block.contents = other.contents

theorem Block.alike_trimmed (block : Block) : block.trimmed.Alike block :=
  ⟨rfl, block.headers_trimmed, rfl⟩

/-- A block without header lines is its own trimmed form. -/
theorem Block.trimmed_of_headerLines_eq_nil {block : Block} (h : block.headerLines = []) :
    block.trimmed = block := by
  rw [Block.trimmed, h, List.map_nil, ← h]

/-- The payload of a segment does not hold the end marker of its tag. -/
theorem Placed.Built.not_endOf_infix_payload {data gap payload : Bytes} {p : Placed}
    (h : p.Built data gap payload) : ¬ endOf (Utf8.encode p.block.tag) <:+: payload := by
  rintro ⟨before, after, rfl⟩
  have hat := h.payload_at
  rw [List.append_assoc, List.append_assoc] at hat
  have hearlier := (List.prefix_append _ _).trans (prefix_drop_of_append hat)
  rw [Nat.add_assoc, Nat.add_assoc, ← List.drop_drop] at hearlier
  -- The scan has looked for the mark by its own search, which misses none.
  refine h.first.2 _ ?_ hearlier
  simp only [List.length_append, length_endOf]
  omega

/-- Every header line is an infix of the payload. -/
theorem Segment.infix_of_mem_headerLines {payload : Bytes} {lines : List String} {line : String}
    (h : headerLines (divide payload).1 = .ok lines) (hline : line ∈ lines) :
    Utf8.encode line <:+: payload := by
  obtain ⟨whole, hwhole, rfl, -⟩ := headerLines_eq_ok_iff.mp h
  obtain ⟨-, before, after, htext, -⟩ := Split.exists_append_of_mem_lines hline
  have hinside : Utf8.encode line <:+: Utf8.encode whole :=
    ⟨_, _, (Utf8.encode_of_toList_eq htext).symm⟩
  rw [hwhole] at hinside
  exact hinside.trans (infix_of_divide payload).1

/-- A block as the scan finds it: it is what is read from a segment, and none of its header lines
holds the mark that ends it. -/
structure Block.Found (block : Block) : Prop extends block.Scanned where
  unmarked : ∀ line ∈ block.headerLines, ¬ endOf (Utf8.encode block.tag) <:+: Utf8.encode line

theorem found_of_mem_blocks {data : Bytes} {block : Block} (h : block ∈ blocks data) :
    block.Found := by
  obtain ⟨placed, rfl, hvalid⟩ := exists_placed_of_mem_blocks h
  obtain ⟨gap, payload, hbuilt⟩ := hvalid.exists_built
  refine ⟨Segment.scanned_of_parse hvalid.parses, fun line hline hmark => ?_⟩
  exact hbuilt.not_endOf_infix_payload
    (hmark.trans (Segment.infix_of_mem_headerLines hbuilt.headed hline))

namespace Block.Found

variable {block : Block} (hblock : block.Found)

include hblock

/-- No line of a block from a scan but the last holds the end marker of its tag. -/
theorem unmarked_bodyLines :
    ∀ line ∈ block.bodyLines, ¬ endOf (Utf8.encode block.tag) <:+: line := by
  intro line hline hmark
  have hdash : 0x2D ∈ endOf (Utf8.encode block.tag) :=
    List.mem_append_right _ (by decide)
  rcases Block.mem_bodyLines hline with ⟨text, htext, rfl⟩ | rfl | hdata
  · exact hblock.unmarked text htext (hmark.trans (infix_encode_trim text))
  · exact List.not_mem_nil (hmark.subset hdash)
  · exact undashed_dataLines _ line hdata (hmark.subset hdash)

variable (hsingle : '\n' ∉ block.tag.toList) (ending : LineEnding)

include hsingle

theorem closed : Closed ending (Utf8.encode block.tag) block.bodyLines := by
  refine closed_of_single hblock.tag.dashes ?_ hblock.unmarked_bodyLines
  rwa [Utf8.mem_encode_iff (by decide)]

/-- `blocks` of the text of a block from a scan returns its trimmed form alone. -/
theorem blocks_encode : blocks (block.encode ending) = [block.trimmed] := by
  rw [block.encode_eq]
  exact blocks_framed hblock.tag (hblock.closed hsingle ending)
    (Segment.parse_written hblock.toScanned ending)

end Block.Found

end ClientIdentity.Pem
