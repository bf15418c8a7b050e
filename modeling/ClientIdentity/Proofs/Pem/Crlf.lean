import ClientIdentity.Proofs.Pem.Segment.Crlf
import Mathlib.Data.List.Find

namespace ClientIdentity.Pem

open Bytes

section Scan

variable {input : Bytes} (hinput : 0x0D ∉ input)

theorem endOf_toCrlf (label : Bytes) : endOf (toCrlf label) = toCrlf (endOf label) := by
  rw [endOf, endOf, toCrlf_append, toCrlf_append, toCrlf_of_not_mem unbroken_endMarker.1,
    toCrlf_of_not_mem unbroken_dashes.1]

theorem drop_beginMarker_toCrlf (hbegin : beginMarker <+: input) :
    (toCrlf input).drop beginMarker.length = toCrlf (input.drop beginMarker.length) := by
  have hfree : Unbroken beginMarker := by decide
  obtain ⟨rest, rfl⟩ := hbegin
  rw [toCrlf_append, toCrlf_of_not_mem hfree.1, List.drop_left, List.drop_left]

include hinput

/-- `splitAt?` at a marker without line breaks commutes with `toCrlf`. -/
theorem splitAt?_toCrlf_of_unbroken {marker : Bytes} (hmarker : Unbroken marker)
    (hne : marker ≠ []) :
    splitAt? marker (toCrlf input) = (splitAt? marker input).map (Prod.map toCrlf toCrlf) := by
  obtain ⟨c, rest, rfl⟩ := List.exists_cons_of_ne_nil hne
  have hc : c ≠ 0x0A := by
    rintro rfl
    exact hmarker.1 List.mem_cons_self
  rw [← splitAt?_toCrlf hinput hmarker.2 hc, toCrlf_of_not_mem hmarker.1]

/-- The end marker of a label in `toCrlf input` begins behind `toCrlf` of what stands in front of it
in `input`. -/
theorem indexOf?_endOf_toCrlf {label : Bytes} (hlabel : 0x0D ∉ label) :
    indexOf? (endOf (toCrlf label)) (toCrlf input) =
      (indexOf? (endOf label) input).map fun i => (toCrlf (input.take i)).length := by
  obtain ⟨rest, hrest⟩ : ∃ rest, endOf label = 0x2D :: rest := ⟨_, rfl⟩
  have hfree : 0x0D ∉ endOf label := by
    simp only [endOf, List.mem_append, not_or]
    exact ⟨⟨unbroken_endMarker.2, hlabel⟩, unbroken_dashes.2⟩
  rw [endOf_toCrlf]
  rw [hrest] at hfree ⊢
  exact indexOf?_toCrlf hinput hfree (by decide)

theorem segment?_toCrlf (hbegin : beginMarker <+: input) :
    segment? (toCrlf input) = (segment? input).map fun found =>
      (toCrlf found.1, (toCrlf (input.take found.2)).length) := by
  have hrest : 0x0D ∉ input.drop beginMarker.length :=
    fun hmem => hinput (List.mem_of_mem_drop hmem)
  rw [segment?, segment?, drop_beginMarker_toCrlf hbegin,
    splitAt?_toCrlf_of_unbroken hrest unbroken_dashes (by decide)]
  cases hsplit : splitAt? dashes (input.drop beginMarker.length) with
  | none => rfl
  | some parts =>
    obtain ⟨label, found⟩ := parts
    obtain ⟨n, -, rfl, -⟩ := splitAt?_eq_some_iff.mp hsplit
    have hlabel : 0x0D ∉ (input.drop beginMarker.length).take n :=
      fun hmem => hrest (List.mem_of_mem_take hmem)
    simp only [Option.map_some, Prod.map_apply, Option.bind_eq_bind, Option.bind_some,
      indexOf?_endOf_toCrlf hinput hlabel]
    generalize (input.drop beginMarker.length).take n = label
    cases hlast : indexOf? (endOf label) input with
    | none => rfl
    | some last =>
      obtain ⟨more, hmore⟩ := (indexOf?_eq_some_iff.mp hlast).1
      have htake : input.take (last + (endOf label).length) = input.take last ++ endOf label := by
        rw [List.take_add, ← hmore, List.take_left]
      simp only [Option.map_some, Option.bind_some, Option.pure_def, htake, toCrlf_append,
        endOf_toCrlf, List.length_append]

/-- `findingAt` commutes with `toCrlf`, in its block and in the rest. -/
theorem findingAt_toCrlf (hbegin : beginMarker <+: input) :
    (findingAt (toCrlf input)).1.block? = (findingAt input).1.block?.map Block.toCrlf ∧
      (findingAt (toCrlf input)).2 = toCrlf (findingAt input).2 := by
  rw [findingAt, findingAt, segment?_toCrlf hinput hbegin]
  cases hsegment : segment? input with
  | none => exact ⟨rfl, drop_beginMarker_toCrlf hbegin⟩
  | some found =>
    have hfree : 0x0D ∉ input.take found.2 := fun hmem => hinput (List.mem_of_mem_take hmem)
    have hparse (block : Block) := @Segment.parse_toCrlf_eq_ok_iff _ hfree block
    simp only [Option.map_some, take_toCrlf, drop_toCrlf, drop_beginMarker_toCrlf hbegin]
    cases hplain : Segment.parse (input.take found.2) with
    | ok block =>
      rw [(hparse _).mpr ⟨block, hplain, rfl⟩]
      exact ⟨rfl, rfl⟩
    | error fault =>
      cases hspread : Segment.parse (toCrlf (input.take found.2)) with
      | error fault => exact ⟨rfl, rfl⟩
      | ok block =>
        obtain ⟨plain, hok, -⟩ := (hparse block).mp hspread
        rw [hplain] at hok
        cases hok

/-- `step?` commutes with `toCrlf`, in its block and in the rest. -/
theorem step?_toCrlf :
    (step? (toCrlf input)).map (Prod.map Finding.block? id) =
      (step? input).map (Prod.map (fun finding => finding.block?.map Block.toCrlf) toCrlf) := by
  rw [step?, step?, splitAt?_toCrlf_of_unbroken hinput (by decide) (by decide)]
  cases hsplit : splitAt? beginMarker input with
  | none => rfl
  | some parts =>
    obtain ⟨i, hfirst, -, hfound⟩ := splitAt?_eq_some_iff.mp hsplit
    have hbegin : beginMarker <+: parts.2 := hfound ▸ hfirst.1
    have hfree : 0x0D ∉ parts.2 := by
      rw [hfound]
      exact fun hmem => hinput (List.mem_of_mem_drop hmem)
    obtain ⟨hblock, hrest⟩ := findingAt_toCrlf hfree hbegin
    simp only [Option.map_some, Prod.map, id, hblock, hrest]

end Scan

/-- `blocks` of `toCrlf input` are the blocks of `input` with `toCrlf` tags. -/
theorem blocks_toCrlf {input : Bytes} (hinput : 0x0D ∉ input) :
    blocks (toCrlf input) = (blocks input).map Block.toCrlf := by
  generalize hlength : input.length = length
  induction length using Nat.strongRecOn generalizing input with
  | ind length ih =>
    have hstep := step?_toCrlf hinput
    cases hplain : step? input with
    | none =>
      rw [hplain, Option.map_none, Option.map_eq_none_iff] at hstep
      rw [blocks_of_step?_eq_none hplain, blocks_of_step?_eq_none hstep, List.map_nil]
    | some found =>
      obtain ⟨finding, rest⟩ := found
      rw [hplain, Option.map_some, Option.map_eq_some_iff] at hstep
      obtain ⟨⟨spread, later⟩, hspread, hsame⟩ := hstep
      obtain ⟨hblock, hlater⟩ := Prod.mk.inj hsame
      obtain rfl : later = toCrlf rest := hlater
      have hshorter := step?_length_lt hplain
      have hdrop : step? (input.drop 0) = some (finding, rest) := hplain
      obtain ⟨i, hrest⟩ := exists_drop_of_step? hdrop
      have hfree : 0x0D ∉ rest := by
        rw [hrest]
        exact fun hmem => hinput (List.mem_of_mem_drop hmem)
      have hspreadBlock : spread.block? = finding.block?.map Block.toCrlf := hblock
      rw [blocks_of_step?_eq_some hplain, blocks_of_step?_eq_some hspread, hspreadBlock,
        ih rest.length (hlength ▸ hshorter) hfree rfl, List.map_append]
      cases finding.block? <;> rfl

/-- The blocks of an input without carriage returns have none in their tags. -/
theorem not_mem_tag_of_mem_blocks {input : Bytes} (hinput : 0x0D ∉ input) {block : Block}
    (h : block ∈ blocks input) : 0x0D ∉ Utf8.encode block.tag := by
  obtain ⟨segment, hsegment, hparse⟩ := exists_parse_of_mem_blocks h
  have hfree : 0x0D ∉ segment := fun hmem => hinput (hsegment.subset hmem)
  rw [Segment.parse] at hparse
  cases hcut : Segment.cut? segment with
  | none => simp [hcut] at hparse
  | some parts =>
    rw [hcut] at hparse
    obtain ⟨htag, -⟩ := Segment.toBlock_eq_ok_iff.mp hparse
    rw [Segment.text_eq_ok_iff.mp htag]
    exact (Segment.plain_of_cut? hfree hcut).beginTag

section Keys

theorem isPrivateKeyTag_toCrlf {tag : String} (h : 0x0D ∉ Utf8.encode tag) :
    Block.isPrivateKeyTag (Split.toCrlf tag) = Block.isPrivateKeyTag tag := by
  have hname : Unbroken (Utf8.encode "PRIVATE KEY") := by decide
  have hending : Unbroken (Utf8.encode " PRIVATE KEY") := by decide
  have hexact : Split.toCrlf tag = "PRIVATE KEY" ↔ tag = "PRIVATE KEY" := by
    rw [← Utf8.encode_injective.eq_iff, Split.encode_toCrlf, ← toCrlf_of_not_mem hname.1,
      toCrlf_inj h hname.2, Utf8.encode_injective.eq_iff]
  have hsuffix := toCrlf_suffix_iff h hending.2
  rw [toCrlf_of_not_mem hending.1, ← Split.encode_toCrlf] at hsuffix
  rw [Bool.eq_iff_iff]
  simp only [Block.isPrivateKeyTag, endsWith, Bool.or_eq_true, beq_iff_eq,
    List.isSuffixOf_iff_suffix, hexact, hsuffix]

/-- The first private key block of `toCrlf input` is that of `input`, with a `toCrlf` tag. -/
theorem find?_isPrivateKey_toCrlf {input : Bytes} (hinput : 0x0D ∉ input) :
    (blocks (toCrlf input)).find? Block.isPrivateKey =
      ((blocks input).find? Block.isPrivateKey).map Block.toCrlf := by
  rw [blocks_toCrlf hinput, List.find?_map]
  congr 1
  exact List.find?_congr fun block hblock =>
    isPrivateKeyTag_toCrlf (not_mem_tag_of_mem_blocks hinput hblock)

end Keys

end ClientIdentity.Pem
