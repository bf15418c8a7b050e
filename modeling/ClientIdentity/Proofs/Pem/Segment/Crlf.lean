import ClientIdentity.Proofs.Pem.Scanned
import ClientIdentity.Proofs.Text.Crlf

namespace ClientIdentity.Pem

open Bytes

namespace Segment

section Matcher

variable {marker pending input : Bytes}

theorem matchEnd?_cons_of_ne {expected b : UInt8} (hb : b ≠ expected) (position : Nat)
    (rest : Bytes) :
    matchEnd? marker (expected :: pending) position (b :: rest) =
      matchEnd? marker marker (position + 1) rest := by
  rw [matchEnd?, if_neg hb]

/-- No marker begins with a line feed that has lost its carriage return. -/
theorem matchEnd?_toCrlf_lf (hne : marker ≠ []) (position : Nat) (rest : Bytes) :
    matchEnd? (toCrlf marker) (toCrlf marker) position (0x0A :: rest) =
      matchEnd? (toCrlf marker) (toCrlf marker) (position + 1) rest := by
  obtain ⟨c, marker, rfl⟩ := List.exists_cons_of_ne_nil hne
  by_cases hc : c = 0x0A
  · subst hc
    exact matchEnd?_cons_of_ne (by decide) _ _
  · rw [toCrlf_cons_of_ne hc, matchEnd?_cons_of_ne (Ne.symm hc)]

variable (hmarker : 0x0D ∉ marker) (hne : marker ≠ [])

include hmarker hne

/-- The matcher is in the same state behind a byte of the input and behind what replaces it. -/
theorem matchEnd?_toCrlf_cons {b expected : UInt8} (hb : b ≠ 0x0D)
    (hpending : expected :: pending <:+ marker) (position : Nat) (rest : Bytes) :
    matchEnd? (toCrlf marker) (toCrlf (expected :: pending)) position (toCrlf (b :: rest)) =
      matchEnd? (toCrlf marker) (toCrlf (if b = expected then pending else marker))
        (position + (toCrlf [b]).length) (toCrlf rest) := by
  have hexpected : expected ≠ 0x0D := by
    rintro rfl
    exact hmarker (hpending.subset List.mem_cons_self)
  -- Of a line feed two bytes are seen on the left. Either both of them are expected, or the first one
  -- makes the whole marker pending, and the second one leaves it so.
  by_cases hlf : b = 0x0A
  · subst hlf
    by_cases hmatch : (0x0A : UInt8) = expected
    · subst hmatch
      rw [toCrlf_cons_lf, toCrlf_cons_lf, if_pos rfl, matchEnd?, if_pos rfl, matchEnd?, if_pos rfl]
      rfl
    · rw [toCrlf_cons_lf, toCrlf_cons_of_ne (Ne.symm hmatch), if_neg hmatch,
        matchEnd?_cons_of_ne (Ne.symm hexpected), matchEnd?_toCrlf_lf hne]
      rfl
  · have hone : (toCrlf [b]).length = 1 := by
      rw [toCrlf_cons_of_ne hlf]
      rfl
    rw [toCrlf_cons_of_ne hlf, hone]
    by_cases hexpects : expected = 0x0A
    · subst hexpects
      rw [toCrlf_cons_lf, if_neg hlf, matchEnd?_cons_of_ne hb]
    · rw [toCrlf_cons_of_ne hexpects, matchEnd?]
      split_ifs <;> rfl

/-- `matchEnd?` stops at the same place of `input` and of `toCrlf input`. What is pending never
begins between a carriage return and its line feed. -/
theorem matchEnd?_toCrlf (hinput : 0x0D ∉ input) (hpending : pending <:+ marker)
    (position other : Nat) :
    matchEnd? (toCrlf marker) (toCrlf pending) other (toCrlf input) =
      (matchEnd? marker pending position input).map fun stop =>
        other + (toCrlf (input.take (stop - position))).length := by
  induction input generalizing pending position other with
  | nil =>
    cases pending with
    | nil => simp [toCrlf, matchEnd?]
    | cons expected pending =>
      by_cases hlf : expected = 0x0A
      · subst hlf
        rfl
      · rw [toCrlf_cons_of_ne hlf]
        rfl
  | cons b input ih =>
    cases pending with
    | nil => simp [toCrlf, matchEnd?]
    | cons expected pending =>
      rw [List.mem_cons, not_or] at hinput
      have hnext : (if b = expected then pending else marker) <:+ marker := by
        split_ifs
        · exact (List.suffix_cons expected pending).trans hpending
        · exact List.suffix_rfl
      rw [matchEnd?_toCrlf_cons hmarker hne (Ne.symm hinput.1) hpending,
        ih hinput.2 hnext (position + 1), matchEnd?]
      cases hstop : matchEnd? marker (if b = expected then pending else marker) (position + 1)
        input with
      | none => rfl
      | some stop =>
        obtain ⟨done, hdone⟩ := hnext
        obtain ⟨taken, rest, -, hcount, -⟩ := matchEnd?_spec hdone.symm hstop
        have hlater : stop - position = (stop - (position + 1)) + 1 := by omega
        have hsplit (front : Bytes) :
            (toCrlf (b :: front)).length = (toCrlf [b]).length + (toCrlf front).length := by
          rw [← List.length_append, ← toCrlf_append, List.singleton_append]
        rw [Option.map_some, Option.map_some, hlater, List.take_succ_cons, hsplit (input.take _),
          Nat.add_assoc]

/-- `readUntil?` commutes with `toCrlf`. -/
theorem readUntil?_toCrlf (hinput : 0x0D ∉ input) :
    readUntil? (toCrlf marker) (toCrlf input) =
      (readUntil? marker input).map (Prod.map toCrlf toCrlf) := by
  rw [readUntil?, matchEnd?_toCrlf hmarker hne hinput List.suffix_rfl 0 0, readUntil?]
  cases hstop : matchEnd? marker marker 0 input with
  | none => rfl
  | some stop =>
    obtain ⟨taken, rest, rfl, rfl, ⟨front, hfront⟩, -⟩ :=
      matchEnd?_spec (List.nil_append _).symm hstop
    rw [List.nil_append] at hfront
    subst hfront
    have hpart : (front ++ marker ++ rest).take ((front ++ marker).length - marker.length) =
        front := by
      rw [List.length_append, Nat.add_sub_cancel, List.append_assoc, List.take_left]
    have hlength : (toCrlf (front ++ marker)).length - (toCrlf marker).length =
        (toCrlf front).length := by
      rw [toCrlf_append, List.length_append, Nat.add_sub_cancel]
    have hstop : (front ++ marker ++ rest).take (front ++ marker).length = front ++ marker :=
      List.take_left
    simp only [Option.map_some, Nat.zero_add, Nat.sub_zero, hstop, hlength, hpart, Prod.map_apply]
    rw [List.drop_left, toCrlf_append _ rest, List.drop_left, toCrlf_append, List.append_assoc,
      List.take_left]

end Matcher

section Parts

variable {input : Bytes} (hinput : 0x0D ∉ input)

/-- The parts with a carriage return in front of every line feed. -/
def Parts.toCrlf (parts : Parts) : Parts where
  beginTag := Bytes.toCrlf parts.beginTag
  payload := Bytes.toCrlf parts.payload
  endTag := Bytes.toCrlf parts.endTag

theorem dropWhile_gap_toCrlf (input : Bytes) :
    (toCrlf input).dropWhile isGap = toCrlf (input.dropWhile isGap) := by
  induction input with
  | nil => rfl
  | cons b input ih =>
    by_cases hlf : b = 0x0A
    · subst hlf
      rw [toCrlf_cons_lf, List.dropWhile_cons_of_pos (by decide),
        List.dropWhile_cons_of_pos (by decide), List.dropWhile_cons_of_pos (by decide), ih]
    · rw [toCrlf_cons_of_ne hlf]
      by_cases hgap : isGap b = true
      · rw [List.dropWhile_cons_of_pos hgap, List.dropWhile_cons_of_pos hgap, ih]
      · rw [List.dropWhile_cons_of_neg hgap, List.dropWhile_cons_of_neg hgap, toCrlf_cons_of_ne hlf]

include hinput

/-- What follows `readUntil?` on `toCrlf input` runs on `toCrlf` of its two parts. -/
theorem bind_readUntil?_toCrlf {α : Type} {next later : Bytes × Bytes → Option α} {spread : α → α}
    (marker : Bytes) (hmarker : Unbroken marker) (hne : marker ≠ [])
    (hnext : ∀ before after, 0x0D ∉ before → 0x0D ∉ after →
      next (toCrlf before, toCrlf after) = (later (before, after)).map spread) :
    (readUntil? marker (toCrlf input)).bind next =
      ((readUntil? marker input).bind later).map spread := by
  have hread := readUntil?_toCrlf hmarker.2 hne hinput
  rw [toCrlf_of_not_mem hmarker.1] at hread
  rw [hread]
  cases hparts : readUntil? marker input with
  | none => rfl
  | some parts =>
    obtain ⟨hbefore, hafter⟩ := infix_of_readUntil? hparts
    exact hnext _ _ (fun hmem => hinput (hbefore.subset hmem))
      fun hmem => hinput (hafter.subset hmem)

theorem cut?_toCrlf : cut? (toCrlf input) = (cut? input).map Parts.toCrlf := by
  simp only [cut?, Option.bind_eq_bind, Option.pure_def]
  refine bind_readUntil?_toCrlf hinput beginMarker (by decide) (by decide) fun _ rest _ hrest => ?_
  refine bind_readUntil?_toCrlf hrest dashes (by decide) (by decide) fun tag rest _ hrest => ?_
  have hpayload : 0x0D ∉ rest.dropWhile isGap :=
    fun hmem => hrest ((List.dropWhile_suffix _).subset hmem)
  simp only [dropWhile_gap_toCrlf]
  refine bind_readUntil?_toCrlf hpayload endMarker (by decide) (by decide)
    fun payload rest _ hrest => ?_
  exact bind_readUntil?_toCrlf hrest dashes (by decide) (by decide) fun _ _ _ _ => rfl

/-- `divide` commutes with `toCrlf`, although the empty line has another marker there. -/
theorem divide_toCrlf : divide (toCrlf input) = Prod.map toCrlf toCrlf (divide input) := by
  have hlf : readUntil? [0x0A, 0x0A] (toCrlf input) = none :=
    readUntil?_eq_none (not_lf_lf_infix_toCrlf input).1
  have hcrlf : readUntil? [0x0D, 0x0A, 0x0D, 0x0A] input = none :=
    readUntil?_eq_none fun h => hinput (h.subset List.mem_cons_self)
  have hread : readUntil? [0x0D, 0x0A, 0x0D, 0x0A] (toCrlf input) =
      (readUntil? [0x0A, 0x0A] input).map (Prod.map toCrlf toCrlf) :=
    @readUntil?_toCrlf [0x0A, 0x0A] input (by decide) (by decide) hinput
  simp only [divide, hlf, hcrlf, hread]
  cases readUntil? [0x0A, 0x0A] input <;> rfl

end Parts

section Parse

variable {input : Bytes} (hinput : 0x0D ∉ input)

include hinput

theorem text_toCrlf_eq_ok_iff {line : String} :
    text (toCrlf input) = .ok line ↔
      ∃ plain, text input = .ok plain ∧ line = Split.toCrlf plain := by
  simp only [text_eq_ok_iff]
  constructor
  · exact Split.exists_of_encode_eq_toCrlf hinput
  · rintro ⟨plain, rfl, rfl⟩
    exact Split.encode_toCrlf plain

theorem contents_toCrlf_eq_ok_iff {bytes : Bytes} :
    contents (toCrlf input) = .ok bytes ↔ contents input = .ok bytes := by
  simp only [contents, Run.bind_eq_ok_iff, text_toCrlf_eq_ok_iff hinput]
  constructor
  · rintro ⟨_, ⟨plain, hplain, rfl⟩, hbytes⟩
    rw [Split.strip_toCrlf] at hbytes
    exact ⟨plain, hplain, hbytes⟩
  · rintro ⟨plain, hplain, hbytes⟩
    refine ⟨_, ⟨plain, hplain, rfl⟩, ?_⟩
    rwa [Split.strip_toCrlf]

theorem headerLines_toCrlf_eq_ok_iff {lines : List String} :
    headerLines (toCrlf input) = .ok lines ↔ headerLines input = .ok lines := by
  have hlines (whole : String) (hwhole : Utf8.encode whole = input) :
      Split.lines (Split.toCrlf whole) = Split.lines whole := by
    refine Split.lines_toCrlf fun hcr => hinput ?_
    rw [← hwhole, Utf8.mem_encode_iff (by decide)]
    exact hcr
  simp only [headerLines_eq_ok_iff]
  constructor
  · rintro ⟨_, hspread, rfl, hnamed⟩
    obtain ⟨whole, hwhole, rfl⟩ := Split.exists_of_encode_eq_toCrlf hinput hspread
    exact ⟨whole, hwhole, hlines whole hwhole, hnamed⟩
  · rintro ⟨whole, rfl, rfl, hnamed⟩
    exact ⟨Split.toCrlf whole, Split.encode_toCrlf whole, (hlines whole rfl).symm, hnamed⟩

end Parse

end Segment

/-- The block with a carriage return in front of every line feed of its tag. -/
def Block.toCrlf (block : Block) : Block :=
  { block with tag := Split.toCrlf block.tag }

namespace Segment

/-- Parts without carriage returns. -/
structure Parts.Plain (parts : Parts) : Prop where
  beginTag : 0x0D ∉ parts.beginTag
  payload : 0x0D ∉ parts.payload
  endTag : 0x0D ∉ parts.endTag

theorem plain_of_cut? {segment : Bytes} {parts : Parts} (hsegment : 0x0D ∉ segment)
    (hcut : cut? segment = some parts) : parts.Plain := by
  obtain ⟨htag, hpayload, hend⟩ := infix_of_cut? hcut
  exact ⟨fun hmem => hsegment (htag.subset hmem), fun hmem => hsegment (hpayload.subset hmem),
    fun hmem => hsegment (hend.subset hmem)⟩

theorem Parts.Plain.toBlock_toCrlf_eq_ok_iff {parts : Parts} (h : parts.Plain) {block : Block} :
    parts.toCrlf.toBlock = .ok block ↔
      ∃ plain, parts.toBlock = .ok plain ∧ block = plain.toCrlf := by
  have hheader : 0x0D ∉ (divide parts.payload).1 :=
    fun hmem => h.payload ((infix_of_divide _).1.subset hmem)
  have hdata : 0x0D ∉ (divide parts.payload).2 :=
    fun hmem => h.payload ((infix_of_divide _).2.subset hmem)
  simp only [toBlock_eq_ok_iff, Parts.toCrlf, divide_toCrlf h.payload, Prod.map_fst, Prod.map_snd,
    text_toCrlf_eq_ok_iff h.beginTag, text_toCrlf_eq_ok_iff h.endTag,
    contents_toCrlf_eq_ok_iff hdata, headerLines_toCrlf_eq_ok_iff hheader]
  constructor
  · rintro ⟨⟨tag, htag, hspread⟩, hne, ⟨endTag, hend, hsame⟩, hcontents, hlines⟩
    have hfree : 0x0D ∉ Utf8.encode tag := text_eq_ok_iff.mp htag ▸ h.beginTag
    have hfreeEnd : 0x0D ∉ Utf8.encode endTag := text_eq_ok_iff.mp hend ▸ h.endTag
    obtain rfl := Split.toCrlf_inj hfree hfreeEnd (hspread.symm.trans hsame)
    refine ⟨{ block with tag := tag }, ⟨htag, ?_, hend, hcontents, hlines⟩, ?_⟩
    · rintro rfl
      exact hne hspread
    · rw [Block.toCrlf, ← hspread]
  · rintro ⟨plain, ⟨htag, hne, hend, hcontents, hlines⟩, rfl⟩
    refine ⟨⟨_, htag, rfl⟩, fun hempty => hne ?_, ⟨_, hend, rfl⟩, hcontents, hlines⟩
    have hfree : 0x0D ∉ Utf8.encode plain.tag := text_eq_ok_iff.mp htag ▸ h.beginTag
    exact Split.toCrlf_inj hfree (by decide) (hempty.trans (by decide))

/-- `parse` of `toCrlf segment` returns the block of `segment`, with a `toCrlf` tag. -/
theorem parse_toCrlf_eq_ok_iff {segment : Bytes} (hsegment : 0x0D ∉ segment) {block : Block} :
    parse (toCrlf segment) = .ok block ↔
      ∃ plain, parse segment = .ok plain ∧ block = plain.toCrlf := by
  rw [parse, parse, cut?_toCrlf hsegment]
  cases hcut : cut? segment with
  | none => simp
  | some parts => exact (plain_of_cut? hsegment hcut).toBlock_toCrlf_eq_ok_iff

end Segment

end ClientIdentity.Pem
