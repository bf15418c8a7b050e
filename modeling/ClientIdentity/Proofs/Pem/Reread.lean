import ClientIdentity.Proofs.Pem.Progress
import ClientIdentity.Proofs.Pem.Scanned
import ClientIdentity.Proofs.Pem.Section

namespace ClientIdentity.Pem

open Bytes

section Lines

variable (ending : LineEnding)

/-- Lines are unmatched when joined if each of them is. -/
theorem unmatched_joinLines {lines : List Bytes}
    (hlines : ∀ line ∈ lines, Segment.Unmatched endMarker line) :
    Segment.Unmatched endMarker (joinLines ending lines) := by
  induction lines with
  | nil => rfl
  | cons line lines ih =>
    simp only [List.forall_mem_cons] at hlines
    have hrest := ih hlines.2
    rw [joinLines_cons, List.append_assoc]
    cases ending with
    | lf => exact hlines.1.append_cons unbroken_endMarker.1 hrest
    | crlf =>
      have hempty : Segment.Unmatched endMarker [] := rfl
      exact hlines.1.append_cons unbroken_endMarker.2 (hempty.append_cons unbroken_endMarker.1 hrest)

/-- No line of an unmatched input begins with an end marker. -/
theorem not_endMarker_prefix_of_mem_lines {input line : Bytes}
    (h : Segment.Unmatched endMarker input) (hline : line ∈ Section.lines input) :
    ¬ endMarker <+: line := by
  obtain ⟨before, after, rfl, hbefore⟩ := Split.exists_append_of_mem_behind hline
  have hrest : Segment.Unmatched endMarker (line ++ after) := by
    rcases hbefore with rfl | ⟨front, b, rfl, hb⟩
    · exact h
    · have hout : b ∉ endMarker.dropLast := by
        rcases Section.endsLine_eq_true_iff.mp hb with rfl | rfl <;> decide
      rw [List.append_assoc, List.append_assoc, List.singleton_append] at h
      exact h.behind hout
  exact fun hmarker => hrest.not_prefix (hmarker.trans (List.prefix_append _ _))

/-- `lines` of a line and more are the lines of each. -/
theorem lines_append_line (line rest : Bytes) :
    Section.lines (line ++ ending.bytes ++ rest) =
      Section.lines (line ++ ending.bytes) ++ Section.lines rest := by
  have hlast : ∃ front, ending.bytes = front ++ [0x0A] := by
    cases ending with
    | lf => exact ⟨[], rfl⟩
    | crlf => exact ⟨[0x0D], rfl⟩
  obtain ⟨front, hfront⟩ := hlast
  rw [hfront, ← List.append_assoc, List.append_assoc _ [0x0A], List.singleton_append]
  exact Split.behind_append (by decide) _ _

theorem lines_append_joinLines (lines : List Bytes) (rest : Bytes) :
    Section.lines (joinLines ending lines ++ rest) =
      Section.lines (joinLines ending lines) ++ Section.lines rest := by
  induction lines with
  | nil => rfl
  | cons line lines ih =>
    rw [joinLines_cons, List.append_assoc _ (joinLines ending lines), lines_append_line, ih,
      lines_append_line, List.append_assoc]

theorem not_endMarker_infix_ending {tag : Bytes} (htag : Undashed tag) :
    ¬ endMarker <:+: tag ++ dashes ++ ending.bytes := by
  have hlong : ∀ rest : Bytes, rest.length < 9 → ¬ endMarker <:+: rest := by
    intro rest hrest h
    have hlength : endMarker.length = 9 := by decide
    have hle := h.length_le
    omega
  have hparts : endMarker <:+: tag ++ dashes ++ ending.bytes → endMarker <:+: tag ++ dashes := by
    intro h
    cases ending with
    | lf =>
      exact ((infix_append_cons_iff unbroken_endMarker.1).mp h).resolve_right
        (hlong [] (by decide))
    | crlf =>
      exact ((infix_append_cons_iff unbroken_endMarker.2).mp h).resolve_right
        (hlong [0x0A] (by decide))
  intro h
  have hmarker := endMarker_infix_append_dashes_iff.mp (hparts h)
  exact htag.dashes (dashes_infix_endMarker.trans hmarker)

/-- A label with dashes that is a prefix of an undashed label with dashes is that label. -/
theorem label_eq_of_prefix {tag label : Bytes} (htag : Undashed tag)
    (h : label ++ dashes <+: tag ++ dashes ++ ending.bytes) : label = tag := by
  have hat : dashes <+: (tag ++ dashes ++ ending.bytes).drop label.length := by
    obtain ⟨rest, hrest⟩ := h
    rw [← hrest, List.append_assoc, List.drop_left]
    exact List.prefix_append _ _
  have hfirst : tag.length ≤ label.length := by
    by_contra hlt
    exact (htag.firstAt_dashes ending.bytes).2 label.length (Nat.not_le.mp hlt) hat
  have hlast : label ++ dashes <+: tag ++ dashes := by
    rcases List.prefix_or_prefix_of_prefix h (List.prefix_append _ _) with hshort | ⟨tail, htail⟩
    · exact hshort
    · -- Behind the dashes only the ending is left, which has none.
      rcases List.eq_nil_or_concat tail with rfl | ⟨front, b, rfl⟩
      · rw [← htail, List.append_nil]
      · have hending : front.concat b <+: ending.bytes := by
          rw [← htail] at h
          exact (List.prefix_append_right_inj _).mp h
        have hdash : b = 0x2D := by
          have hfive : dashes = [0x2D, 0x2D, 0x2D, 0x2D] ++ [0x2D] := by decide
          have hlasts := congrArg List.getLast? htail
          rw [List.concat_eq_append, ← List.append_assoc, List.getLast?_concat, hfive,
            ← List.append_assoc label, List.getLast?_concat] at hlasts
          exact Option.some.inj hlasts
        rcases mem_ending (hending.subset (by simp : b ∈ front.concat b)) with hb | hb <;>
          rw [hdash] at hb <;> cases hb
  have hlength := hlast.length_le
  rw [List.length_append, List.length_append] at hlength
  exact List.append_cancel_right (hlast.eq_of_length (by simp only [List.length_append]; omega))

/-- The lines of an end line begin with no end marker but that of its own label, which may have line
breaks. -/
theorem label_eq_of_endOf_prefix {tag label line : Bytes} (htag : Undashed tag)
    (hline : line ∈ Section.lines (endOf tag ++ ending.bytes)) (hend : endOf label <+: line) :
    label = tag := by
  obtain ⟨before, after, hwhole, hbefore⟩ := Split.exists_append_of_mem_behind hline
  have hlater : endOf label <+: line ++ after := hend.trans (List.prefix_append _ _)
  rw [endOf, List.append_assoc, List.append_assoc] at hwhole
  rw [endOf, List.append_assoc] at hlater
  rcases hbefore with rfl | ⟨front, b, rfl, hb⟩
  · refine label_eq_of_prefix ending htag ?_
    rw [List.nil_append] at hwhole
    rw [← hwhole, List.prefix_append_right_inj] at hlater
    rwa [List.append_assoc]
  · -- A line behind a break inside of the label cannot begin with an end marker.
    have hout : b ∉ endMarker := by
      rcases Section.endsLine_eq_true_iff.mp hb with rfl | rfl <;> decide
    rw [List.append_assoc, List.append_assoc, List.singleton_append] at hwhole
    have hfront : endMarker <+: front :=
      prefix_of_prefix_append_cons hout (hwhole ▸ List.prefix_append endMarker _)
    obtain ⟨inner, rfl⟩ := hfront
    rw [List.append_assoc, List.append_cancel_left_eq] at hwhole
    refine absurd ?_ (not_endMarker_infix_ending ending htag)
    rw [List.append_assoc, hwhole]
    have hmarker : endMarker <+: line ++ after := (List.prefix_append _ _).trans hlater
    exact hmarker.isInfix.trans ((List.suffix_cons b _).trans (List.suffix_append inner _)).isInfix

end Lines

section Sections

variable (ending : LineEnding) {block : Block} (hblock : block.Scanned)

/-- The text of a block is all lines but the last, and the last line. -/
theorem encode_eq_append_endLine (block : Block) (ending : LineEnding) :
    block.encode ending =
      joinLines ending (beginLine (Utf8.encode block.tag) :: block.bodyLines) ++
        (endOf (Utf8.encode block.tag) ++ ending.bytes) := by
  rw [Block.encode_eq, Block.segment, joinLines_cons, List.append_assoc]

include hblock

/-- The sections in the text of a scanned block have its tag as their label, whatever its header
lines are. -/
theorem Block.Scanned.label_of_mem_sections {s : Section}
    (hs : s ∈ (Section.read (block.encode ending)).sections) : s.label = Utf8.encode block.tag := by
  obtain ⟨line, hline, hend⟩ := Section.exists_end_of_mem_sections hs
  rw [encode_eq_append_endLine, lines_append_joinLines, List.mem_append] at hline
  rcases hline with hfront | hlast
  · have hunmatched := unmatched_joinLines ending hblock.unmatched_lines
    exact absurd ((endMarker_prefix_endOf _).trans hend)
      (not_endMarker_prefix_of_mem_lines hunmatched hfront)
  · exact label_eq_of_endOf_prefix ending hblock.tag hlast hend

end Sections

section Headers

variable (ending : LineEnding)

/-- A line of the reader behind the first begins with a begin marker only if a carriage return
stands in front of that in the text. -/
theorem not_beginMarker_prefix_of_mem_tail {line piece : Bytes} (hlf : 0x0A ∉ line)
    (hcr : ¬ 0x0D :: beginMarker <:+: line)
    (hpiece : piece ∈ (Section.lines (line ++ ending.bytes)).tail) : ¬ beginMarker <+: piece := by
  intro hbegin
  obtain ⟨front, b, after, hwhole, hb⟩ := Split.exists_append_of_mem_tail_behind hpiece
  have hmarker : beginMarker <+: piece ++ after := hbegin.trans (List.prefix_append _ _)
  have houtside : ¬ beginMarker <:+: ending.bytes := by
    intro h
    rcases mem_ending (h.subset (by decide : 0x2D ∈ beginMarker)) with h | h <;> cases h
  rw [List.append_eq_append_iff] at hwhole
  rcases hwhole with ⟨inner, rfl, hending⟩ | ⟨inner, rfl, hrest⟩
  · refine houtside ?_
    rw [hending]
    exact hmarker.isInfix.trans ((List.suffix_cons b _).trans (List.suffix_append inner _)).isInfix
  · cases inner with
    | nil =>
      rw [List.nil_append] at hrest
      refine houtside ?_
      rw [← hrest]
      exact hmarker.isInfix.trans (List.suffix_cons b _).isInfix
    | cons c inner =>
      obtain ⟨rfl, hinner⟩ := List.cons.inj hrest
      have hb : b = 0x0D := by
        refine (Section.endsLine_eq_true_iff.mp hb).resolve_left ?_
        rintro rfl
        exact hlf (by simp)
      have hinside : beginMarker <+: inner := by
        rw [hinner] at hmarker
        cases ending with
        | lf => exact prefix_of_prefix_append_cons (by decide) hmarker
        | crlf => exact prefix_of_prefix_append_cons (by decide) hmarker
      obtain ⟨tail, rfl⟩ := hinside
      refine hcr ⟨front, tail, ?_⟩
      rw [hb]
      simp

/-- Header lines add no section to the rest, if the rest has none in a spoiled section. -/
theorem sections_read_headers {progress : Section.Progress} {lines : List Bytes} {rest : List Bytes}
    (hinside : progress.label.isSome) (hne : lines ≠ [])
    (hlines : ∀ line ∈ lines, 0x3A ∈ line ∧ 0x0A ∉ line ∧ Segment.Unmatched endMarker line ∧
      ¬ 0x0D :: beginMarker <:+: line)
    (hrest : ∀ later, Section.Spoiled later → (later.read rest).sections = []) :
    (progress.read (Section.lines (joinLines ending lines) ++ rest)).sections = [] := by
  induction lines generalizing progress with
  | nil => exact absurd rfl hne
  | cons line lines ih =>
    simp only [List.forall_mem_cons] at hlines
    obtain ⟨⟨hcolon, hlf, hunmatched, hcr⟩, hlines⟩ := hlines
    have hends : ∀ piece ∈ Section.lines (line ++ ending.bytes), ¬ endMarker <+: piece := by
      have hone := unmatched_joinLines ending (List.forall_mem_singleton.mpr hunmatched)
      rw [joinLines_cons, joinLines_nil, List.append_nil] at hone
      exact fun piece => not_endMarker_prefix_of_mem_lines hone
    have hsomewhere : ∃ piece ∈ Section.lines (line ++ ending.bytes), 0x3A ∈ piece := by
      rw [← List.mem_flatten, Section.lines, Split.flatten_behind]
      exact List.mem_append_left _ hcolon
    rw [joinLines_cons, lines_append_line, List.append_assoc]
    refine Section.sections_read_colon hinside hends
      (fun piece => not_beginMarker_prefix_of_mem_tail ending hlf hcr) hsomewhere ?_
    intro later hspoiled
    cases lines with
    | nil => exact hrest later hspoiled
    | cons next lines => exact ih hspoiled.inside (List.cons_ne_nil _ _) hlines

end Headers

section Keys

variable (ending : LineEnding) {block : Block}

/-- A line feed alone adds no section. -/
theorem sections_read_more {more : List Bytes} (hmore : more = [] ∨ more = [[0x0A]])
    (progress : Section.Progress) : (progress.read more).sections = [] := by
  rw [List.eq_nil_iff_forall_not_mem]
  intro s hs
  obtain ⟨line, hline, hend⟩ := Section.exists_end_of_mem_sections hs
  rcases hmore with rfl | rfl
  · cases hline
  · obtain rfl := List.mem_singleton.mp hline
    have hmarker := (endMarker_prefix_endOf _).trans hend
    exact absurd hmarker (by decide)

/-- The last line of a block ends a spoiled section without returning it. -/
theorem sections_read_endLine {tag : Bytes} {progress : Section.Progress} (htag : Undashed tag)
    (hunbroken : Unbroken tag) (hcolon : 0x3A ∉ tag) (hspoiled : Section.Spoiled progress) :
    (progress.read (Section.lines (endOf tag ++ ending.bytes))).sections = [] := by
  obtain ⟨b, more, hb, hmore, hpieces⟩ := Section.pieces_eq ending
  have hlines : Section.lines (endOf tag ++ ending.bytes) = (endOf tag ++ [b]) :: more := by
    have hnil : Section.lines [] = [] := rfl
    have hline := Section.lines_line ending (unbroken_endOf hunbroken) []
    rwa [List.append_nil, hnil, List.append_nil, hpieces] at hline
  have hlabel : ∀ label, endOf label <+: endOf tag ++ [b] → label = tag := by
    intro label hend
    exact label_eq_of_endOf_prefix ending htag (hlines ▸ List.mem_cons_self) hend
  rw [hlines, List.eq_nil_iff_forall_not_mem]
  intro s hs
  obtain ⟨later, done, hfed, rfl | hlater⟩ := Section.mem_sections_cons hs
  · cases hfed with
    | ends hbegin hinside hend htext =>
      rcases hspoiled.colon with hmem | ⟨other, hother, hmem⟩
      · refine Base64.Lenient.decode_ne_ok_of_mem (b := 0x3A) (by decide) (by decide) (by decide)
          ?_ htext
        simpa [List.mem_flatten] using hmem
      · rw [hinside] at hother
        cases hother
        exact hcolon (hlabel _ hend ▸ hmem)
  · rw [sections_read_more hmore] at hlater
    cases hlater

/-- The data lines of a block, and the empty line in front of them, hold no dash. -/
theorem undashed_lines_data (contents : Bytes) :
    ∀ line ∈ Section.lines (joinLines ending ([] :: dataLines contents)), 0x2D ∉ line := by
  intro line hline hdash
  have hall : ∀ data ∈ [] :: dataLines contents, 0x2D ∉ data := by
    simpa using undashed_dataLines contents
  refine undashed_joinLines ending hall ?_
  rw [← Split.flatten_behind Section.endsLine (joinLines ending _)]
  exact List.mem_flatten_of_mem hline hdash

/-- The text of a scanned block with header lines has no sections, unless one of the lines has a
carriage return in front of a begin marker. -/
theorem Block.Scanned.sections_of_headerLines (hblock : block.Scanned)
    (hundashed : 0x2D ∉ Utf8.encode block.tag) (hunbroken : Unbroken (Utf8.encode block.tag))
    (hcolon : 0x3A ∉ Utf8.encode block.tag) (hheaders : block.headerLines ≠ [])
    (hcr : ∀ line ∈ block.headerLines, ¬ 0x0D :: beginMarker <:+: Utf8.encode line) :
    (Section.read (block.encode ending)).sections = [] := by
  obtain ⟨b, more, hb, hmore, hpieces⟩ := Section.pieces_eq ending
  have hbeginLine : Unbroken (beginLine (Utf8.encode block.tag)) :=
    (Unbroken.append (by decide) hunbroken).append unbroken_dashes
  have hlines : Section.lines (block.encode ending) =
      (beginLine (Utf8.encode block.tag) ++ [b]) :: (more ++ (Section.lines (joinLines ending
        (block.headerLines.map fun line => Utf8.encode (Blank.trim line))) ++
          (Section.lines (joinLines ending ([] :: dataLines block.contents)) ++
            Section.lines (endOf (Utf8.encode block.tag) ++ ending.bytes)))) := by
    rw [encode_eq_append_endLine, joinLines_cons, List.append_assoc,
      Block.bodyLines_of_headerLines hheaders, Section.lines_line ending hbeginLine, lines_append_joinLines, joinLines_append,
      lines_append_joinLines, hpieces, List.append_assoc, List.cons_append]
  have hmoreUndashed : ∀ line ∈ more, ¬ dashes <+: line := by
    rcases hmore with rfl | rfl <;> decide
  rw [Section.read, hlines, Section.Progress.read,
    Section.feed_beginLine hundashed hb Section.Progress.fresh]
  simp only [Section.Progress.fresh]
  rw [Section.read_texts hmoreUndashed]
  refine sections_read_headers ending rfl (by simpa using hheaders) ?_ ?_
  · intro written hwritten
    obtain ⟨line, hline, rfl⟩ := List.mem_map.mp hwritten
    obtain ⟨hnamed, hsingle, hunmatched⟩ := (hblock.lines line hline).written
    exact ⟨hnamed, hsingle, hunmatched,
      fun hmarker => hcr line hline (hmarker.trans (infix_encode_trim line))⟩
  · intro later hspoiled
    refine Section.sections_read_spoiled hspoiled ?_ fun last hlast =>
      sections_read_endLine ending hblock.tag hunbroken hcolon hlast
    intro line hline
    have hdash := undashed_lines_data ending block.contents line hline
    exact ⟨fun h => hdash (h.subset (by decide)), fun h => hdash (h.subset (by decide))⟩

/-- A key that `firstPrivateKey` returns for the text of a scanned block is of the kind that the tag
names. If no header line has a carriage return in front of a begin marker, the block has no header
lines and the key is its contents. -/
theorem Block.Scanned.firstPrivateKey (hblock : block.Scanned) {key : PrivateKey}
    (hkey : Section.firstPrivateKey (block.encode ending) = .ok (some key)) :
    block.tag = key.kind.tag ∧
      ((∀ line ∈ block.headerLines, ¬ 0x0D :: beginMarker <:+: Utf8.encode line) →
        block.headerLines = [] ∧ block.contents = key.der) := by
  have hfound : ∃ s ∈ (Section.read (block.encode ending)).sections,
      Section.privateKey? s = some key := by
    apply List.exists_of_findSome?_eq_some
    unfold Section.firstPrivateKey at hkey
    dsimp only at hkey
    split at hkey <;> simp_all
  obtain ⟨s, hs, hsection⟩ := hfound
  have htag : block.tag = key.kind.tag := by
    obtain ⟨kind, hkind, rfl⟩ := Option.map_eq_some_iff.mp hsection
    have hlabel : Section.keyLabel kind = s.label := beq_iff_eq.mp
      (List.find?_some (p := fun kind => Section.keyLabel kind == s.label) hkind)
    rw [hblock.label_of_mem_sections ending hs] at hlabel
    exact (Utf8.encode_injective hlabel).symm
  obtain ⟨hundashed, hunbroken⟩ := Section.undashed_keyTag key.kind
  refine ⟨htag, fun hcr => ?_⟩
  have hheaders : block.headerLines = [] := by
    by_contra hne
    have hcolon : 0x3A ∉ Utf8.encode block.tag := by
      rw [htag]
      cases key.kind <;> decide
    rw [hblock.sections_of_headerLines ending (htag ▸ hundashed) (htag ▸ hunbroken) hcolon hne hcr]
      at hs
    cases hs
  have hblock : block = ⟨key.kind.tag, [], block.contents⟩ := by
    rw [← htag, ← hheaders]
  rw [hblock, Section.firstPrivateKey_written] at hkey
  refine ⟨hheaders, ?_⟩
  exact congrArg PrivateKey.der (Option.some.inj (Except.ok.inj hkey))

end Keys

end ClientIdentity.Pem
