import ClientIdentity.Proofs.Pem.Scan

namespace ClientIdentity.Pem

open Bytes

/-- A header of a block. -/
structure Header where
  name : String
  value : String
  deriving DecidableEq, Repr

namespace Header

/-- A header as a line. The blank behind the colon is not written if the value is empty. -/
def line (header : Header) : String :=
  header.name ++ ": " ++ header.value

/-- A header that a block can be written with. The value may hold colons, and both parts may be
empty. -/
structure WellFormed (header : Header) : Prop where
  name_trimmed : Blank.trim header.name = header.name
  value_trimmed : Blank.trim header.value = header.value
  colonless : ':' ∉ header.name.toList
  unbroken_name : Unbroken (Utf8.encode header.name)
  unbroken_value : Unbroken (Utf8.encode header.value)
  undashed_name : ¬ dashes <:+: Utf8.encode header.name
  undashed_value : ¬ dashes <:+: Utf8.encode header.value

theorem toList_line (header : Header) :
    header.line.toList = header.name.toList ++ ':' :: ' ' :: header.value.toList := by
  simp [line]

theorem encode_line (header : Header) :
    Utf8.encode header.line = Utf8.encode header.name ++ 0x3A :: 0x20 :: Utf8.encode header.value := by
  have hcolon : Utf8.encode ": " = [0x3A, 0x20] := by decide
  simp only [line, Utf8.encode_append, hcolon, List.append_assoc, List.cons_append, List.nil_append]

instance (header : Header) : Decidable header.WellFormed :=
  decidable_of_iff
    (Blank.trim header.name = header.name ∧ Blank.trim header.value = header.value ∧
      ':' ∉ header.name.toList ∧ Unbroken (Utf8.encode header.name) ∧
      Unbroken (Utf8.encode header.value) ∧ ¬ dashes <:+: Utf8.encode header.name ∧
      ¬ dashes <:+: Utf8.encode header.value)
    ⟨fun ⟨name, value, colonless, unbrokenName, unbrokenValue, undashedName, undashedValue⟩ =>
      ⟨name, value, colonless, unbrokenName, unbrokenValue, undashedName, undashedValue⟩,
    fun ⟨name, value, colonless, unbrokenName, unbrokenValue, undashedName, undashedValue⟩ =>
      ⟨name, value, colonless, unbrokenName, unbrokenValue, undashedName, undashedValue⟩⟩

variable {header : Header} (h : header.WellFormed)

include h

theorem WellFormed.head_line : ∀ rest, ∀ c ∈ (header.name.toList ++ ':' :: rest).head?,
    Blank.isBlank c = false := by
  intro rest c hc
  have hname := Blank.head_of_trim_eq_self h.name_trimmed
  cases hchars : header.name.toList with
  | nil =>
    rw [hchars, List.nil_append, List.head?_cons] at hc
    obtain rfl := Option.some.inj hc
    decide
  | cons first more =>
    rw [hchars] at hc hname
    exact hname c hc

/-- The trimmed line of a header is the line itself, without the blank behind the colon if the value
is empty. -/
theorem WellFormed.trim_line : Blank.trim header.line =
    if header.value = "" then header.name ++ ":" else header.line := by
  split_ifs with hvalue
  · have hline : header.line = (header.name ++ ":") ++ " " := by
      rw [line, hvalue, String.append_empty, String.append_assoc]
      rfl
    have htext : (header.name ++ ":").toList = header.name.toList ++ [':'] := by simp
    rw [hline, Blank.trim_append_blank Blank.isBlank_of_mem_space]
    apply Blank.trim_of_ends
    · rw [htext]
      exact h.head_line []
    · rw [htext, List.getLast?_concat]
      intro c hc
      obtain rfl := Option.some.inj hc
      decide
  · have hne : header.value.toList ≠ [] := fun hnil => hvalue (String.toList_eq_nil_iff.mp hnil)
    apply Blank.trim_of_ends
    · rw [toList_line]
      exact h.head_line _
    · rw [toList_line, List.getLast?_append_of_ne_nil _ (by simp), List.getLast?_cons_of_ne_nil (by simp),
        List.getLast?_cons_of_ne_nil hne]
      exact Blank.getLast_of_trim_eq_self h.value_trimmed

/-- `header?` of the line of a header returns its name and its value. -/
theorem WellFormed.header?_line :
    Block.header? header.line = some (header.name, header.value) := by
  have hline : header.line = header.name ++ String.singleton ':' ++ (" " ++ header.value) := by
    apply String.toList_inj.mp
    simp [toList_line]
  simp only [hline, Block.header?, Split.atFirst?_append _ h.colonless, Option.map_some,
    Blank.trim_append Blank.isBlank_of_mem_space, h.value_trimmed, h.name_trimmed]

theorem WellFormed.unbroken_line : Unbroken (Utf8.encode header.line) := by
  have hcolon : Unbroken [0x3A, 0x20] := by decide
  rw [encode_line, List.append_cons, List.append_cons, List.append_assoc _ [0x3A],
    List.singleton_append]
  exact (h.unbroken_name.append hcolon).append h.unbroken_value

theorem WellFormed.undashed_line : ¬ dashes <:+: Utf8.encode header.line := by
  have hblank : ¬ dashes <:+: 0x20 :: Utf8.encode header.value := by
    have hempty : ¬ dashes <:+: [] := by decide
    rw [← List.nil_append (0x20 :: _), infix_append_cons_iff (by decide), not_or]
    exact ⟨hempty, h.undashed_value⟩
  rw [encode_line, infix_append_cons_iff (by decide), not_or]
  exact ⟨h.undashed_name, hblank⟩

/-- The trimmed line of a well-formed header is writable. -/
theorem WellFormed.writableLine : WritableLine (Blank.trim header.line) := by
  have hpart := infix_encode_trim header.line
  refine ⟨Blank.trim_trim _, by rw [Block.header?_trim, h.header?_line]; rfl, ⟨?_, ?_⟩, fun hmarker => ?_⟩
  · exact fun hlf => h.unbroken_line.1 (hpart.subset hlf)
  · exact fun hcr => h.unbroken_line.2 (hpart.subset hcr)
  · exact h.undashed_line (dashes_infix_endMarker.trans (hmarker.trans hpart))

/-- The trimmed line of a header begins with its name and a colon. -/
theorem WellFormed.exists_encode_trim_line :
    ∃ rest, Utf8.encode (Blank.trim header.line) = Utf8.encode (header.name ++ ":") ++ rest := by
  rw [h.trim_line]
  split_ifs
  · exact ⟨[], (List.append_nil _).symm⟩
  · refine ⟨0x20 :: Utf8.encode header.value, ?_⟩
    have hcolon : Utf8.encode ":" = [0x3A] := by decide
    rw [encode_line, Utf8.encode_append, hcolon, List.append_assoc, List.singleton_append]

end Header

/-- A block of a file, and how its lines end. -/
structure Entry where
  tag : String
  headers : List Header
  contents : Bytes
  ending : LineEnding

namespace Entry

/-- The block of an entry, with its headers as lines. -/
def block (entry : Entry) : Block :=
  ⟨entry.tag, entry.headers.map Header.line, entry.contents⟩

/-- An entry as it stands in the file. -/
def text (entry : Entry) : Bytes :=
  entry.block.encode entry.ending

/-- An entry that can be told from what stands around it. Nothing is required of its contents. -/
structure WellFormed (entry : Entry) : Prop where
  tag_ne : entry.tag ≠ ""
  undashed : 0x2D ∉ Utf8.encode entry.tag
  unbroken : Unbroken (Utf8.encode entry.tag)
  headers : ∀ header ∈ entry.headers, header.WellFormed

instance (entry : Entry) : Decidable entry.WellFormed :=
  decidable_of_iff
    (entry.tag ≠ "" ∧ 0x2D ∉ Utf8.encode entry.tag ∧ Unbroken (Utf8.encode entry.tag) ∧
      ∀ header ∈ entry.headers, header.WellFormed)
    ⟨fun ⟨tag, undashed, unbroken, headers⟩ => ⟨tag, undashed, unbroken, headers⟩,
    fun ⟨tag, undashed, unbroken, headers⟩ => ⟨tag, undashed, unbroken, headers⟩⟩

variable {entry : Entry} (h : entry.WellFormed)

include h

theorem WellFormed.writable : entry.block.trimmed.Writable where
  tag_ne := h.tag_ne
  undashed hdashes := h.undashed (hdashes.subset (by decide))
  getLast_ne hlast := h.undashed (List.mem_of_getLast? hlast)
  lines line hline := by
    simp only [Block.trimmed, block, List.map_map, List.mem_map, Function.comp_apply] at hline
    obtain ⟨header, hheader, rfl⟩ := hline
    exact (h.headers header hheader).writableLine

/-- The headers of the trimmed block of an entry are the headers of the entry, in order. -/
theorem WellFormed.headers_trimmed :
    entry.block.trimmed.headers = entry.headers.map fun header => (header.name, header.value) := by
  have hall := h.headers
  rw [Block.headers_trimmed, Block.headers, block, List.filterMap_map]
  generalize entry.headers = headers at hall ⊢
  induction headers with
  | nil => rfl
  | cons header more ih =>
    rw [List.forall_mem_cons] at hall
    rw [List.filterMap_cons, List.map_cons, Function.comp_apply, hall.1.header?_line, ih hall.2]

end Entry

/-- A line ending in front of an input adds no begin marker. -/
theorem beginMarker_infix_ending_append_iff {ending : LineEnding} {rest : Bytes} :
    beginMarker <:+: ending.bytes ++ rest ↔ beginMarker <:+: rest := by
  have hmarker : beginMarker = 0x2D :: beginMarker.tail := by decide
  have hdash : 0x2D ∉ ending.bytes := by cases ending <;> decide
  rw [hmarker, infix_append_iff hdash]

/-- `blocks` of written entries with bytes between them returns the trimmed block of each. -/
theorem blocks_append_pieces {before : Bytes} {pieces : List (Entry × Bytes)}
    (hbefore : ¬ beginMarker <:+: before)
    (hpieces : ∀ piece ∈ pieces, piece.1.WellFormed ∧ ¬ beginMarker <:+: piece.2) :
    blocks (before ++ pieces.flatMap fun piece => piece.1.text ++ piece.2) =
      pieces.map fun piece => piece.1.block.trimmed := by
  induction pieces generalizing before with
  | nil =>
    rw [List.flatMap_nil, List.append_nil]
    exact blocks_of_absent hbefore
  | cons piece pieces ih =>
    simp only [List.forall_mem_cons] at hpieces
    obtain ⟨⟨hentry, hbehind⟩, hpieces⟩ := hpieces
    obtain ⟨entry, behind⟩ := piece
    -- What is left behind the block begins with the ending of its last line.
    have hgap : ¬ beginMarker <:+: entry.ending.bytes ++ behind := by
      rwa [beginMarker_infix_ending_append_iff]
    have hrest := ih hgap hpieces
    have hstep := step?_written hentry.writable entry.ending hbefore (entry.ending.bytes ++ behind ++
      pieces.flatMap fun piece => piece.1.text ++ piece.2)
    have hsplit : before ++ ((entry, behind) :: pieces).flatMap (fun piece => piece.1.text ++ piece.2) =
        before ++ entry.block.trimmed.segment entry.ending ++ (entry.ending.bytes ++ behind ++
          pieces.flatMap fun piece => piece.1.text ++ piece.2) := by
      rw [List.flatMap_cons, Entry.text, ← Block.encode_trimmed, Block.encode_eq]
      simp only [List.append_assoc]
    rw [hsplit, blocks_of_step?_eq_some hstep, hrest]
    rfl

/-- `blocks` of written entries with arbitrary bytes before, between and behind them returns exactly
the entries in order: the tag, the headers with their duplicates, and the contents of each. The
bytes need not be UTF-8, but hold no begin marker; each entry has its own line ending. -/
theorem blocks_interleaved {before : Bytes} {pieces : List (Entry × Bytes)}
    (hbefore : ¬ beginMarker <:+: before)
    (hpieces : ∀ piece ∈ pieces, piece.1.WellFormed ∧ ¬ beginMarker <:+: piece.2) :
    (blocks (before ++ pieces.flatMap fun piece => piece.1.text ++ piece.2)).map
        (fun block => (block.tag, block.headers, block.contents)) =
      pieces.map fun piece => (piece.1.tag,
        piece.1.headers.map fun header => (header.name, header.value), piece.1.contents) := by
  rw [blocks_append_pieces hbefore hpieces, List.map_map]
  apply List.map_congr_left
  intro piece hpiece
  rw [Function.comp_apply, (hpieces piece hpiece).1.headers_trimmed]
  rfl

/-- A block with duplicate headers behind invalid UTF-8 and three dashes, then an end marker of its
own label, and a block with the other line ending. -/
theorem blocks_interleaved_sample :
    let locked : Entry := ⟨"EC PRIVATE KEY",
      [⟨"Note", "a: b"⟩, ⟨"Note", ""⟩, ⟨"Note", "a: b"⟩], [0x44, 0x45, 0x46], .crlf⟩
    let plain : Entry := ⟨"A", [], [0x00], .lf⟩
    let stray := endOf (Utf8.encode locked.tag)
    (blocks ([0xFF, 0x2D, 0x2D] ++ (locked.text ++ stray ++ (plain.text ++ [0xC3])))).map
        (fun block => (block.tag, block.headers, block.contents)) =
      [("EC PRIVATE KEY", [("Note", "a: b"), ("Note", ""), ("Note", "a: b")], [0x44, 0x45, 0x46]),
        ("A", [], [0x00])] := by
  intro locked plain stray
  have hpieces : ∀ piece ∈ [(locked, stray), (plain, [0xC3])],
      piece.1.WellFormed ∧ ¬ beginMarker <:+: piece.2 := by
    rw [List.forall_mem_cons, List.forall_mem_singleton]
    exact ⟨⟨by decide +kernel, by decide⟩, by decide, by decide⟩
  have hbefore : ¬ beginMarker <:+: [0xFF, 0x2D, 0x2D] := by decide
  have hscan := blocks_interleaved hbefore hpieces
  simp only [List.flatMap_cons, List.flatMap_nil, List.append_nil] at hscan
  exact hscan

end ClientIdentity.Pem
