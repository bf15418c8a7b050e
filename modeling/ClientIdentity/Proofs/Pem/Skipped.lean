import ClientIdentity.Proofs.Pem.Scanned
import ClientIdentity.Proofs.Pem.Search
import ClientIdentity.Proofs.Pem.Segment
import ClientIdentity.Proofs.Run

namespace ClientIdentity.Pem

open Bytes

section Places

/-- A piece of an input that looks like a block and does not decode: where its segment begins and
ends is decided as for a valid one. -/
structure Malformed.At (piece : Malformed) (input segment : Bytes) : Prop where
  stands : ∃ start last, LabelAt input start piece.label ∧
    FirstAt (endOf piece.label) (input.drop start) last ∧
      segment = (input.drop start).take (last + (endOf piece.label).length)
  fails : Segment.parse segment = .error piece.fault

theorem at_of_segment? {data label : Bytes} {start length : Nat} {fault : Segment.Fault}
    (hbegin : beginMarker <+: data.drop start)
    (hsegment : segment? (data.drop start) = some (label, length))
    (hparse : Segment.parse ((data.drop start).take length) = .error fault) :
    Malformed.At ⟨label, fault⟩ data ((data.drop start).take length) := by
  obtain ⟨hlabel, last, hlast, rfl⟩ := (segment?_eq_some_iff hbegin).mp hsegment
  exact ⟨⟨start, last, hlabel, hlast, rfl⟩, hparse⟩

theorem exists_at_of_findingAt {data rest : Bytes} {start : Nat} {piece : Malformed}
    (hbegin : beginMarker <+: data.drop start)
    (h : findingAt (data.drop start) = (.malformed piece, rest)) :
    ∃ segment, piece.At data segment := by
  unfold findingAt at h
  split at h
  · simp at h
  · rename_i label length hsegment
    split at h
    · simp at h
    · rename_i fault hparse
      simp only [Prod.mk.injEq, Finding.malformed.injEq] at h
      obtain ⟨rfl, -⟩ := h
      exact ⟨_, at_of_segment? hbegin hsegment hparse⟩

/-- Every malformed piece is a segment at a begin marker of the input. -/
theorem exists_at_of_mem_findings {data : Bytes} {piece : Malformed}
    (h : .malformed piece ∈ findings data) : ∃ segment, piece.At data segment := by
  suffices hall : ∀ input start, data.drop start = input → .malformed piece ∈ findings input →
      ∃ segment, piece.At data segment from hall data 0 List.drop_zero h
  intro input start hinput hmem
  fun_induction findings input generalizing start with
  | case1 => cases hmem
  | case2 input finding rest hstep ih =>
    subst hinput
    rcases List.mem_cons.mp hmem with rfl | hlater
    · obtain ⟨place, -, hbegin, -, hfinding⟩ := step?_eq_some_iff.mp hstep
      exact exists_at_of_findingAt hbegin hfinding
    · obtain ⟨later, rfl⟩ := exists_drop_of_step? hstep
      exact ih later rfl hlater

theorem mem_skipped_of_step? {σ : Type} {test : σ → Block → Bool × σ} {state : σ}
    {input rest : Bytes} {piece : Malformed} (h : step? input = some (.malformed piece, rest)) :
    piece ∈ (search test state input).skipped := by
  rw [search_of_skip h rfl]
  exact List.mem_cons_self

/-- Every piece that a search skips is among the findings. -/
theorem mem_findings_of_mem_skipped {σ : Type} {test : σ → Block → Bool × σ} {state : σ}
    {input : Bytes} {piece : Malformed} (h : piece ∈ (search test state input).skipped) :
    .malformed piece ∈ findings input := by
  fun_induction search test state input with
  | case1 => cases h
  | case2 => cases h
  | case3 state input block rest hstep later htest ih =>
    rw [findings_of_step?_eq_some hstep]
    exact List.mem_cons_of_mem _ (ih h)
  | case4 state input malformed rest hstep later ih =>
    rw [findings_of_step?_eq_some hstep]
    rcases List.mem_cons.mp h with rfl | hlater
    · exact List.mem_cons_self
    · exact List.mem_cons_of_mem _ (ih hlater)
  | case5 state input rest hstep ih =>
    rw [findings_of_step?_eq_some hstep]
    exact List.mem_cons_of_mem _ (ih h)

end Places

namespace Segment

/-- `cut?` of a segment whose tag and payload have no dashes returns both. -/
theorem cut?_undashed {tag body : Bytes} (htag : 0x2D ∉ tag) (hbody : 0x2D ∉ body) :
    cut? (beginLine tag ++ body ++ endOf tag) = some ⟨tag, body.dropWhile isGap, tag⟩ := by
  have hskipsTag : Skips dashes tag := by
    rw [dashes_eq]
    exact .of_not_mem htag
  have hskipsBody : Skips endMarker (body.dropWhile isGap) := by
    rw [endMarker_eq, dashes_eq]
    exact .of_not_mem fun hdash => hbody ((List.dropWhile_suffix _).subset hdash)
  have hgap : (body ++ endOf tag).dropWhile isGap = body.dropWhile isGap ++ endOf tag := by
    have hend : (endOf tag).dropWhile isGap = endOf tag := by
      rw [endOf, endMarker_eq, dashes_eq]
      exact List.dropWhile_cons_of_neg (by decide)
    rw [List.dropWhile_append, hend]
    split_ifs with hnil
    · rw [List.isEmpty_iff.mp hnil, List.nil_append]
    · rfl
  exact cut?_of_skips hskipsTag hskipsBody hgap

theorem header?_eq_none {line : String} (h : ':' ∉ line.toList) : Block.header? line = none := by
  rw [Block.header?, Option.map_eq_none_iff, Option.eq_none_iff_forall_ne_some]
  rintro ⟨before, after⟩ hsplit
  rw [(Split.eq_of_atFirst? hsplit).1] at h
  simp at h

/-- `headerLines` of lines without colons fails with the first of them. -/
theorem headerLines_colonless {part : Bytes} (hascii : ∀ b ∈ part, b < 128)
    (hcolon : 0x3A ∉ part) :
    headerLines part =
      match (Split.lines (Utf8.ascii part)).head? with
      | some line => .error (.badHeader line)
      | none => .ok [] := by
  have hall : ∀ line ∈ Split.lines (Utf8.ascii part), (Block.header? line).isNone = true := by
    intro line hline
    obtain ⟨-, before, after, htext, -⟩ := Split.exists_append_of_mem_lines hline
    rw [header?_eq_none, Option.isNone_none]
    intro hmem
    have hwhole : ':' ∈ (Utf8.ascii part).toList := by
      rw [htext]
      exact List.mem_append_left _ (List.mem_append_right _ hmem)
    have hbyte : 0x3A ∈ Utf8.encode (Utf8.ascii part) :=
      (Utf8.mem_encode_iff (by decide)).mpr hwhole
    rw [Utf8.encode_ascii hascii] at hbyte
    exact hcolon hbyte
  simp only [headerLines, text_of_ascii hascii, bind, Except.bind]
  cases hlines : Split.lines (Utf8.ascii part) with
  | nil => rfl
  | cons first more =>
    rw [hlines, List.forall_mem_cons] at hall
    simp only [List.find?_cons, hall.1, List.head?_cons]

/-- A byte of base64. -/
def isBase64 (b : UInt8) : Bool :=
  Base64.isSymbol b || b == Base64.pad

/-- Whether a byte is base64 or white space. -/
def isKeyText (b : UInt8) : Bool :=
  isBase64 b || isGap b

theorem of_isKeyText {b : UInt8} (h : isKeyText b = true) : b < 128 ∧ b ≠ 0x2D ∧ b ≠ 0x3A := by
  have hall : ∀ b : UInt8, isKeyText b = true → b < 128 ∧ b ≠ 0x2D ∧ b ≠ 0x3A :=
    forall_byte (by decide)
  exact hall b h

variable {tag : String} {body : Bytes} (htag : tag ≠ "") (hundashed : 0x2D ∉ Utf8.encode tag)
  (hbody : ∀ b ∈ body, isKeyText b = true)

include htag hundashed hbody

/-- `parse` of base64 and blank lines returns the block, or fails with `badData`, or with
`badHeader` for the first line if an empty line follows it. -/
theorem parse_keyText :
    parse (beginLine (Utf8.encode tag) ++ body ++ endOf (Utf8.encode tag)) =
      let parts := divide (body.dropWhile isGap)
      match contents parts.2, (Split.lines (Utf8.ascii parts.1)).head? with
      | .error fault, _ => .error fault
      | .ok _, some line => .error (.badHeader line)
      | .ok bytes, none => .ok ⟨tag, [], bytes⟩ := by
  have hdashes : 0x2D ∉ body := fun hdash => (of_isKeyText (hbody _ hdash)).2.1 rfl
  have hsubset : ∀ b ∈ (divide (body.dropWhile isGap)).1, b ∈ body := fun b hb =>
    (List.dropWhile_suffix _).subset ((infix_of_divide _).1.subset hb)
  have hheaders := headerLines_colonless
    (fun b hb => (of_isKeyText (hbody b (hsubset b hb))).1)
    (fun hcolon => (of_isKeyText (hbody _ (hsubset _ hcolon))).2.2 rfl)
  have hempty : tag.isEmpty = false := by
    rw [← Bool.not_eq_true, String.isEmpty_iff]
    exact htag
  simp only [parse, cut?_undashed hundashed hdashes, Parts.toBlock, text_encode, bind, Except.bind,
    hempty, Bool.false_eq_true, if_false, ne_eq, not_true_eq_false]
  cases contents (divide (body.dropWhile isGap)).2 with
  | error fault => rfl
  | ok bytes =>
    simp only [hheaders]
    cases (Split.lines (Utf8.ascii (divide (body.dropWhile isGap)).1)).head? <;> rfl

/-- `parse` of base64 and blank lines fails with `badHeader` exactly if an empty line follows the
first line and the data behind it decode. -/
theorem parse_keyText_eq_badHeader_iff {line : String} :
    parse (beginLine (Utf8.encode tag) ++ body ++ endOf (Utf8.encode tag)) = .error (.badHeader line) ↔
      ∃ part data bytes, divide (body.dropWhile isGap) = (part, data) ∧ contents data = .ok bytes ∧
        (Split.lines (Utf8.ascii part)).head? = some line := by
  have hascii : ∀ b ∈ (divide (body.dropWhile isGap)).2, b < 128 := fun b hb =>
    (of_isKeyText (hbody b ((List.dropWhile_suffix _).subset ((infix_of_divide _).2.subset hb)))).1
  have hcontents := contents_of_ascii hascii
  rw [parse_keyText htag hundashed hbody]
  generalize divide (body.dropWhile isGap) = parts at hcontents ⊢
  obtain ⟨part, data⟩ := parts
  simp only [Prod.mk.injEq] at hcontents ⊢
  constructor
  · intro h
    refine ⟨part, data, ?_⟩
    split at h
    · rename_i fault _ hfault
      rw [hfault] at hcontents
      obtain ⟨reason, -, hreason⟩ := Run.mapError_eq_error_iff.mp hcontents.symm
      rw [← hreason] at h
      cases h
    · rename_i bytes first hbytes hfirst
      cases h
      exact ⟨bytes, ⟨rfl, rfl⟩, hbytes, hfirst⟩
    · cases h
  · rintro ⟨_, _, bytes, ⟨rfl, rfl⟩, hbytes, hline⟩
    rw [hbytes, hline]

/-- A piece of base64 and blank lines fails with `badData`, at an offset inside of it, or with
`badHeader`. -/
theorem badData_or_badHeader_of_keyText {fault : Fault}
    (h : parse (beginLine (Utf8.encode tag) ++ body ++ endOf (Utf8.encode tag)) = .error fault) :
    (∃ reason, fault = .badData reason ∧ reason.offset ≤ body.length) ∨
      ∃ line, fault = .badHeader line := by
  have hpart := (infix_of_divide (body.dropWhile isGap)).2
  have hascii : ∀ b ∈ (divide (body.dropWhile isGap)).2, b < 128 := fun b hb =>
    (of_isKeyText (hbody b ((List.dropWhile_suffix _).subset (hpart.subset hb)))).1
  have hlength := hpart.length_le.trans (List.dropWhile_suffix (l := body) isGap).length_le
  rw [parse_keyText htag hundashed hbody] at h
  dsimp only at h
  split at h
  · rename_i found _ hfault
    obtain rfl := Except.error.inj h
    rw [contents_of_ascii hascii] at hfault
    obtain ⟨reason, hreason, rfl⟩ := Run.mapError_eq_error_iff.mp hfault
    have hoffset := (Base64.offset_le_of_decode hreason).trans (List.length_filter_le _ _)
    exact .inl ⟨reason, rfl, hoffset.trans hlength⟩
  · exact .inr ⟨_, (Except.error.inj h).symm⟩
  · cases h

end Segment

end ClientIdentity.Pem
