import ClientIdentity.Proofs.Bytes.Crlf
import ClientIdentity.Proofs.Text.Blank
import ClientIdentity.Proofs.Text.Split
import ClientIdentity.Proofs.Text.Utf8

namespace ClientIdentity.Split

/-- Characters with a carriage return in front of every line feed. -/
def crlfChars (chars : List Char) : List Char :=
  chars.flatMap fun c => if c = '\n' then ['\r', '\n'] else [c]

/-- The text with a carriage return in front of every line feed. -/
def toCrlf (text : String) : String :=
  String.ofList (crlfChars text.toList)

theorem crlfChars_cons_lf (rest : List Char) :
    crlfChars ('\n' :: rest) = '\r' :: '\n' :: crlfChars rest := rfl

theorem crlfChars_cons_of_ne {c : Char} (hc : c ≠ '\n') (rest : List Char) :
    crlfChars (c :: rest) = c :: crlfChars rest := by
  simp [crlfChars, hc]

theorem toCrlf_of_not_mem {text : String} (h : '\n' ∉ text.toList) : toCrlf text = text := by
  have hchars : crlfChars text.toList = text.toList := by
    generalize text.toList = chars at h ⊢
    induction chars with
    | nil => rfl
    | cons c chars ih =>
      rw [List.mem_cons, not_or] at h
      rw [crlfChars_cons_of_ne (Ne.symm h.1), ih h.2]
  rw [toCrlf, hchars, String.ofList_toList]

theorem mem_toCrlf {text : String} (h : '\n' ∈ text.toList) : '\n' ∈ (toCrlf text).toList := by
  rw [toCrlf, String.toList_ofList]
  exact List.mem_flatMap.mpr ⟨'\n', h, by decide⟩

section Encoding

/-- An ASCII byte is in the encoding of no other character. -/
theorem not_mem_utf8EncodeChar {b : UInt8} (hb : b < 128) {c : Char}
    (hc : c ≠ Char.ofNat b.toNat) : b ∉ String.utf8EncodeChar c :=
  fun h => hc (Utf8.eq_ofNat_of_mem_utf8EncodeChar hb h)

theorem encode_toCrlf (text : String) :
    Utf8.encode (toCrlf text) = Bytes.toCrlf (Utf8.encode text) := by
  rw [toCrlf, Utf8.encode_ofList, Utf8.encode_eq_flatMap]
  induction text.toList with
  | nil => rfl
  | cons c chars ih =>
    rw [List.flatMap_cons, Bytes.toCrlf_append, ← ih]
    by_cases hc : c = '\n'
    · subst hc
      rfl
    · have hlf : 0x0A ∉ String.utf8EncodeChar c := not_mem_utf8EncodeChar (by decide) hc
      rw [crlfChars_cons_of_ne hc, List.flatMap_cons, Bytes.toCrlf_of_not_mem hlf]

/-- The encoding of a text without its carriage returns is the encoding without the byte 0x0D. -/
theorem encode_filter_cr (chars : List Char) :
    Utf8.encode (String.ofList (chars.filter (· != '\r'))) =
      (Utf8.encode (String.ofList chars)).filter (· != 0x0D) := by
  rw [Utf8.encode_ofList, Utf8.encode_ofList]
  induction chars with
  | nil => rfl
  | cons c chars ih =>
    rw [List.flatMap_cons, List.filter_append, ← ih]
    by_cases hc : c = '\r'
    · subst hc
      rfl
    · have hcr : 0x0D ∉ String.utf8EncodeChar c := not_mem_utf8EncodeChar (by decide) hc
      have hkept : (String.utf8EncodeChar c).filter (· != 0x0D) = String.utf8EncodeChar c := by
        rw [List.filter_eq_self]
        intro b hb
        rw [bne_iff_ne]
        rintro rfl
        exact hcr hb
      rw [List.filter_cons_of_pos (by simpa using hc), List.flatMap_cons, hkept]

theorem toCrlf_inj {first second : String} (hfirst : 0x0D ∉ Utf8.encode first)
    (hsecond : 0x0D ∉ Utf8.encode second) (h : toCrlf first = toCrlf second) : first = second := by
  have hencode := congrArg Utf8.encode h
  rw [encode_toCrlf, encode_toCrlf, Bytes.toCrlf_inj hfirst hsecond] at hencode
  exact Utf8.encode_injective hencode

/-- If `toCrlf` of bytes is UTF-8, so are the bytes, and the text is `toCrlf` of theirs. -/
theorem exists_of_encode_eq_toCrlf {input : Bytes} (hinput : 0x0D ∉ input) {text : String}
    (h : Utf8.encode text = Bytes.toCrlf input) :
    ∃ plain, Utf8.encode plain = input ∧ text = toCrlf plain := by
  have hplain : Utf8.encode (String.ofList (text.toList.filter (· != '\r'))) = input := by
    rw [encode_filter_cr, String.ofList_toList, h, Bytes.filter_toCrlf hinput]
  refine ⟨_, hplain, Utf8.encode_injective ?_⟩
  rw [encode_toCrlf, hplain, h]

end Encoding

section Lines

/-- `strip` removes what `toCrlf` adds. -/
theorem strip_toCrlf (text : String) : Blank.strip (toCrlf text) = Blank.strip text := by
  rw [Blank.strip, Blank.strip, toCrlf, String.toList_ofList]
  congr 1
  induction text.toList with
  | nil => rfl
  | cons c chars ih =>
    by_cases hc : c = '\n'
    · subst hc
      rw [crlfChars_cons_lf, List.filter_cons_of_neg (by decide), List.filter_cons_of_neg (by decide),
        List.filter_cons_of_neg (by decide), ih]
    · rw [crlfChars_cons_of_ne hc, List.filter_cons, List.filter_cons, ih]

/-- `dropEnding` keeps a first character that is no line break. -/
theorem dropEnding_cons {c : Char} (hcr : c ≠ '\r') (hlf : c ≠ '\n') (line : List Char) :
    dropEnding (c :: line) = c :: dropEnding line := by
  cases line with
  | nil => simp [dropEnding, hlf]
  | cons d line =>
    have hlast : (c :: d :: line).getLast? = (d :: line).getLast? :=
      List.getLast?_cons_of_ne_nil (List.cons_ne_nil _ _)
    have hinit : (c :: d :: line).dropLast = c :: (d :: line).dropLast :=
      List.dropLast_cons_of_ne_nil (List.cons_ne_nil _ _)
    have hpair : (c :: (d :: line).dropLast).getLast? = some '\r' ↔
        (d :: line).dropLast.getLast? = some '\r' := by
      cases (d :: line).dropLast with
      | nil => simp [hcr]
      | cons e rest => rw [List.getLast?_cons_of_ne_nil (List.cons_ne_nil _ _)]
    simp only [dropEnding, hlast, hinit, hpair]
    split_ifs with hends hcrlf
    · have hne : (d :: line).dropLast ≠ [] := by
        intro hnil
        simp [hnil] at hcrlf
      exact List.dropLast_cons_of_ne_nil hne
    · rfl
    · rfl

/-- The lines of `crlfChars` of a text are those of the text. The induction is on the characters: a
line feed completes a piece, and every other character goes to the first piece of the rest. -/
theorem map_dropEnding_behind_crlfChars {chars : List Char} (h : '\r' ∉ chars) :
    (behind (· == '\n') (crlfChars chars)).map dropEnding =
      (behind (· == '\n') chars).map dropEnding := by
  induction chars with
  | nil => rfl
  | cons c chars ih =>
    rw [List.mem_cons, not_or] at h
    have hrest := ih h.2
    by_cases hc : c = '\n'
    · subst hc
      rw [crlfChars_cons_lf, behind_cons, if_neg (by decide), behind_cons, if_pos (by decide),
        behind_cons, if_pos (by decide)]
      simp only [List.map_cons, hrest]
      rfl
    · have hfree := Ne.symm h.1
      rw [crlfChars_cons_of_ne hc, behind_cons, if_neg (by simpa using hc), behind_cons,
        if_neg (by simpa using hc)]
      cases hleft : behind (· == '\n') (crlfChars chars) with
      | nil =>
        rw [hleft, List.map_nil, List.nil_eq, List.map_eq_nil_iff] at hrest
        rw [hrest]
      | cons piece more =>
        rw [hleft, List.map_cons] at hrest
        cases hright : behind (· == '\n') chars with
        | nil => simp [hright] at hrest
        | cons piece' more' =>
          rw [hright, List.map_cons, List.cons.injEq] at hrest
          rw [List.map_cons, List.map_cons, dropEnding_cons hfree hc, dropEnding_cons hfree hc,
            hrest.1, hrest.2]

theorem lines_toCrlf {text : String} (h : '\r' ∉ text.toList) :
    lines (toCrlf text) = lines text := by
  have hpieces := congrArg (List.map String.ofList) (map_dropEnding_behind_crlfChars h)
  rw [List.map_map, List.map_map] at hpieces
  rw [lines, toCrlf, String.toList_ofList]
  exact hpieces

end Lines

end ClientIdentity.Split
