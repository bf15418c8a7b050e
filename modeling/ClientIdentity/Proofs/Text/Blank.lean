import ClientIdentity.Text.Blank
import ClientIdentity.Proofs.Text.Utf8
import Mathlib.Data.List.TakeWhile

namespace ClientIdentity.Blank

/-- `trimChars` of characters without white space at their ends returns them. -/
theorem trimChars_eq_self {chars : List Char} (hfirst : ∀ c ∈ chars.head?, isBlank c = false)
    (hlast : ∀ c ∈ chars.getLast?, isBlank c = false) : trimChars chars = chars := by
  have hdrop : ∀ {l : List Char}, (∀ c ∈ l.head?, isBlank c = false) → l.dropWhile isBlank = l := by
    intro l hl
    cases l with
    | nil => rfl
    | cons c l =>
      have hc := hl c (by simp)
      simp [List.dropWhile, hc]
  rw [trimChars, hdrop hfirst, hdrop (by rwa [List.head?_reverse]), List.reverse_reverse]

theorem trim_of_ends {text : String} (hfirst : ∀ c ∈ text.toList.head?, isBlank c = false)
    (hlast : ∀ c ∈ text.toList.getLast?, isBlank c = false) : trim text = text := by
  rw [trim, trimChars_eq_self hfirst hlast, String.ofList_toList]

theorem trim_of_forall {text : String} (h : ∀ c ∈ text.toList, isBlank c = false) :
    trim text = text :=
  trim_of_ends (fun c hc => h c (List.mem_of_mem_head? hc))
    (fun c hc => h c (List.mem_of_mem_getLast? hc))

theorem isBlank_of_mem_space : ∀ c ∈ " ".toList, isBlank c = true := by
  intro c hc
  obtain rfl : c = ' ' := by simpa using hc
  decide

/-- `trim` ignores white space in front of a text. -/
theorem trim_append {blank text : String} (h : ∀ c ∈ blank.toList, isBlank c = true) :
    trim (blank ++ text) = trim text := by
  rw [trim, trim, String.toList_append, trimChars, trimChars,
    List.dropWhile_append_of_pos h]

/-- `trim` ignores white space behind a text. -/
theorem trim_append_blank {text blank : String} (h : ∀ c ∈ blank.toList, isBlank c = true) :
    trim (text ++ blank) = trim text := by
  have hback : ∀ c ∈ blank.toList.reverse, isBlank c = true :=
    fun c hc => h c (List.mem_reverse.mp hc)
  rw [trim, trim, String.toList_append, trimChars, trimChars, List.dropWhile_append]
  split_ifs with hnone
  · rw [List.dropWhile_eq_nil_iff.mpr h, List.isEmpty_iff.mp hnone]
  · rw [List.reverse_append, List.dropWhile_append_of_pos hback]

theorem not_blank_of_head_dropWhile {chars : List Char} {c : Char}
    (h : c ∈ (chars.dropWhile isBlank).head?) : isBlank c = false := by
  have hhead := List.head?_dropWhile_not isBlank chars
  rw [Option.mem_def] at h
  rwa [h] at hhead

/-- The result of `trimChars` does not begin with white space. -/
theorem head_trimChars {chars : List Char} :
    ∀ c ∈ (trimChars chars).head?, isBlank c = false := by
  intro c hc
  have hfront : trimChars chars <+: chars.dropWhile isBlank := by
    rw [trimChars, ← List.reverse_suffix, List.reverse_reverse]
    exact List.dropWhile_suffix _
  cases htrimmed : trimChars chars with
  | nil => simp [htrimmed] at hc
  | cons first rest =>
    obtain rfl : first = c := by simpa [htrimmed] using hc
    obtain ⟨tail, htail⟩ := hfront
    apply not_blank_of_head_dropWhile
    rw [← htail, htrimmed]
    rfl

theorem getLast_trimChars {chars : List Char} :
    ∀ c ∈ (trimChars chars).getLast?, isBlank c = false := by
  intro c hc
  rw [trimChars, List.getLast?_reverse] at hc
  exact not_blank_of_head_dropWhile hc

/-- `trim` is idempotent. -/
theorem trim_trim (text : String) : trim (trim text) = trim text := by
  have hchars : (trim text).toList = trimChars text.toList := String.toList_ofList
  apply trim_of_ends
  · rw [hchars]
    exact head_trimChars
  · rw [hchars]
    exact getLast_trimChars

/-- A text is its trimmed form with white space around it. -/
theorem exists_append_trim (text : String) :
    ∃ before after, text.toList = before ++ (trim text).toList ++ after ∧
      (∀ c ∈ before, isBlank c = true) ∧ ∀ c ∈ after, isBlank c = true := by
  refine ⟨text.toList.takeWhile isBlank,
    ((text.toList.dropWhile isBlank).reverse.takeWhile isBlank).reverse, ?_, ?_, ?_⟩
  · have hrest : ((text.toList.dropWhile isBlank).reverse.dropWhile isBlank).reverse ++
        ((text.toList.dropWhile isBlank).reverse.takeWhile isBlank).reverse =
          text.toList.dropWhile isBlank := by
      rw [← List.reverse_append, List.takeWhile_append_dropWhile, List.reverse_reverse]
    rw [trim, String.toList_ofList, trimChars, List.append_assoc, hrest,
      List.takeWhile_append_dropWhile]
  · exact fun c hc => List.mem_takeWhile_imp hc
  · exact fun c hc => List.mem_takeWhile_imp (List.mem_reverse.mp hc)

/-- `trim` keeps every character that is no white space. -/
theorem mem_trim {text : String} {c : Char} (hblank : isBlank c = false) :
    c ∈ (trim text).toList ↔ c ∈ text.toList := by
  obtain ⟨before, after, htext, hbefore, hafter⟩ := exists_append_trim text
  rw [htext, List.mem_append, List.mem_append]
  constructor
  · exact fun h => .inl (.inr h)
  · rintro ((h | h) | h)
    · exact absurd (hbefore c h) (by simp [hblank])
    · exact h
    · exact absurd (hafter c h) (by simp [hblank])

theorem isBlankText_iff {text : String} :
    isBlankText text = true ↔ ∀ c ∈ text.toList, isBlank c = true :=
  List.all_eq_true

theorem isBlankText_eq_false_iff {text : String} :
    isBlankText text = false ↔ ∃ c ∈ text.toList, isBlank c = false := by
  simp only [isBlankText, List.all_eq_false, Bool.not_eq_true]

/-- A text is white space exactly if `trim` leaves nothing of it. -/
theorem isBlankText_iff_trim {text : String} : isBlankText text = true ↔ trim text = "" := by
  rw [isBlankText_iff]
  constructor
  · intro h
    rw [trim, trimChars, List.dropWhile_eq_nil_iff.mpr h]
    rfl
  · intro h c hc
    by_contra hblank
    have hmem := (mem_trim (Bool.eq_false_iff.mpr hblank)).mpr hc
    rw [h] at hmem
    exact List.not_mem_nil hmem

theorem trimChars_of_trim_eq_self {text : String} (h : trim text = text) :
    trimChars text.toList = text.toList := by
  rw [← String.toList_ofList (l := trimChars text.toList), ← trim, h]

/-- A trimmed text does not begin with white space. -/
theorem head_of_trim_eq_self {text : String} (h : trim text = text) :
    ∀ c ∈ text.toList.head?, isBlank c = false := by
  rw [← trimChars_of_trim_eq_self h]
  exact head_trimChars

theorem getLast_of_trim_eq_self {text : String} (h : trim text = text) :
    ∀ c ∈ text.toList.getLast?, isBlank c = false := by
  rw [← trimChars_of_trim_eq_self h]
  exact getLast_trimChars

/-- `strip` of an ASCII text removes the bytes of white space. -/
theorem encode_strip_ascii {input : Bytes} (h : ∀ b ∈ input, b < 128) :
    Utf8.encode (strip (Utf8.ascii input)) =
      input.filter fun b => !isBlank (Char.ofNat b.toNat) := by
  have hstrip : strip (Utf8.ascii input) =
      Utf8.ascii (input.filter fun b => !isBlank (Char.ofNat b.toNat)) := by
    rw [strip, Utf8.toList_ascii, Utf8.ascii, List.filter_map]
    rfl
  rw [hstrip, Utf8.encode_ascii]
  intro b hb
  exact h b (List.mem_of_mem_filter hb)

end ClientIdentity.Blank
