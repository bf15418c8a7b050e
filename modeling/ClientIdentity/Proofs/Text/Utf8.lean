import ClientIdentity.Text.Utf8
import ClientIdentity.Proofs.Bytes.Byte

namespace ClientIdentity.Utf8

open Bytes

theorem encode_injective : Function.Injective encode := by
  intro first second h
  apply String.toByteArray_inj.mp
  apply ByteArray.ext
  exact Array.toList_inj.mp h

theorem encode_append (first second : String) :
    encode (first ++ second) = encode first ++ encode second := by
  simp [encode, String.toByteArray_append, ByteArray.data_append]

theorem encode_eq_flatMap (text : String) :
    encode text = text.toList.flatMap String.utf8EncodeChar := by
  rw [encode, ← String.utf8Encode_toList, List.utf8Encode, List.data_toByteArray]

theorem encode_ofList (chars : List Char) :
    encode (String.ofList chars) = chars.flatMap String.utf8EncodeChar := by
  rw [encode_eq_flatMap, String.toList_ofList]

/-- The encoding of a text is that of its parts. -/
theorem encode_of_toList_eq {text part : String} {before after : List Char}
    (h : text.toList = before ++ part.toList ++ after) :
    encode text = encode (String.ofList before) ++ encode part ++ encode (String.ofList after) := by
  rw [encode_ofList, encode_ofList, encode_eq_flatMap part, encode_eq_flatMap text, h,
    List.flatMap_append, List.flatMap_append]

/-- The encoding of a text has at most four bytes a character. -/
theorem length_encode_le (text : String) : (encode text).length ≤ 4 * text.length := by
  rw [encode_eq_flatMap, ← String.length_toList]
  induction text.toList with
  | nil => simp
  | cons c rest ih =>
    have hc : (String.utf8EncodeChar c).length ≤ 4 := by
      rw [String.length_utf8EncodeChar]
      exact Char.utf8Size_le_four c
    rw [List.flatMap_cons, List.length_append, List.length_cons]
    omega

theorem decode?_eq_some_iff {input : Bytes} {text : String} :
    decode? input = some text ↔ encode text = input := by
  unfold decode? String.fromUTF8?
  constructor
  · intro h
    split at h
    · obtain rfl := Option.some.inj h
      simp [encode, String.fromUTF8, List.data_toByteArray]
    · simp at h
  · rintro rfl
    have hbytes : (encode text).toByteArray = text.toByteArray := by
      apply ByteArray.ext
      simp [encode, List.data_toByteArray]
    rw [hbytes, dif_pos text.isValidUTF8]
    rfl

theorem decode_encode (text : String) : decode (encode text) = .ok text := by
  have h : String.fromUTF8? (encode text).toByteArray = some text := decode?_eq_some_iff.mpr rfl
  rw [decode, h]

/-- `lossy` of the encoding of a text returns the text. -/
theorem lossy_encode (text : String) : lossy (encode text) = text := by
  rw [lossy, decode?_eq_some_iff.mpr rfl]

/-- The encoding of a text is a prefix of another one exactly if the text is a prefix of the
other. -/
theorem encode_prefix_iff {first text : String} :
    encode first <+: encode text ↔ ∃ rest, text = first ++ rest := by
  constructor
  · rintro ⟨tail, htail⟩
    have hbytes : first.toList.utf8Encode ++ tail.toByteArray = text.toList.utf8Encode := by
      rw [String.utf8Encode_toList, String.utf8Encode_toList]
      apply ByteArray.ext
      apply Array.toList_inj.mp
      simpa [encode, List.data_toByteArray] using htail
    obtain ⟨rest, hrest⟩ := List.isPrefix_of_utf8Encode_append_eq_utf8Encode _ hbytes
    refine ⟨String.ofList rest, ?_⟩
    rw [← String.ofList_toList (s := text), ← hrest, String.ofList_append, String.ofList_toList]
  · rintro ⟨rest, rfl⟩
    rw [encode_append]
    exact List.prefix_append _ _

/-- The text of ASCII bytes. -/
def ascii (input : Bytes) : String :=
  String.ofList (input.map fun b => Char.ofNat b.toNat)

theorem utf8EncodeChar_ofNat {b : UInt8} (h : b < 128) :
    String.utf8EncodeChar (Char.ofNat b.toNat) = [b] := by
  have hall : ∀ b : UInt8, b < 128 → String.utf8EncodeChar (Char.ofNat b.toNat) = [b] :=
    forall_byte (by decide)
  exact hall b h

theorem encode_ascii {input : Bytes} (h : ∀ b ∈ input, b < 128) : encode (ascii input) = input := by
  rw [ascii, encode_ofList]
  induction input with
  | nil => rfl
  | cons b rest ih =>
    simp only [List.forall_mem_cons] at h
    simp [utf8EncodeChar_ofNat h.1, ih h.2]

/-- The encoding of an ASCII text has one byte a character. -/
theorem length_encode_of_ascii {text : String} (h : ∀ c ∈ text.toList, c.val ≤ 127) :
    (encode text).length = text.length := by
  rw [encode_eq_flatMap, ← String.length_toList]
  generalize text.toList = chars at h ⊢
  induction chars with
  | nil => rfl
  | cons c rest ih =>
    rw [List.forall_mem_cons] at h
    rw [List.flatMap_cons, List.length_append, String.length_utf8EncodeChar,
      Char.utf8Size_eq_one_iff.mpr h.1, ih h.2, List.length_cons, Nat.add_comm]

/-- A character with an ASCII byte in its encoding is that byte. -/
theorem eq_ofNat_of_mem_utf8EncodeChar {b : UInt8} (hb : b < 128) {c : Char}
    (h : b ∈ String.utf8EncodeChar c) : c = Char.ofNat b.toNat := by
  have hsmall : b.toNat < 128 := UInt8.lt_iff_toNat_lt.mp hb
  unfold String.utf8EncodeChar at h
  dsimp only at h
  split_ifs at h with hone
  · obtain rfl := List.mem_singleton.mp h
    have hvalue : (UInt8.ofNat c.val.toNat).toNat = c.toNat := by
      simp only [UInt8.toNat_ofNat']
      exact Nat.mod_eq_of_lt (by omega)
    rw [hvalue, Char.ofNat_toNat]
  all_goals
    simp only [List.mem_cons, List.not_mem_nil, or_false] at h
    rcases h with rfl | rfl | rfl | rfl <;> simp only [UInt8.toNat_ofNat'] at hsmall <;> omega

/-- An ASCII byte is in the encoding of a text exactly if its character is in the text. -/
theorem mem_encode_iff {b : UInt8} (hb : b < 128) {text : String} :
    b ∈ encode text ↔ Char.ofNat b.toNat ∈ text.toList := by
  rw [encode_eq_flatMap, List.mem_flatMap]
  constructor
  · rintro ⟨c, hc, h⟩
    rwa [← eq_ofNat_of_mem_utf8EncodeChar hb h]
  · intro h
    exact ⟨_, h, by rw [utf8EncodeChar_ofNat hb]; exact List.mem_singleton_self b⟩

theorem toList_ascii (input : Bytes) :
    (ascii input).toList = input.map fun b => Char.ofNat b.toNat := by
  rw [ascii, String.toList_ofList]

end ClientIdentity.Utf8
