import ClientIdentity.ApiKey
import ClientIdentity.Proofs.Text.Base64

namespace ClientIdentity.ApiKey

theorem marker_eq : marker = Utf8.encode "kes:v1:" := rfl

/-- The text of a key is the marker and the base64 of its type and its seed. -/
theorem text_eq (key : ApiKey) : key.text = "kes:v1:" ++ Base64.text (ed25519Type :: key.seed) := by
  have hbytes : key.encode = Utf8.encode ("kes:v1:" ++ Base64.text (ed25519Type :: key.seed)) := by
    rw [Utf8.encode_append, Base64.utf8_text, encode, marker_eq]
  rw [text, hbytes, Utf8.lossy_encode]

theorem text_injective : Function.Injective text := by
  intro first second h
  rw [text_eq, text_eq, String.append_right_inj] at h
  have hseed := (List.cons.inj (Base64.text_injective h)).2
  cases first
  cases second
  simp_all

/-- `parse` refuses a text that does not begin with the marker. -/
theorem parse_of_not_marked {text : String} (h : ¬ ∃ rest, text = "kes:v1:" ++ rest) :
    parse text = .error .missingMarker := by
  rw [parse, if_neg]
  rwa [List.isPrefixOf_iff_prefix, marker_eq, Utf8.encode_prefix_iff]

/-- `parse` of the marker and a text is the decoding of the text, followed by `ofBytes`. -/
theorem parse_marked (rest : String) :
    parse ("kes:v1:" ++ rest) =
      match Base64.decode (Utf8.encode rest) with
      | .error fault => .error (.badText fault)
      | .ok bytes => ofBytes bytes := by
  have hbytes : Utf8.encode ("kes:v1:" ++ rest) = marker ++ Utf8.encode rest := by
    rw [Utf8.encode_append, marker_eq]
  have hmarked : marker.isPrefixOf (marker ++ Utf8.encode rest) = true :=
    List.isPrefixOf_iff_prefix.mpr (List.prefix_append _ _)
  cases hdecode : Base64.decode (Utf8.encode rest) with
  | error fault => simp only [parse, hbytes, hmarked, if_true, List.drop_left, hdecode]
  | ok bytes => simp only [parse, hbytes, hmarked, if_true, List.drop_left, hdecode]

theorem decode_eq_ok_iff_text {rest : String} {bytes : Bytes} :
    Base64.decode (Utf8.encode rest) = .ok bytes ↔ rest = Base64.text bytes := by
  rw [Base64.decode_eq_ok_iff, ← Base64.utf8_text]
  exact Utf8.encode_injective.eq_iff

theorem parse_marked_text (bytes : Bytes) :
    parse ("kes:v1:" ++ Base64.text bytes) = ofBytes bytes := by
  rw [parse_marked, decode_eq_ok_iff_text.mpr rfl]

/-- `parse` refuses a marked text that is not canonical base64, with the fault of the decoding. -/
theorem parse_of_not_canonical {rest : String} (h : ∀ bytes, rest ≠ Base64.text bytes) :
    ∃ fault, parse ("kes:v1:" ++ rest) = .error (.badText fault) := by
  rw [parse_marked]
  cases hdecode : Base64.decode (Utf8.encode rest) with
  | ok bytes => exact absurd (decode_eq_ok_iff_text.mp hdecode) (h bytes)
  | error fault => exact ⟨fault, rfl⟩

/-- The outcome of `ofBytes` by the number of the bytes and by the first of them. -/
theorem ofBytes_cases (bytes : Bytes) :
    (bytes.length ≠ 33 ∧ ofBytes bytes = .error (.invalidLength bytes.length)) ∨
      (∃ type seed, bytes = type :: seed ∧ seed.length = 32 ∧ type ≠ ed25519Type ∧
        ofBytes bytes = .error (.unsupportedType type)) ∨
      ∃ key : ApiKey, bytes = ed25519Type :: key.seed ∧ ofBytes bytes = .ok key := by
  cases bytes with
  | nil => exact .inl ⟨by simp, rfl⟩
  | cons type seed =>
    by_cases hlength : seed.length = 32
    · by_cases htype : type = ed25519Type
      · subst htype
        exact .inr (.inr ⟨⟨seed, hlength⟩, rfl, by simp [ofBytes, hlength]⟩)
      · exact .inr (.inl ⟨type, seed, rfl, hlength, htype, by simp [ofBytes, hlength, htype]⟩)
    · exact .inl ⟨by simpa using hlength, by simp [ofBytes, hlength]⟩

/-- The outcome of `parse` for each of the five forms of a text. -/
theorem parse_cases (text : String) :
    ((¬ ∃ rest, text = "kes:v1:" ++ rest) ∧ parse text = .error .missingMarker) ∨
      (∃ rest fault, text = "kes:v1:" ++ rest ∧ (∀ bytes, rest ≠ Base64.text bytes) ∧
        parse text = .error (.badText fault)) ∨
      (∃ bytes, text = "kes:v1:" ++ Base64.text bytes ∧ bytes.length ≠ 33 ∧
        parse text = .error (.invalidLength bytes.length)) ∨
      (∃ type seed, text = "kes:v1:" ++ Base64.text (type :: seed) ∧ seed.length = 32 ∧
        type ≠ ed25519Type ∧ parse text = .error (.unsupportedType type)) ∨
      ∃ key : ApiKey, text = key.text ∧ parse text = .ok key := by
  by_cases hmarked : ∃ rest, text = "kes:v1:" ++ rest
  · obtain ⟨rest, rfl⟩ := hmarked
    by_cases hcanonical : ∃ bytes, rest = Base64.text bytes
    · obtain ⟨bytes, rfl⟩ := hcanonical
      rw [parse_marked_text]
      rcases ofBytes_cases bytes with ⟨hlength, heq⟩ | ⟨type, seed, rfl, hlength, htype, heq⟩ |
        ⟨key, rfl, heq⟩
      · exact .inr (.inr (.inl ⟨bytes, rfl, hlength, heq⟩))
      · exact .inr (.inr (.inr (.inl ⟨type, seed, rfl, hlength, htype, heq⟩)))
      · exact .inr (.inr (.inr (.inr ⟨key, key.text_eq.symm, heq⟩)))
    · simp only [not_exists] at hcanonical
      obtain ⟨fault, heq⟩ := parse_of_not_canonical hcanonical
      exact .inr (.inl ⟨rest, fault, rfl, hcanonical, heq⟩)
  · exact .inl ⟨hmarked, parse_of_not_marked hmarked⟩

theorem parse_text (key : ApiKey) : parse key.text = .ok key := by
  rw [text_eq, parse_marked_text]
  simp [ofBytes, key.length_seed]

theorem parse_eq_ok_iff {text : String} {key : ApiKey} :
    parse text = .ok key ↔ text = key.text := by
  constructor
  · intro h
    rcases parse_cases text with ⟨-, heq⟩ | ⟨_, _, -, -, heq⟩ | ⟨_, -, -, heq⟩ | ⟨_, _, -, -, -, heq⟩ |
      ⟨other, htext, heq⟩ <;> rw [heq] at h <;> cases h
    exact htext
  · rintro rfl
    exact parse_text key

/-- `parse` succeeds exactly for the marker and the base64 of the type and a seed of 32 bytes, which
is unique. -/
theorem exists_parse_eq_ok_iff {text : String} :
    (∃ key, parse text = .ok key) ↔
      ∃! seed : Bytes, seed.length = 32 ∧ text = "kes:v1:" ++ Base64.text (ed25519Type :: seed) := by
  constructor
  · rintro ⟨key, hkey⟩
    obtain rfl := parse_eq_ok_iff.mp hkey
    refine ⟨key.seed, ⟨key.length_seed, key.text_eq⟩, ?_⟩
    rintro seed ⟨hlength, htext⟩
    have hkeys : key = ⟨seed, hlength⟩ := text_injective (by rw [htext, text_eq])
    rw [hkeys]
  · rintro ⟨seed, ⟨hlength, rfl⟩, -⟩
    exact ⟨⟨seed, hlength⟩, parse_eq_ok_iff.mpr (text_eq ⟨seed, hlength⟩).symm⟩

theorem parse_eq_missingMarker_iff {text : String} :
    parse text = .error .missingMarker ↔ ¬ ∃ rest, text = "kes:v1:" ++ rest := by
  constructor
  · intro h
    rcases parse_cases text with ⟨hmarked, -⟩ | ⟨_, _, -, -, heq⟩ | ⟨_, -, -, heq⟩ |
      ⟨_, _, -, -, -, heq⟩ | ⟨_, -, heq⟩
    · exact hmarked
    all_goals rw [heq] at h; cases h
  · exact parse_of_not_marked

theorem parse_eq_badText_iff {text : String} :
    (∃ fault, parse text = .error (.badText fault)) ↔
      ∃ rest, text = "kes:v1:" ++ rest ∧ ∀ bytes, rest ≠ Base64.text bytes := by
  constructor
  · rintro ⟨fault, h⟩
    rcases parse_cases text with ⟨-, heq⟩ | ⟨rest, _, htext, hcanonical, -⟩ | ⟨_, -, -, heq⟩ |
      ⟨_, _, -, -, -, heq⟩ | ⟨_, -, heq⟩
    · rw [heq] at h; cases h
    · exact ⟨rest, htext, hcanonical⟩
    all_goals rw [heq] at h; cases h
  · rintro ⟨rest, rfl, hcanonical⟩
    exact parse_of_not_canonical hcanonical

theorem parse_eq_invalidLength_iff {text : String} {n : Nat} :
    parse text = .error (.invalidLength n) ↔
      ∃ bytes, text = "kes:v1:" ++ Base64.text bytes ∧ bytes.length = n ∧ n ≠ 33 := by
  constructor
  · intro h
    rcases parse_cases text with ⟨-, heq⟩ | ⟨_, _, -, -, heq⟩ | ⟨bytes, htext, hlength, heq⟩ |
      ⟨_, _, -, -, -, heq⟩ | ⟨_, -, heq⟩ <;> rw [heq] at h <;> cases h
    exact ⟨bytes, htext, rfl, hlength⟩
  · rintro ⟨bytes, rfl, rfl, hlength⟩
    rw [parse_marked_text]
    rcases ofBytes_cases bytes with ⟨-, heq⟩ | ⟨_, _, rfl, hseed, -⟩ | ⟨key, rfl, -⟩
    · exact heq
    · exact absurd (by simp [hseed]) hlength
    · exact absurd (by simp [key.length_seed]) hlength

theorem parse_eq_unsupportedType_iff {text : String} {type : UInt8} :
    parse text = .error (.unsupportedType type) ↔
      ∃ seed, text = "kes:v1:" ++ Base64.text (type :: seed) ∧ seed.length = 32 ∧
        type ≠ ed25519Type := by
  constructor
  · intro h
    rcases parse_cases text with ⟨-, heq⟩ | ⟨_, _, -, -, heq⟩ | ⟨_, -, -, heq⟩ |
      ⟨_, seed, htext, hlength, htype, heq⟩ | ⟨_, -, heq⟩ <;> rw [heq] at h <;> cases h
    exact ⟨seed, htext, hlength, htype⟩
  · rintro ⟨seed, rfl, hlength, htype⟩
    simp [parse_marked_text, ofBytes, hlength, htype]

/-- `parse` returns a key exactly for one text: the marker and the canonical base64 of a zero byte
and the 32 bytes of its seed. For every other text it returns exactly one of four faults: the marker
is missing, what follows is no canonical base64, it stands for a number of bytes other than 33, or
for 33 bytes of which the first is not zero. -/
theorem parse_eq_iff (text : String) :
    (∀ key : ApiKey, parse text = .ok key ↔ text = key.text) ∧
      ((∃ key, parse text = .ok key) ↔
        ∃! seed : Bytes, seed.length = 32 ∧ text = "kes:v1:" ++ Base64.text (0 :: seed)) ∧
      (∀ key : ApiKey, key.text = "kes:v1:" ++ Base64.text (0 :: key.seed) ∧
        parse key.text = .ok key) ∧
      (parse text = .error .missingMarker ↔ ¬ ∃ rest, text = "kes:v1:" ++ rest) ∧
      ((∃ fault, parse text = .error (.badText fault)) ↔
        ∃ rest, text = "kes:v1:" ++ rest ∧ ∀ bytes, rest ≠ Base64.text bytes) ∧
      (∀ n, parse text = .error (.invalidLength n) ↔
        ∃ bytes, text = "kes:v1:" ++ Base64.text bytes ∧ bytes.length = n ∧ n ≠ 33) ∧
      (∀ type, parse text = .error (.unsupportedType type) ↔
        ∃ seed, text = "kes:v1:" ++ Base64.text (type :: seed) ∧ seed.length = 32 ∧ type ≠ 0) := by
  exact ⟨fun _ => parse_eq_ok_iff, exists_parse_eq_ok_iff, fun key => ⟨key.text_eq, parse_text key⟩,
    parse_eq_missingMarker_iff, parse_eq_badText_iff, fun _ => parse_eq_invalidLength_iff,
    fun _ => parse_eq_unsupportedType_iff⟩

end ClientIdentity.ApiKey
