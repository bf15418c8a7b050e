import ClientIdentity.Certificate.Parsing
import ClientIdentity.Der.Value
import ClientIdentity.Proofs.Der.Element

namespace ClientIdentity.Certificate

open Der

namespace Reader

/-- A sequence of two readers accepts exactly what both accept in turn. -/
theorem bind_eq_ok_iff {α β : Type} {reader : Reader α} {next : α → Reader β}
    {input rest : Bytes} {value : β} :
    (reader >>= next) input = .ok (value, rest) ↔
      ∃ first between, reader input = .ok (first, between) ∧
        next first between = .ok (value, rest) := by
  change (Except.bind (reader input) fun outcome => next outcome.1 outcome.2) = _ ↔ _
  cases hreader : reader input with
  | error fault => simp [Except.bind]
  | ok outcome =>
    obtain ⟨first, between⟩ := outcome
    simp [Except.bind]

theorem pure_eq_ok_iff {α : Type} {value result : α} {input rest : Bytes} :
    (pure value : Reader α) input = .ok (result, rest) ↔ result = value ∧ rest = input := by
  change Except.ok (value, input) = _ ↔ _
  simp only [Except.ok.injEq, Prod.mk.injEq]
  exact ⟨fun ⟨hvalue, hrest⟩ => ⟨hvalue.symm, hrest.symm⟩,
    fun ⟨hvalue, hrest⟩ => ⟨hvalue.symm, hrest.symm⟩⟩

/-- A sequence of two readers continues with the value and the rest of the first. -/
theorem bind_of_ok {α β : Type} {reader : Reader α} {next : α → Reader β} {input between : Bytes}
    {first : α} (h : reader input = .ok (first, between)) :
    (reader >>= next) input = next first between := by
  change (Except.bind (reader input) fun outcome => next outcome.1 outcome.2) = _
  rw [h]
  rfl

theorem refuse_ne_ok {α : Type} {fault : Fault} {input rest : Bytes} {value : α} :
    (refuse fault : Reader α) input ≠ .ok (value, rest) := by
  simp [refuse]

theorem elementOr_eq_ok_iff {fault : Fault} {tag : Tag} {input contents rest : Bytes} :
    elementOr fault tag input = .ok (contents, rest) ↔
      input = encode tag contents ++ rest ∧ contents.length ≤ certificateLimit := by
  rw [← read?_eq_some_iff (by decide)]
  unfold elementOr
  cases read? certificateLimit tag input <;> simp

theorem element_eq_ok_iff {tag : Tag} {input contents rest : Bytes} :
    element tag input = .ok (contents, rest) ↔
      input = encode tag contents ++ rest ∧ contents.length ≤ certificateLimit :=
  elementOr_eq_ok_iff

/-- The contents of an element that is not too long are read. -/
theorem element_encode {tag : Tag} {contents : Bytes} (h : contents.length ≤ certificateLimit)
    (rest : Bytes) : element tag (encode tag contents ++ rest) = .ok (contents, rest) :=
  element_eq_ok_iff.mpr ⟨rfl, h⟩

theorem allOr_eq_ok_iff {α : Type} {fault : Fault} {reader : Reader α} {input : Bytes}
    {value : α} : allOr fault reader input = .ok value ↔ reader input = .ok (value, []) := by
  unfold allOr
  split
  · simp_all
  · simp_all
  · simp_all

/-- A function of the value of a reader is a function of the outcome of `allOr`. -/
theorem allOr_bind_pure {α β : Type} {fault : Fault} {reader : Reader α} {make : α → β}
    {input : Bytes} :
    allOr fault (reader >>= fun value => pure (make value)) input =
      (allOr fault reader input).map make := by
  cases hreader : reader input with
  | error other =>
    have hbind : (reader >>= fun value => pure (make value)) input = .error other := by
      change (Except.bind (reader input) fun outcome => _) = _
      rw [hreader]
      rfl
    rw [allOr, allOr, hbind, hreader]
    rfl
  | ok outcome =>
    obtain ⟨value, rest⟩ := outcome
    rw [allOr, allOr, bind_of_ok hreader, hreader]
    cases rest <;> rfl

/-- The contents of a nested element are used up by the reader of the nested part. -/
theorem withinOr_eq_ok_iff {α : Type} {fault : Fault} {tag : Tag} {reader : Reader α}
    {input rest : Bytes} {value : α} :
    withinOr fault tag reader input = .ok (value, rest) ↔
      ∃ contents, input = encode tag contents ++ rest ∧ contents.length ≤ certificateLimit ∧
        reader contents = .ok (value, []) := by
  simp only [withinOr, bind_eq_ok_iff, elementOr_eq_ok_iff]
  constructor
  · rintro ⟨contents, between, ⟨rfl, hfits⟩, h⟩
    cases hall : allOr fault reader contents with
    | error other => simp [hall, refuse_ne_ok] at h
    | ok found =>
      rw [hall] at h
      obtain ⟨rfl, rfl⟩ := pure_eq_ok_iff.mp h
      exact ⟨contents, rfl, hfits, allOr_eq_ok_iff.mp hall⟩
  · rintro ⟨contents, rfl, hfits, hreader⟩
    refine ⟨contents, rest, ⟨rfl, hfits⟩, ?_⟩
    simp only [allOr_eq_ok_iff.mpr hreader, pure_eq_ok_iff, and_self]

theorem within_eq_ok_iff {α : Type} {tag : Tag} {reader : Reader α} {input rest : Bytes}
    {value : α} :
    within tag reader input = .ok (value, rest) ↔
      ∃ contents, input = encode tag contents ++ rest ∧ contents.length ≤ certificateLimit ∧
        reader contents = .ok (value, []) :=
  withinOr_eq_ok_iff

end Reader

open Reader

/-- The parts of a certificate of the third version as they stand in its bytes. The extensions are
kept as they are written; all others are kept as contents. -/
structure Layout where
  serial : Bytes
  algorithm : Bytes
  issuer : Bytes
  validity : Bytes
  subject : Bytes
  subjectInfo : Bytes
  extensions : Bytes
  signature : Bytes
  deriving DecidableEq, Repr

namespace Layout

/-- The version, which is always the third. -/
def version : Bytes :=
  encode (.wrapper 0) (encode .integer [2])

/-- The encoded public key with its algorithm. -/
def publicKeyInfo (layout : Layout) : Bytes :=
  encode .sequence layout.subjectInfo

/-- What is signed. -/
def signed (layout : Layout) : Bytes :=
  Der.sequence [version, encode .integer layout.serial, encode .sequence layout.algorithm,
    encode .sequence layout.issuer, encode .sequence layout.validity,
    encode .sequence layout.subject, layout.publicKeyInfo, layout.extensions]

/-- The whole certificate. -/
def encode (layout : Layout) : Bytes :=
  Der.sequence [layout.signed, Der.encode .sequence layout.algorithm,
    Der.bitString layout.signature]

end Layout

theorem readSmallNumber_eq_two_iff {input rest : Bytes} :
    readSmallNumber input = .ok (2, rest) ↔ input = encode .integer [2] ++ rest := by
  simp only [readSmallNumber, bind_eq_ok_iff, element_eq_ok_iff]
  constructor
  · rintro ⟨contents, between, ⟨rfl, -⟩, h⟩
    split at h
    · split at h
      · obtain ⟨rfl, rfl⟩ := pure_eq_ok_iff.mp h
        rfl
      · exact absurd h refuse_ne_ok
    · rename_i number
      split at h
      · exact absurd h refuse_ne_ok
      · rename_i hlarge
        obtain ⟨rfl, rfl⟩ := pure_eq_ok_iff.mp h
        exact absurd (by decide) hlarge
    · exact absurd h refuse_ne_ok
  · rintro rfl
    exact ⟨[2], rest, ⟨rfl, by decide⟩, rfl⟩

theorem readVersion_eq_ok_iff {input rest : Bytes} :
    readVersion input = .ok ((), rest) ↔ input = Layout.version ++ rest := by
  simp only [readVersion, withinOr_eq_ok_iff, bind_eq_ok_iff]
  constructor
  · rintro ⟨contents, rfl, -, version, between, hnumber, h⟩
    split at h
    · exact absurd h refuse_ne_ok
    · rename_i hversion
      obtain ⟨-, rfl⟩ := pure_eq_ok_iff.mp h
      rw [Decidable.not_not.mp hversion, readSmallNumber_eq_two_iff] at hnumber
      rw [hnumber, List.append_nil, Layout.version]
  · rintro rfl
    refine ⟨encode .integer [2], rfl, by decide, 2, [], ?_, rfl⟩
    exact readSmallNumber_eq_two_iff.mpr (List.append_nil _).symm

/-- `readSignature` accepts a bit string of whole bytes. -/
theorem exists_of_readSignature {input rest : Bytes}
    (h : readSignature input = .ok ((), rest)) :
    ∃ signature, input = Der.bitString signature ++ rest := by
  simp only [readSignature, within_eq_ok_iff, bind_eq_ok_iff] at h
  obtain ⟨contents, rfl, -, first, between, hfirst, h⟩ := h
  cases contents with
  | nil =>
    simp only [byte?, Except.ok.injEq, Prod.mk.injEq] at hfirst
    obtain ⟨rfl, rfl⟩ := hfirst
    exact absurd h refuse_ne_ok
  | cons unused signature =>
    simp only [byte?, Except.ok.injEq, Prod.mk.injEq] at hfirst
    obtain ⟨rfl, rfl⟩ := hfirst
    by_cases hzero : unused = 0
    · exact ⟨signature, by rw [hzero, Der.bitString]⟩
    · simp only [Option.some.injEq, hzero, imp_self] at h
      exact absurd h refuse_ne_ok

theorem readOuter_eq_ok {der rest signed algorithm : Bytes}
    (h : readOuter der = .ok ((signed, algorithm), rest)) :
    ∃ signature, der = Der.sequence [encode .sequence signed, encode .sequence algorithm,
      Der.bitString signature] ++ rest := by
  simp only [readOuter, within_eq_ok_iff, bind_eq_ok_iff, element_eq_ok_iff] at h
  obtain ⟨contents, rfl, -, _, _, ⟨rfl, -⟩, _, afterAlgorithm, ⟨rfl, -⟩, _, _, hsignature, h⟩ := h
  obtain ⟨hparts, rfl⟩ := pure_eq_ok_iff.mp h
  obtain ⟨rfl, rfl⟩ := Prod.mk.inj hparts
  obtain ⟨signature, rfl⟩ := exists_of_readSignature hsignature
  refine ⟨signature, ?_⟩
  simp only [Der.sequence, List.flatten_cons, List.flatten_nil, List.append_nil]

/-- An input that `readSigned` accepts has the elements of a certificate in order, with extensions
that `readExtensions` accepts. -/
theorem readSigned_eq_ok {purpose : Purpose} {algorithm input rest : Bytes}
    {certificate : Certificate} (h : readSigned purpose algorithm input = .ok (certificate, rest)) :
    ∃ serial extensions,
      input = Layout.version ++ encode .integer serial ++ encode .sequence algorithm ++
        encode .sequence certificate.issuer ++ encode .sequence certificate.validity ++
        encode .sequence certificate.subject ++ encode .sequence certificate.subjectInfo ++
        extensions ∧
      readExtensions purpose extensions = .ok (certificate.extensions, rest) ∧
      certificate.subjectInfo.length ≤ certificateLimit := by
  simp only [readSigned, bind_eq_ok_iff, element_eq_ok_iff] at h
  obtain ⟨⟨⟩, _, hversion, serial, _, ⟨rfl, -⟩, repeated, _, ⟨rfl, -⟩, h⟩ := h
  rw [readVersion_eq_ok_iff] at hversion
  split at h
  · obtain ⟨_, _, h, -⟩ := bind_eq_ok_iff.mp h
    exact absurd h refuse_ne_ok
  · rename_i hsame
    simp only [bind_eq_ok_iff, element_eq_ok_iff] at h
    obtain ⟨issuer, _, ⟨rfl, -⟩, validity, _, ⟨rfl, -⟩, subject, _, ⟨rfl, -⟩, info, rest',
      ⟨rfl, hfits⟩,
      extensions, _, hextensions, h⟩ := h
    obtain ⟨rfl, rfl⟩ := pure_eq_ok_iff.mp h
    refine ⟨serial, rest', ?_, hextensions, hfits⟩
    rw [hversion, Decidable.not_not.mp hsame]
    simp only [List.append_assoc]

/-- A certificate that `decode` returns comes from `readOuter` and `readSigned`, both without a
rest. -/
theorem exists_parts_of_decode {purpose : Purpose} {der : Bytes} {certificate : Certificate}
    (h : decode purpose der = .ok certificate) :
    ∃ signed algorithm, readOuter der = .ok ((signed, algorithm), []) ∧
      readSigned purpose algorithm signed = .ok (certificate, []) := by
  unfold decode at h
  cases houter : allOr .badEncoding readOuter der with
  | error fault => simp [houter, bind, Except.bind] at h
  | ok parts =>
    obtain ⟨signed, algorithm⟩ := parts
    simp only [houter, bind, Except.bind] at h
    exact ⟨signed, algorithm, allOr_eq_ok_iff.mp houter, allOr_eq_ok_iff.mp h⟩

/-- The input of `decode` is the encoding of a layout with the parts of the certificate that it
returns. The layout holds the extensions in their encoded form. -/
theorem exists_layout_of_decode {purpose : Purpose} {der : Bytes} {certificate : Certificate}
    (h : decode purpose der = .ok certificate) :
    ∃ layout : Layout, der = layout.encode ∧
      layout.issuer = certificate.issuer ∧ layout.validity = certificate.validity ∧
      layout.subject = certificate.subject ∧ layout.subjectInfo = certificate.subjectInfo ∧
      readExtensions purpose layout.extensions = .ok (certificate.extensions, []) := by
  obtain ⟨signed, algorithm, houter, hparts⟩ := exists_parts_of_decode h
  obtain ⟨signature, hder⟩ := readOuter_eq_ok houter
  obtain ⟨serial, extensions, hsigned, hextensions, -⟩ := readSigned_eq_ok hparts
  refine ⟨⟨serial, algorithm, certificate.issuer, certificate.validity, certificate.subject,
    certificate.subjectInfo, extensions, signature⟩, ?_, rfl, rfl, rfl, rfl, hextensions⟩
  rw [hder, hsigned, Layout.encode, Layout.signed]
  simp only [Layout.publicKeyInfo, Der.sequence, List.flatten_cons, List.flatten_nil,
    List.append_nil, List.append_assoc]

/-- The public key of a certificate that `decode` returns is within the length limit. -/
theorem length_subjectInfo_le {purpose : Purpose} {der : Bytes} {certificate : Certificate}
    (h : decode purpose der = .ok certificate) :
    certificate.subjectInfo.length ≤ certificateLimit := by
  obtain ⟨signed, algorithm, -, hsigned⟩ := exists_parts_of_decode h
  obtain ⟨-, -, -, -, hfits⟩ := readSigned_eq_ok hsigned
  exact hfits

section Encode

variable {layout : Layout}

/-- The elements of what is signed, in order. -/
def Layout.elements (layout : Layout) : List Bytes :=
  [version, Der.encode .integer layout.serial, Der.encode .sequence layout.algorithm,
    Der.encode .sequence layout.issuer, Der.encode .sequence layout.validity,
    Der.encode .sequence layout.subject, layout.publicKeyInfo, layout.extensions]

/-- The elements of a certificate, in order. -/
def Layout.outerElements (layout : Layout) : List Bytes :=
  [layout.signed, Der.encode .sequence layout.algorithm, Der.bitString layout.signature]

/-- No element of a certificate has contents that are too long to be read. -/
structure Layout.Fits (layout : Layout) : Prop where
  contents : layout.outerElements.flatten.length ≤ certificateLimit
  signed : layout.elements.flatten.length ≤ certificateLimit
  serial : layout.serial.length ≤ certificateLimit
  algorithm : layout.algorithm.length ≤ certificateLimit
  issuer : layout.issuer.length ≤ certificateLimit
  validity : layout.validity.length ≤ certificateLimit
  subject : layout.subject.length ≤ certificateLimit
  subjectInfo : layout.subjectInfo.length ≤ certificateLimit
  signature : layout.signature.length < certificateLimit

/-- All parts of a layout are within the length limit if its encoding is. -/
theorem Layout.fits_of_length (h : layout.encode.length ≤ certificateLimit) : layout.Fits := by
  have hcontents := Nat.le_trans (length_le_length_encode .sequence layout.outerElements.flatten) h
  have hparts := hcontents
  simp only [Layout.outerElements, Layout.signed, Layout.publicKeyInfo, Der.sequence, Der.bitString,
    Der.encode, List.flatten_cons, List.flatten_nil, List.length_cons, List.length_append,
    List.length_nil] at hparts
  refine ⟨hcontents, ?signed, ?_, ?_, ?_, ?_, ?_, ?_, ?_⟩
  case signed =>
    simp only [Layout.elements, Layout.publicKeyInfo, Der.encode, List.flatten_cons,
      List.flatten_nil, List.length_cons, List.length_append, List.length_nil]
    omega
  all_goals omega

/-- `readSignature` passes over a bit string of whole bytes that is within the length limit. -/
theorem readSignature_bitString {signature : Bytes} (hfits : signature.length < certificateLimit)
    (rest : Bytes) : readSignature (Der.bitString signature ++ rest) = .ok ((), rest) := by
  simp only [readSignature, within_eq_ok_iff, bind_eq_ok_iff]
  exact ⟨0 :: signature, rfl, hfits, some 0, signature, rfl, rfl⟩

theorem readOuter_encode (hfits : layout.Fits) :
    readOuter layout.encode = .ok ((layout.elements.flatten, layout.algorithm), []) := by
  simp only [readOuter, within_eq_ok_iff, bind_eq_ok_iff, element_eq_ok_iff]
  refine ⟨layout.outerElements.flatten, by rw [List.append_nil]; rfl, hfits.contents,
    layout.elements.flatten, _, ⟨rfl, hfits.signed⟩, layout.algorithm, _, ⟨rfl, hfits.algorithm⟩,
    (), [], ?_, rfl⟩
  exact readSignature_bitString hfits.signature []

/-- `readSigned` of the elements of a layout returns its parts, with the outcome of `readExtensions`
for the extensions. -/
theorem allOr_readSigned_elements {purpose : Purpose} (hfits : layout.Fits) :
    allOr .badEncoding (readSigned purpose layout.algorithm) layout.elements.flatten =
      (allOr .badEncoding (readExtensions purpose) layout.extensions).map fun extensions =>
        ⟨layout.issuer, layout.validity, layout.subject, layout.subjectInfo, extensions⟩ := by
  rw [← allOr_bind_pure, allOr, allOr]
  simp only [Layout.elements, Layout.publicKeyInfo, List.flatten_cons, List.flatten_nil,
    List.append_nil, readSigned]
  rw [bind_of_ok (readVersion_eq_ok_iff.mpr rfl), bind_of_ok (element_encode hfits.serial _),
    bind_of_ok (element_encode hfits.algorithm _), if_neg (not_not.mpr rfl),
    bind_of_ok (element_encode hfits.issuer _), bind_of_ok (element_encode hfits.validity _),
    bind_of_ok (element_encode hfits.subject _), bind_of_ok (element_encode hfits.subjectInfo _)]

/-- `decode` of the encoding of a layout that is within the length limit returns its parts, with the
outcome of `readExtensions` for the extensions. -/
theorem decode_encode_eq {purpose : Purpose} (hlength : layout.encode.length ≤ certificateLimit) :
    decode purpose layout.encode =
      (allOr .badEncoding (readExtensions purpose) layout.extensions).map fun extensions =>
        ⟨layout.issuer, layout.validity, layout.subject, layout.subjectInfo, extensions⟩ := by
  have hfits := Layout.fits_of_length hlength
  have houter : allOr .badEncoding readOuter layout.encode = .ok _ :=
    allOr_eq_ok_iff.mpr (readOuter_encode hfits)
  simp only [decode, houter, bind, Except.bind, allOr_readSigned_elements hfits]

theorem decode_encode {purpose : Purpose} {extensions : Extensions}
    (hlength : layout.encode.length ≤ certificateLimit)
    (hextensions : readExtensions purpose layout.extensions = .ok (extensions, [])) :
    decode purpose layout.encode =
      .ok ⟨layout.issuer, layout.validity, layout.subject, layout.subjectInfo, extensions⟩ := by
  rw [decode_encode_eq hlength, allOr_eq_ok_iff.mpr hextensions]
  rfl

end Encode

end ClientIdentity.Certificate
