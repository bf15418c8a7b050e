import ClientIdentity.Proofs.KeyFile.Alike
import ClientIdentity.Proofs.Pem.Interleaved

namespace ClientIdentity

/-- The error without the path that it names. -/
def Error.withoutPath : Error → Error
  | .readCertificate _ fault => .readCertificate "" fault
  | .readPrivateKey _ fault => .readPrivateKey "" fault
  | .noCertificate _ => .noCertificate ""
  | error => error

namespace Pem

open Bytes

/-- The headers of a key that is encrypted. -/
def encryptionHeaders (value : String) : List Header :=
  [⟨"Proc-Type", "4,ENCRYPTED"⟩, ⟨Block.encryptionHeader, value⟩]

namespace Entry

/-- An entry as it stands in files of certificates and keys: the only headers are those of an
encrypted key. -/
structure Usual (entry : Entry) : Prop where
  wellFormed : entry.WellFormed
  headers : entry.headers = [] ∨
    Block.isPrivateKeyTag entry.tag = true ∧ ∃ value, entry.headers = encryptionHeaders value

/-- Whether the reader of sections decodes an entry that has headers. -/
def Exposed (entry : Entry) : Prop :=
  entry.headers ≠ [] ∧ Section.knownLabels.contains (Utf8.encode entry.tag) = true

variable {entry : Entry} (h : entry.Usual)

include h

theorem Usual.plain (hbare : entry.headers = []) : entry.block.Plain where
  headerless := by rw [block, hbare, List.map_nil]
  undashed := h.wellFormed.undashed
  unbroken := h.wellFormed.unbroken

/-- The lines of an encrypted key are its two headers, an empty line and the lines of its contents.
None of them begins with a dash. -/
theorem Usual.bodyLines_locked (hlocked : entry.headers ≠ []) :
    ∃ info, entry.block.bodyLines =
        Utf8.encode "Proc-Type: 4,ENCRYPTED" :: info :: [] :: dataLines entry.contents ∧
      Unbroken info ∧ info.head? ≠ some 0x2D := by
  obtain ⟨-, value, hheaders⟩ := h.headers.resolve_left hlocked
  have hinfo : (⟨Block.encryptionHeader, value⟩ : Header).WellFormed := by
    apply h.wellFormed.headers
    rw [hheaders]
    simp [encryptionHeaders]
  refine ⟨Utf8.encode (Blank.trim (⟨Block.encryptionHeader, value⟩ : Header).line), ?_,
    hinfo.writableLine.unbroken, ?_⟩
  · have htrim : Blank.trim (⟨"Proc-Type", "4,ENCRYPTED"⟩ : Header).line =
        "Proc-Type: 4,ENCRYPTED" := by decide
    simp only [Block.bodyLines, Block.writtenHeaders, block, hheaders, encryptionHeaders,
      List.map_cons, List.map_nil, List.isEmpty_cons, htrim]
    rfl
  · have hname : Utf8.encode Block.encryptionHeader =
        0x44 :: [0x45, 0x4B, 0x2D, 0x49, 0x6E, 0x66, 0x6F] := by decide
    rw [hinfo.trim_line]
    split_ifs
    · rw [Utf8.encode_append, hname]
      decide
    · rw [Header.encode_line, hname, List.cons_append, List.head?_cons]
      decide

theorem Usual.lined : Section.Lined entry.block := by
  by_cases hbare : entry.headers = []
  · exact Section.lined_plain (h.plain hbare)
  · refine ⟨h.wellFormed.undashed, h.wellFormed.unbroken, ?_⟩
    obtain ⟨info, hlines, hinfo⟩ := h.bodyLines_locked hbare
    rw [hlines]
    simp only [List.forall_mem_cons]
    refine ⟨⟨by decide, by decide⟩, hinfo, ⟨by decide, by decide⟩, fun line hline => ?_⟩
    exact ⟨(unbroken_of_mem_dataLines hline).2,
      fun hhead => undashed_dataLines _ line hline (List.mem_of_mem_head? hhead)⟩

/-- `Section.read` returns the section of an entry that is not exposed, if its label is known. -/
theorem Usual.read_text (hopen : ¬ entry.Exposed) (rest : Bytes) :
    Section.read (entry.text ++ rest) =
      { Section.read rest with
        sections := (if Section.knownLabels.contains (Utf8.encode entry.block.tag) then
          [Section.ofBlock entry.block] else []) ++ (Section.read rest).sections } := by
  by_cases hbare : entry.headers = []
  · exact Section.read_written entry.ending rest (h.plain hbare)
  · have hunknown : ¬ Section.knownLabels.contains (Utf8.encode entry.block.tag) = true :=
      fun hknown => hopen ⟨hbare, hknown⟩
    rw [text, Section.read_block entry.ending rest h.lined, if_neg hunknown, if_neg hunknown,
      List.nil_append]

/-- `Section.read` fails on an exposed entry with the invalid character of its first header. -/
theorem Usual.read_exposed (hexposed : entry.Exposed) (rest : Bytes) :
    Section.read (entry.text ++ rest) = ⟨[], some (.badText (.invalidCharacter 0x2D))⟩ := by
  obtain ⟨info, hlines, -⟩ := h.bodyLines_locked hexposed.1
  have hheader : Utf8.encode "Proc-Type: 4,ENCRYPTED" =
      [0x50, 0x72, 0x6F, 0x63] ++ 0x2D :: Utf8.encode "Type: 4,ENCRYPTED" := by decide
  have hknown : Section.knownLabels.contains (Utf8.encode entry.block.tag) = true := hexposed.2
  rw [text, Section.read_block entry.ending rest h.lined, if_pos hknown, hlines, joinLines_cons,
    hheader]
  rfl

end Entry

section Files

variable {entries : List Entry} (hentries : ∀ entry ∈ entries, entry.Usual)

include hentries

/-- `blocks` returns all entries of a file. -/
theorem blocks_entries :
    blocks (entries.flatMap Entry.text) = entries.map fun entry => entry.block.trimmed := by
  have hnone : ¬ beginMarker <:+: [] := fun h => absurd h.length_le (by decide)
  have hpieces : ∀ piece ∈ entries.map fun entry => (entry, ([] : Bytes)),
      piece.1.WellFormed ∧ ¬ beginMarker <:+: piece.2 := by
    intro piece hpiece
    obtain ⟨entry, hentry, rfl⟩ := List.mem_map.mp hpiece
    exact ⟨(hentries entry hentry).wellFormed, hnone⟩
  have hblocks := blocks_append_pieces hnone hpieces
  simpa [List.flatMap_map, Function.comp_def] using hblocks

/-- `Section.read` returns all sections of a file without exposed entries. -/
theorem read_entries (hopen : ∀ entry ∈ entries, ¬ entry.Exposed) :
    Section.read (entries.flatMap Entry.text) =
      ⟨((entries.map Entry.block).filter fun b =>
        Section.knownLabels.contains (Utf8.encode b.tag)).map Section.ofBlock, none⟩ := by
  induction entries with
  | nil => rfl
  | cons entry entries ih =>
    rw [List.forall_mem_cons] at hentries hopen
    rw [List.flatMap_cons, hentries.1.read_text hopen.1, ih hentries.2 hopen.2, List.map_cons,
      List.filter_cons]
    split_ifs <;> rfl

theorem certificates_entries (hopen : ∀ entry ∈ entries, ¬ entry.Exposed) :
    Section.certificates (entries.flatMap Entry.text) =
      .ok ((entries.filter fun entry => entry.tag == "CERTIFICATE").map Entry.contents) := by
  rw [Section.certificates_of_read (read_entries hentries hopen), List.filter_map, List.map_map]
  rfl

/-- `Section.read` fails on every file with an exposed entry. -/
theorem fault_read_entries (hexposed : ∃ entry ∈ entries, entry.Exposed) :
    (Section.read (entries.flatMap Entry.text)).fault =
      some (.badText (.invalidCharacter 0x2D)) := by
  induction entries with
  | nil =>
    obtain ⟨entry, hentry, -⟩ := hexposed
    cases hentry
  | cons entry entries ih =>
    rw [List.forall_mem_cons] at hentries
    rw [List.flatMap_cons]
    by_cases hfirst : entry.Exposed
    · rw [hentries.1.read_exposed hfirst]
    · obtain ⟨other, hother, hlater⟩ := hexposed
      rcases List.mem_cons.mp hother with rfl | hmem
      · exact absurd hlater hfirst
      · rw [hentries.1.read_text hfirst]
        exact ih hentries.2 ⟨other, hmem, hlater⟩

theorem certificates_exposed (hexposed : ∃ entry ∈ entries, entry.Exposed) :
    Section.certificates (entries.flatMap Entry.text) =
      .error (.badText (.invalidCharacter 0x2D)) := by
  simp only [Section.certificates, fault_read_entries hentries hexposed]

end Files

end Pem

namespace KeyFile

open Pem

section Law

variable {entries : List Entry} {files : FileSystem} {reader : SecretReader}
  {file certificate key : String}

/-- The entries that hold certificates. -/
def certificateEntries (entries : List Entry) : List Entry :=
  entries.filter fun entry => entry.tag == "CERTIFICATE"

/-- The entries that hold private keys of any kind. -/
def keyEntries (entries : List Entry) : List Entry :=
  entries.filter fun entry => Block.isPrivateKeyTag entry.tag

/-- `loadPrivateKey` of a file of entries is `loadPrivateKey` of the file of its keys. -/
theorem loadPrivateKey_combined {γ : Type} (f : Error → γ)
    (hentries : ∀ entry ∈ entries, entry.Usual)
    (hfile : files.read (Utf8.encode file) = .ok (entries.flatMap Entry.text))
    (hkey : files.read (Utf8.encode key) = .ok ((keyEntries entries).flatMap Entry.text)) :
    (loadPrivateKey files reader file).Alike f (loadPrivateKey files reader key) := by
  have hkeys : ∀ entry ∈ keyEntries entries, entry.Usual :=
    fun entry hentry => hentries entry (List.mem_of_mem_filter hentry)
  have hsame : (blocks (entries.flatMap Entry.text)).find? Block.isPrivateKey =
      (blocks ((keyEntries entries).flatMap Entry.text)).find? Block.isPrivateKey := by
    have htag : (Block.isPrivateKey ∘ fun entry : Entry => entry.block.trimmed) =
        fun entry => Block.isPrivateKeyTag entry.tag := rfl
    rw [blocks_entries hentries, blocks_entries hkeys, keyEntries, List.find?_map, List.find?_map,
      List.find?_filter, htag]
    simp only [and_self, Bool.decide_eq_true]
  simp only [loadPrivateKey, hfile, hkey]
  refine (privateKeyIn_alike _).trans ?_
  rw [hsame]
  exact (privateKeyIn_alike _).symm

theorem certificates_certificateEntries (hentries : ∀ entry ∈ entries, entry.Usual) :
    Section.certificates ((certificateEntries entries).flatMap Entry.text) =
      .ok ((certificateEntries entries).map Entry.contents) := by
  have hcertificates : ∀ entry ∈ certificateEntries entries, entry.Usual :=
    fun entry hentry => hentries entry (List.mem_of_mem_filter hentry)
  have hopen : ∀ entry ∈ certificateEntries entries, ¬ entry.Exposed := by
    intro entry hentry hexposed
    have htag : entry.tag = "CERTIFICATE" := by
      simpa using List.of_mem_filter hentry
    rcases (hentries entry (List.mem_of_mem_filter hentry)).headers with hbare | ⟨hkey, -⟩
    · exact hexposed.1 hbare
    · rw [htag] at hkey
      exact absurd hkey (by decide)
  rw [certificates_entries hcertificates hopen, certificateEntries, List.filter_filter]
  simp only [Bool.and_self]

/-- `loadCertificates` of a file without exposed entries is `loadCertificates` of the file of its
certificates. -/
theorem loadCertificates_combined (hentries : ∀ entry ∈ entries, entry.Usual)
    (hopen : ∀ entry ∈ entries, ¬ entry.Exposed)
    (hfile : files.read (Utf8.encode file) = .ok (entries.flatMap Entry.text))
    (hcertificate : files.read (Utf8.encode certificate) =
      .ok ((certificateEntries entries).flatMap Entry.text)) :
    (loadCertificates files file).Alike Error.withoutPath (loadCertificates files certificate) := by
  simp only [loadCertificates, readCertificates, hfile, hcertificate,
    certificates_entries hentries hopen, certificates_certificateEntries hentries]
  rw [← certificateEntries]
  cases (certificateEntries entries).map Entry.contents with
  | nil => exact ⟨rfl, rfl⟩
  | cons first more => exact (Run.alike_log _ _ _ _ _ _).bind fun _ => .refl _

/-- `loadCertificates` fails on a file with an exposed entry. -/
theorem loadCertificates_exposed (hentries : ∀ entry ∈ entries, entry.Usual)
    (hexposed : ∃ entry ∈ entries, entry.Exposed)
    (hfile : files.read (Utf8.encode file) = .ok (entries.flatMap Entry.text)) :
    loadCertificates files file =
      Run.fail (.readCertificate file (.malformed (.badText (.invalidCharacter 0x2D)))) := by
  simp only [loadCertificates, readCertificates, hfile, certificates_exposed hentries hexposed]
  rfl

end Law

namespace Sample

/-- The certificate of the sample pair. -/
def certificate : Entry :=
  ⟨"CERTIFICATE", [], KeyPair.Sample.layout.encode, .lf⟩

/-- The key of the sample pair without encryption. -/
def openKey : Entry :=
  ⟨"EC PRIVATE KEY", [], KeyPair.Sample.key.der, .crlf⟩

/-- The key of the sample pair, encrypted. -/
def lockedKey : Entry :=
  ⟨"EC PRIVATE KEY", encryptionHeaders (Encryption.headerValue .aes128 (Hex.encode vector)),
    (keyBlock KeyPair.Sample.key protection).contents, .lf⟩

/-- A file of entries, a file of its certificates and a file of its keys. -/
def combined (entries : List Entry) : FileSystem :=
  .ofReadings
    [(Utf8.encode "all.pem", .ok (entries.flatMap Entry.text)),
    (Utf8.encode "client.crt", .ok ((certificateEntries entries).flatMap Entry.text)),
    (Utf8.encode "client.key", .ok ((keyEntries entries).flatMap Entry.text))]

theorem read_combined (entries : List Entry) :
    (combined entries).read (Utf8.encode "all.pem") = .ok (entries.flatMap Entry.text) ∧
    (combined entries).read (Utf8.encode "client.crt") =
      .ok ((certificateEntries entries).flatMap Entry.text) ∧
    (combined entries).read (Utf8.encode "client.key") =
      .ok ((keyEntries entries).flatMap Entry.text) := by
  have hcrt : (Utf8.encode "client.crt" == Utf8.encode "all.pem") = false := by decide
  have hkey : (Utf8.encode "client.key" == Utf8.encode "all.pem") = false := by decide
  have hother : (Utf8.encode "client.key" == Utf8.encode "client.crt") = false := by decide
  simp only [combined, FileSystem.ofReadings, List.lookup_cons, hcrt, hkey, hother, BEq.rfl,
    Option.getD_some, and_self]

theorem usual_certificate : certificate.Usual :=
  ⟨⟨by decide, by decide, by decide, List.forall_mem_nil _⟩, .inl rfl⟩

theorem usual_openKey : openKey.Usual :=
  ⟨⟨by decide, by decide, by decide, List.forall_mem_nil _⟩, .inl rfl⟩

theorem usual_lockedKey : lockedKey.Usual :=
  ⟨⟨by decide, by decide, by decide, by decide⟩, .inr ⟨by decide, _, rfl⟩⟩

theorem exposed_lockedKey : lockedKey.Exposed :=
  ⟨List.cons_ne_nil _ _, by decide⟩

theorem block_lockedKey : lockedKey.block = keyBlock KeyPair.Sample.key protection := by
  have hlines : lockedKey.headers.map Header.line =
      Encryption.headerLines .aes128 (Hex.encode vector) := by decide
  rw [Entry.block, hlines]
  rfl

/-- The sample pair with its key encrypted. -/
def lockedFiles : FileSystem :=
  combined [lockedKey, certificate]

end Sample

section Combined

variable {entries : List Entry} {files : FileSystem} {file certificate key : String}

/-- `loadKeyPair` from one file of certificates and keys, against `loadKeyPair` from a file of the
certificates and a file of the keys. If no private key of a known kind is encrypted, both return the
same pair with the same questions, or the same error but for its path. If one is, wherever it stands
in the file, `loadKeyPair` from the one file fails before any question: the first header of the key
is read as base64. -/
theorem loadKeyPair_combined (hentries : ∀ entry ∈ entries, entry.Usual) (reader : SecretReader)
    (hfile : files.read (Utf8.encode file) = .ok (entries.flatMap Entry.text))
    (hcertificate : files.read (Utf8.encode certificate) =
      .ok ((certificateEntries entries).flatMap Entry.text))
    (hkey : files.read (Utf8.encode key) = .ok ((keyEntries entries).flatMap Entry.text)) :
    (loadPrivateKey files reader file).Alike id (loadPrivateKey files reader key) ∧
    ((∀ entry ∈ entries, ¬ entry.Exposed) →
      (loadKeyPair files reader file file).Alike Error.withoutPath
        (loadKeyPair files reader certificate key)) ∧
    ((∃ entry ∈ entries, entry.Exposed) →
      (loadKeyPair files reader file file).outcome =
          .error (.readCertificate file (.malformed (.badText (.invalidCharacter 0x2D)))) ∧
        (loadKeyPair files reader file file).questions = []) := by
  refine ⟨loadPrivateKey_combined id hentries hfile hkey, fun hopen => ?_, fun hexposed => ?_⟩
  · exact loadKeyPair_alike (loadCertificates_combined hentries hopen hfile hcertificate)
      (loadPrivateKey_combined _ hentries hfile hkey)
  · rw [loadKeyPair, loadCertificates_exposed hentries hexposed hfile]
    exact ⟨rfl, rfl⟩

/-- The sample pair in one file, once with its key unencrypted and once with its key encrypted. -/
theorem loadKeyPair_combined_sample :
    (loadKeyPair (Sample.combined [Sample.openKey, Sample.certificate]) Sample.noReader "all.pem"
        "all.pem").Alike Error.withoutPath
      (loadKeyPair (Sample.combined [Sample.openKey, Sample.certificate]) Sample.noReader "client.crt"
        "client.key") ∧
    (loadKeyPair (Sample.combined [Sample.lockedKey, Sample.certificate]) Sample.noReader "all.pem"
      "all.pem").questions = [] := by
  have hopen : ∀ entry ∈ [Sample.openKey, Sample.certificate], entry.Usual ∧ ¬ entry.Exposed := by
    rw [List.forall_mem_cons, List.forall_mem_singleton]
    exact ⟨⟨Sample.usual_openKey, fun h => h.1 rfl⟩, Sample.usual_certificate, fun h => h.1 rfl⟩
  have hlocked : ∀ entry ∈ [Sample.lockedKey, Sample.certificate], entry.Usual := by
    rw [List.forall_mem_cons, List.forall_mem_singleton]
    exact ⟨Sample.usual_lockedKey, Sample.usual_certificate⟩
  obtain ⟨hfile, hcertificate, hkey⟩ := Sample.read_combined [Sample.openKey, Sample.certificate]
  obtain ⟨hfile', hcertificate', hkey'⟩ :=
    Sample.read_combined [Sample.lockedKey, Sample.certificate]
  constructor
  · exact (loadKeyPair_combined (fun entry hentry => (hopen entry hentry).1) Sample.noReader hfile
      hcertificate hkey).2.1 fun entry hentry => (hopen entry hentry).2
  · exact ((loadKeyPair_combined hlocked Sample.noReader hfile' hcertificate' hkey').2.2
      ⟨_, List.mem_cons_self, Sample.exposed_lockedKey⟩).2

/-- The sample pair with its key encrypted is loaded from two files and not from one. -/
theorem loadKeyPair_not_combined :
    (loadKeyPair Sample.lockedFiles Sample.reader "client.crt" "client.key").outcome =
        .ok KeyPair.Sample.pair ∧
      (loadKeyPair Sample.lockedFiles Sample.reader "all.pem" "all.pem").outcome =
        .error (.readCertificate "all.pem" (.malformed (.badText (.invalidCharacter 0x2D)))) := by
  obtain ⟨hfile, hcertificate, hkey⟩ := Sample.read_combined [Sample.lockedKey, Sample.certificate]
  rw [← Sample.lockedFiles] at hfile hcertificate hkey
  constructor
  · have hanswer : Sample.protection.AnsweredBy Sample.reader := rfl
    have hchain : (certificateEntries [Sample.lockedKey, Sample.certificate]).flatMap Entry.text =
        encodeAll .lf (KeyPair.Sample.pair.chain.map certificateBlock) := by
      have hcertificates : certificateEntries [Sample.lockedKey, Sample.certificate] =
          [Sample.certificate] := by
        simp [certificateEntries, Sample.certificate, Sample.lockedKey]
      rw [hcertificates]
      rfl
    have hlocked : (keyEntries [Sample.lockedKey, Sample.certificate]).flatMap Entry.text =
        encodeAll .lf [keyBlock KeyPair.Sample.pair.key Sample.protection] := by
      have hother : Block.isPrivateKeyTag Sample.certificate.tag = false := by decide
      have htag : Block.isPrivateKeyTag Sample.lockedKey.tag = true := by decide
      have hkeys : keyEntries [Sample.lockedKey, Sample.certificate] = [Sample.lockedKey] := by
        simp [keyEntries, hother, htag]
      rw [hkeys, KeyPair.Sample.pair, ← Sample.block_lockedKey]
      rfl
    exact (yields_loadKeyPair_written (List.cons_ne_nil _ _) KeyPair.Sample.make_pair hanswer
      (hcertificate.trans (congrArg Except.ok hchain))
      (hkey.trans (congrArg Except.ok hlocked))).outcome
  · have hentries : ∀ entry ∈ [Sample.lockedKey, Sample.certificate], entry.Usual := by
      rw [List.forall_mem_cons, List.forall_mem_singleton]
      exact ⟨Sample.usual_lockedKey, Sample.usual_certificate⟩
    rw [loadKeyPair, loadCertificates_exposed hentries
      ⟨_, List.mem_cons_self, Sample.exposed_lockedKey⟩ hfile]
    rfl

end Combined

end KeyFile

end ClientIdentity
