import ClientIdentity.Proofs.KeyFile.Questions
import ClientIdentity.Proofs.Pem.Block
import ClientIdentity.Proofs.Pem.Interleaved

namespace ClientIdentity

open Bytes

namespace Pem.Entry

variable {entry : Entry} (h : entry.WellFormed)

include h

/-- No line between the first and the last one of an entry has a line break or begins with five
dashes. -/
theorem WellFormed.bodyLines :
    ∀ line ∈ entry.block.bodyLines, Unbroken line ∧ ¬ dashes <+: line := by
  intro line hline
  obtain ⟨text, htext, rfl⟩ | rfl | hdata := Block.mem_bodyLines hline
  · obtain ⟨header, hheader, rfl⟩ := List.mem_map.mp htext
    have hwell := h.headers header hheader
    exact ⟨hwell.writableLine.unbroken,
      fun hdashes => hwell.undashed_line (hdashes.isInfix.trans (infix_encode_trim _))⟩
  · exact ⟨by decide, by decide⟩
  · refine ⟨(unbroken_of_mem_dataLines hdata).2, Section.not_dashes_prefix_of_head? fun hhead => ?_⟩
    exact undashed_dataLines _ line hdata (List.mem_of_mem_head? hhead)

/-- An entry without an encryption header is not encrypted. -/
theorem WellFormed.isEncrypted_eq_false
    (hplain : ∀ header ∈ entry.headers, header.name ≠ Block.encryptionHeader) :
    entry.block.trimmed.isEncrypted = false := by
  rw [Block.isEncrypted_eq_false_iff, h.headers_trimmed]
  intro header hheader
  obtain ⟨written, hwritten, rfl⟩ := List.mem_map.mp hheader
  exact hplain written hwritten

/-- The lenient base64 decoding of the lines of an entry with headers fails as that of its first
header up to the colon. -/
theorem WellFormed.decode_bodyLines {first : Header} {more : List Header}
    (hheaders : entry.headers = first :: more) (ending : LineEnding) :
    ∃ fault, Base64.Lenient.decode (Utf8.encode (first.name ++ ":")) = .error fault ∧
      Base64.Lenient.decode (joinLines ending entry.block.bodyLines) = .error fault := by
  have hfirst : first.WellFormed := h.headers first (by rw [hheaders]; exact List.mem_cons_self)
  obtain ⟨rest, hline⟩ := hfirst.exists_encode_trim_line
  have hbody : ∃ lines, entry.block.bodyLines = Utf8.encode (Blank.trim first.line) :: lines := by
    simp only [Block.bodyLines, Block.writtenHeaders, block, hheaders, List.map_cons,
      List.isEmpty_cons, Bool.false_eq_true, if_false, List.cons_append]
    exact ⟨_, rfl⟩
  obtain ⟨lines, hbody⟩ := hbody
  have hcolon : 0x3A ∈ Utf8.encode (first.name ++ ":") := by
    have htext : Utf8.encode ":" = [0x3A] := by decide
    rw [Utf8.encode_append, htext]
    exact List.mem_append_right _ List.mem_cons_self
  obtain ⟨fault, hfault⟩ := Base64.Lenient.exists_decode_append_eq_error (b := 0x3A) (by decide)
    (by decide) (by decide) hcolon
  refine ⟨fault, ?_, ?_⟩
  · have hname := hfault []
    rwa [List.append_nil] at hname
  · rw [hbody, joinLines_cons, hline, List.append_assoc, List.append_assoc]
    exact hfault _

end Pem.Entry

namespace KeyFile

open Pem

section Headers

variable {entry : Entry} (hentry : entry.WellFormed) {kind : KeyKind} (htag : entry.tag = kind.tag)

include hentry htag

/-- A private key entry behind bytes without a begin marker is the selected one. -/
theorem selected_entry {before after : Bytes} (hbefore : ¬ beginMarker <:+: before)
    {files : FileSystem} {path : String}
    (hfile : files.read (Utf8.encode path) = .ok (before ++ entry.text ++ after)) :
    Selected files path entry.block.trimmed := by
  refine ⟨_, hfile, ?_⟩
  have hstep := step?_written hentry.writable entry.ending hbefore (entry.ending.bytes ++ after)
  have hkey : entry.block.trimmed.isPrivateKey = true := by
    rw [Block.isPrivateKey]
    change Block.isPrivateKeyTag entry.tag = true
    rw [htag]
    cases kind <;> decide
  rw [← List.append_assoc, List.append_assoc before, ← Block.encode_eq, Block.encode_trimmed] at hstep
  rw [Entry.text, blocks_of_step?_eq_some hstep]
  exact List.find?_cons_of_pos hkey

/-- `privateKeyOf` returns the contents of an entry without headers, and otherwise fails with the
base64 fault of the first header up to its colon. -/
theorem privateKeyOf_entry :
    (entry.headers = [] → privateKeyOf entry.block.trimmed = .ok ⟨kind, entry.contents⟩) ∧
    ∀ first more, entry.headers = first :: more →
      ∃ fault, Base64.Lenient.decode (Utf8.encode (first.name ++ ":")) = .error fault ∧
        privateKeyOf entry.block.trimmed = .error (.unreadable (.badText fault)) := by
  constructor
  · intro hbare
    have hblock : entry.block.trimmed = ⟨kind.tag, [], entry.contents⟩ := by
      simp only [Block.trimmed, Entry.block, hbare, htag, List.map_nil]
    rw [privateKeyOf_eq_ok_iff, hblock]
    exact Section.firstPrivateKey_written .crlf kind entry.contents
  · intro first more hheaders
    obtain ⟨fault, hname, hbody⟩ := hentry.decode_bodyLines hheaders .crlf
    have hknown : Section.knownLabels.contains (Utf8.encode entry.tag) = true := by
      rw [htag]
      cases kind <;> decide
    have htext : entry.block.trimmed.encode .crlf =
        framed .crlf (Utf8.encode entry.tag) entry.block.bodyLines ++ LineEnding.crlf.bytes ++ [] := by
      rw [Block.encode_trimmed, Block.encode_eq, List.append_nil]
      rfl
    have hread := Section.read_framed .crlf hentry.unbroken hentry.bodyLines [] hentry.undashed
    rw [← htext, if_pos hknown, hbody] at hread
    have hrefused : Section.firstPrivateKey (entry.block.trimmed.encode .crlf) =
        .error (.badText fault) := by
      unfold Section.firstPrivateKey
      rw [hread]
      rfl
    refine ⟨fault, hname, ?_⟩
    unfold privateKeyOf
    rw [hrefused]

/-- `loadPrivateKey` of a file whose first private key is unencrypted asks nothing. It returns the
contents of the block if this has no headers; otherwise it fails with the base64 fault of the first
header up to its colon. -/
theorem loadPrivateKey_headers
    (hplain : ∀ header ∈ entry.headers, header.name ≠ Block.encryptionHeader) {before after : Bytes}
    (hbefore : ¬ beginMarker <:+: before) {files : FileSystem} {path : String}
    (hfile : files.read (Utf8.encode path) = .ok (before ++ entry.text ++ after))
    (reader : SecretReader) :
    (loadPrivateKey files reader path).questions = [] ∧
    (entry.headers = [] →
      (loadPrivateKey files reader path).outcome = .ok ⟨kind, entry.contents⟩) ∧
    ∀ first more, entry.headers = first :: more →
      ∃ fault, Base64.Lenient.decode (Utf8.encode (first.name ++ ":")) = .error fault ∧
        (loadPrivateKey files reader path).outcome =
          .error (.keyPair (.unreadable (.badText fault))) := by
  have hselected := selected_entry hentry htag hbefore hfile
  have hopen := hentry.isEncrypted_eq_false hplain
  have hunlock : (unlock reader entry.block.trimmed).outcome = .ok entry.block.trimmed :=
    outcome_unlock_eq_ok_iff.mpr (.inl ⟨hopen, rfl⟩)
  have houtcome : (loadPrivateKey files reader path).outcome =
      (privateKeyOf entry.block.trimmed).mapError .keyPair := by
    rw [outcome_loadPrivateKey_of_selected hselected]
    cases hkey : (privateKeyOf entry.block.trimmed).mapError Error.keyPair with
    | error error =>
      exact Run.outcome_bind_eq_error_iff.mpr (.inr ⟨_, hunlock, hkey⟩)
    | ok key => exact Run.outcome_bind_eq_ok_iff.mpr ⟨_, hunlock, hkey⟩
  obtain ⟨hbare, hrefused⟩ := privateKeyOf_entry hentry htag
  refine ⟨asksIf_loadPrivateKey.silent ?_, fun hheaders => ?_, fun first more hheaders => ?_⟩
  · rintro ⟨other, hother, hlocked⟩
    rw [hother.unique hselected, hopen] at hlocked
    cases hlocked
  · rw [houtcome, hbare hheaders]
    rfl
  · obtain ⟨fault, hname, hfault⟩ := hrefused first more hheaders
    refine ⟨fault, hname, ?_⟩
    rw [houtcome, hfault]
    rfl

end Headers

namespace Sample

/-- A key without encryption, with or without a header that says nothing of it. -/
def noted (headers : List Header) : Entry :=
  ⟨"EC PRIVATE KEY", headers, [0x44, 0x45, 0x46], .lf⟩

def note : Header := ⟨"Note", "backup"⟩

theorem tag_noted (headers : List Header) : (noted headers).tag = KeyKind.sec1.tag := rfl

theorem wellFormed_noted : (noted [note]).WellFormed := by decide

theorem note_ne_encryptionHeader :
    ∀ header ∈ (noted [note]).headers, header.name ≠ Block.encryptionHeader := by
  decide

/-- A file with one entry. -/
def entryFile (entry : Entry) : FileSystem :=
  .ofReadings [(Utf8.encode "client.key", .ok entry.text)]

theorem read_entryFile (entry : Entry) :
    (entryFile entry).read (Utf8.encode "client.key") = .ok ([] ++ entry.text ++ []) := by
  simp only [entryFile, FileSystem.ofReadings, List.lookup_cons_self, Option.getD_some,
    List.nil_append, List.append_nil]

end Sample

/-- The sample key is returned without its header and refused with it, and no question is asked. -/
theorem loadPrivateKey_headers_samples :
    (loadPrivateKey (Sample.entryFile (Sample.noted [])) Sample.noReader "client.key").outcome =
        .ok ⟨.sec1, [0x44, 0x45, 0x46]⟩ ∧
      (loadPrivateKey (Sample.entryFile (Sample.noted [Sample.note])) Sample.noReader
        "client.key").questions = [] := by
  have hbare : (Sample.noted []).WellFormed := by decide
  have hnone : ¬ beginMarker <:+: [] := by decide
  constructor
  · exact (loadPrivateKey_headers hbare (Sample.tag_noted _) (List.forall_mem_nil _) hnone
      (Sample.read_entryFile _) Sample.noReader).2.1 rfl
  · exact (loadPrivateKey_headers Sample.wellFormed_noted (Sample.tag_noted _)
      Sample.note_ne_encryptionHeader hnone (Sample.read_entryFile _) Sample.noReader).1

/-- The sample key with one header that is a note is refused. -/
theorem loadPrivateKey_not_noted :
    (Sample.noted [Sample.note]).WellFormed ∧
      (∀ header ∈ (Sample.noted [Sample.note]).headers, header.name ≠ Block.encryptionHeader) ∧
      (loadPrivateKey (Sample.entryFile (Sample.noted [Sample.note])) Sample.noReader
        "client.key").outcome = .error (.keyPair (.unreadable (.badText (.invalidCharacter 0x3A)))) := by
  refine ⟨Sample.wellFormed_noted, Sample.note_ne_encryptionHeader, ?_⟩
  have hselected := selected_entry Sample.wellFormed_noted (Sample.tag_noted _) (by decide)
    (Sample.read_entryFile (Sample.noted [Sample.note]))
  have hopen := Sample.wellFormed_noted.isEncrypted_eq_false Sample.note_ne_encryptionHeader
  obtain ⟨fault, hname, hfault⟩ :=
    (privateKeyOf_entry Sample.wellFormed_noted (Sample.tag_noted _)).2 Sample.note [] rfl
  have hcolon : Base64.Lenient.decode (Utf8.encode (Sample.note.name ++ ":")) =
      .error (.invalidCharacter 0x3A) := by decide
  obtain rfl : fault = .invalidCharacter 0x3A := Except.error.inj (hname.symm.trans hcolon)
  rw [outcome_loadPrivateKey_of_selected hselected, Run.outcome_bind_eq_error_iff]
  exact .inr ⟨_, outcome_unlock_eq_ok_iff.mpr (.inl ⟨hopen, rfl⟩), by rw [hfault]; rfl⟩

end KeyFile

end ClientIdentity
