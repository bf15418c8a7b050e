import ClientIdentity.Proofs.KeyFile.Alike
import ClientIdentity.Proofs.Pem.Crlf
import ClientIdentity.Proofs.Pem.Section.Crlf

namespace ClientIdentity

/-- The error without what its text tells of the line breaks in a file. It is of the same case. -/
def Error.withoutSpelling : Error → Error
  | .readCertificate path (.malformed _) => .readCertificate path (.malformed (.missingEnd []))
  | .keyPair (.unsupportedTag _) => .keyPair (.unsupportedTag "")
  | .keyPair (.unreadable _) => .keyPair (.unsupportedTag "")
  | error => error

namespace KeyFile

open Pem Bytes

/-- A reading of a file, and the same reading or `toCrlf` of its contents, which have no carriage
returns. -/
inductive Respelled : Except SystemFault Bytes → Except SystemFault Bytes → Prop where
  | same (reading : Except SystemFault Bytes) : Respelled reading reading
  | spread {contents : Bytes} (hcontents : 0x0D ∉ contents) :
      Respelled (.ok contents) (.ok (toCrlf contents))

variable {reader : SecretReader} {files files' : FileSystem}

section Certificates

variable {certificate : String}

/-- `loadCertificates` returns the same certificates from a respelled file, or the same variant of
an error. -/
theorem loadCertificates_toCrlf
    (h : Respelled (files.read (Utf8.encode certificate)) (files'.read (Utf8.encode certificate))) :
    (loadCertificates files certificate).Alike Error.withoutSpelling
      (loadCertificates files' certificate) := by
  generalize hread : files.read (Utf8.encode certificate) = reading at h
  generalize hread' : files'.read (Utf8.encode certificate) = reading' at h
  cases h with
  | same =>
    rw [loadCertificates_eq_of_read (hread.trans hread'.symm)]
    exact .refl _
  | @spread contents hcontents =>
    have hsame := Section.certificates_toCrlf hcontents
    simp only [loadCertificates, readCertificates, hread, hread']
    cases hplain : Section.certificates contents with
    | error fault =>
      rw [hplain] at hsame
      cases hspread : Section.certificates (toCrlf contents) with
      | error fault => exact ⟨rfl, rfl⟩
      | ok chain =>
        rw [hspread] at hsame
        cases hsame
    | ok chain =>
      rw [hplain] at hsame
      rw [Run.mapError_eq_ok_iff.mp hsame]
      exact .refl _

end Certificates

section Keys

variable {block other : Block}

theorem asksIf_keyOf :
    (keyOf reader (some block)).AsksIf question (block.isEncrypted = true) :=
  asksIf_unlock.before fun _ => rfl

/-- Whether unlocking a block is refused does not depend on line breaks in its tag. -/
theorem refused_toCrlf_iff {error : Error} :
    Refused reader block.toCrlf error ↔ Refused reader block error := Iff.rfl

/-- All errors of `privateKeyOf` are of one variant. -/
theorem withoutSpelling_of_privateKeyOf {fault : PairFault} (h : privateKeyOf block = .error fault) :
    (Error.keyPair fault).withoutSpelling = .keyPair (.unsupportedTag "") := by
  unfold privateKeyOf at h
  split at h <;> cases h <;> rfl

/-- A block whose tag is that of no known kind, and which can be unlocked, has an error of one
variant. -/
theorem outcome_keyOf_of_tag (hblock : block.Scanned) (htag : ∀ kind : KeyKind, block.tag ≠ kind.tag)
    (hnot : ∀ error, ¬ Refused reader block error) :
    (keyOf reader (some block)).outcome.mapError Error.withoutSpelling =
      .error (.keyPair (.unsupportedTag "")) := by
  cases hunlock : (unlock reader block).outcome with
  | error error => exact absurd (outcome_unlock_eq_error_iff.mp hunlock) (hnot error)
  | ok plain =>
    obtain ⟨hplain, hsame⟩ := scanned_of_unlock hblock hunlock
    obtain ⟨fault, hfault⟩ := exists_fault_of_tag hplain (hsame ▸ htag)
    have houtcome : (keyOf reader (some block)).outcome = .error (.keyPair fault) :=
      Run.outcome_bind_eq_error_iff.mpr
        (.inr ⟨plain, hunlock, Run.mapError_eq_error_iff.mpr ⟨fault, hfault, rfl⟩⟩)
    rw [houtcome, Except.mapError, withoutSpelling_of_privateKeyOf hfault]

/-- No kind of private key has a tag with a line feed. -/
theorem tag_ne_of_mem {tag : String} (h : '\n' ∈ tag.toList) (kind : KeyKind) : tag ≠ kind.tag := by
  rintro rfl
  cases kind <;> exact absurd h (by decide)

/-- `keyOf` is alike for a block and the block with carriage returns in its tag: without line feeds
in the tag they are equal, and with one the tag is that of no known kind. -/
theorem keyOf_toCrlf (hblock : block.Scanned) (hspread : block.toCrlf.Scanned) :
    (keyOf reader (some block)).Alike Error.withoutSpelling
      (keyOf reader (some block.toCrlf)) := by
  by_cases hlf : '\n' ∈ block.tag.toList
  · have hlfSpread : '\n' ∈ block.toCrlf.tag.toList := Split.mem_toCrlf hlf
    refine ⟨?_, asksIf_keyOf.questions_eq asksIf_keyOf⟩
    by_cases hrefused : ∃ error, Refused reader block error
    · obtain ⟨error, hrefused⟩ := hrefused
      have houtcome (block : Block) (h : Refused reader block error) :
          (keyOf reader (some block)).outcome = .error error :=
        Run.outcome_bind_eq_error_iff.mpr (.inl (outcome_unlock_eq_error_iff.mpr h))
      rw [houtcome block hrefused, houtcome block.toCrlf (refused_toCrlf_iff.mpr hrefused)]
    · rw [not_exists] at hrefused
      rw [outcome_keyOf_of_tag hblock (tag_ne_of_mem hlf) hrefused,
        outcome_keyOf_of_tag hspread (tag_ne_of_mem hlfSpread)
          fun error h => hrefused error (refused_toCrlf_iff.mp h)]
  · have hsame : block.toCrlf = block := by
      rw [Block.toCrlf, Split.toCrlf_of_not_mem hlf]
    rw [hsame]
    exact .refl _

/-- `loadPrivateKey` returns the same key from a respelled file, or the same variant of an error,
with the same questions. -/
theorem loadPrivateKey_toCrlf {key : String}
    (h : Respelled (files.read (Utf8.encode key)) (files'.read (Utf8.encode key))) :
    (loadPrivateKey files reader key).Alike Error.withoutSpelling
      (loadPrivateKey files' reader key) := by
  generalize hread : files.read (Utf8.encode key) = reading at h
  generalize hread' : files'.read (Utf8.encode key) = reading' at h
  cases h with
  | same =>
    simp only [loadPrivateKey, hread, hread']
    exact .refl _
  | @spread contents hcontents =>
    simp only [loadPrivateKey, hread, hread']
    refine (privateKeyIn_alike contents).trans (.trans ?_ (privateKeyIn_alike (toCrlf contents)).symm)
    have hspread := find?_isPrivateKey_toCrlf hcontents
    cases hfind : (blocks contents).find? Block.isPrivateKey with
    | none =>
      rw [hspread, hfind, Option.map_none]
      exact .refl _
    | some block =>
      rw [hfind, Option.map_some] at hspread
      rw [hspread]
      exact keyOf_toCrlf (scanned_of_mem_blocks (List.mem_of_find?_eq_some hfind))
        (scanned_of_mem_blocks (List.mem_of_find?_eq_some hspread))

end Keys

namespace Sample

/-- The files of the sample pair with its key encrypted. -/
def written (ending : LineEnding) : FileSystem :=
  .ofReadings
    [(Utf8.encode "client.crt", .ok (encodeAll ending (KeyPair.Sample.pair.chain.map
      certificateBlock))),
    (Utf8.encode "client.key", .ok (encodeAll ending [keyBlock KeyPair.Sample.pair.key
      protection]))]

theorem read_written (ending : LineEnding) :
    (written ending).read (Utf8.encode "client.crt") =
        .ok (encodeAll ending (KeyPair.Sample.pair.chain.map certificateBlock)) ∧
      (written ending).read (Utf8.encode "client.key") =
        .ok (encodeAll ending [keyBlock KeyPair.Sample.pair.key protection]) := by
  have hpaths : (Utf8.encode "client.key" == Utf8.encode "client.crt") = false := by decide
  simp only [written, FileSystem.ofReadings, List.lookup_cons, hpaths, BEq.rfl, Option.getD_some,
    and_self]

/-- Writable blocks with either line ending are respelled files. -/
theorem respelled_encodeAll {blocks : List Block} (hblocks : ∀ block ∈ blocks, block.Writable)
    (htags : ∀ block ∈ blocks, Unbroken (Utf8.encode block.tag)) :
    Respelled (.ok (encodeAll .lf blocks)) (.ok (encodeAll .crlf blocks)) := by
  have hlines : ∀ line ∈ blocks.flatMap Block.writtenLines, Unbroken line := by
    intro line hline
    obtain ⟨block, hblock, hmem⟩ := List.mem_flatMap.mp hline
    exact (hblocks block hblock).unbroken_writtenLines (htags block hblock) line hmem
  rw [encodeAll_eq_joinLines, encodeAll_eq_joinLines,
    ← toCrlf_joinLines fun line hline => (hlines line hline).1]
  exact .spread (not_mem_joinLines_lf hlines)

end Sample

section LineEndings

variable {certificate key : String}

/-- `loadKeyPair` does not depend on whether the lines of either file end in a line feed or in a
carriage return and a line feed: it returns the same pair, or the same variant of an error, with the
same questions. The contents are arbitrary but for carriage returns. -/
theorem loadKeyPair_toCrlf (reader : SecretReader)
    (hcertificate : Respelled (files.read (Utf8.encode certificate))
      (files'.read (Utf8.encode certificate)))
    (hkey : Respelled (files.read (Utf8.encode key)) (files'.read (Utf8.encode key))) :
    (loadKeyPair files reader certificate key).Alike Error.withoutSpelling
      (loadKeyPair files' reader certificate key) :=
  loadKeyPair_alike (loadCertificates_toCrlf hcertificate) (loadPrivateKey_toCrlf hkey)

/-- The sample pair is loaded from files with either line ending. -/
theorem loadKeyPair_toCrlf_sample :
    (loadKeyPair (Sample.written .crlf) Sample.reader "client.crt" "client.key").outcome =
        .ok KeyPair.Sample.pair ∧
      (loadKeyPair (Sample.written .crlf) Sample.reader "client.crt" "client.key").questions =
        [question] := by
  obtain ⟨hchain, hkey⟩ := Sample.read_written .lf
  obtain ⟨hchain', hkey'⟩ := Sample.read_written .crlf
  have hcertificates : Respelled ((Sample.written .lf).read (Utf8.encode "client.crt"))
      ((Sample.written .crlf).read (Utf8.encode "client.crt")) := by
    rw [hchain, hchain']
    refine Sample.respelled_encodeAll ?_ ?_ <;>
      rw [KeyPair.Sample.pair, List.map_singleton, List.forall_mem_singleton]
    · exact (plain_certificateBlock _).writable (by decide)
    · exact (plain_certificateBlock _).unbroken
  have hkeys : Respelled ((Sample.written .lf).read (Utf8.encode "client.key"))
      ((Sample.written .crlf).read (Utf8.encode "client.key")) := by
    rw [hkey, hkey']
    refine Sample.respelled_encodeAll ?_ ?_ <;> rw [List.forall_mem_singleton]
    · exact writable_keyBlock _ _
    · exact (Section.undashed_keyTag _).2
  have hanswer : Sample.protection.AnsweredBy Sample.reader := rfl
  have hlf := yields_loadKeyPair_written (List.cons_ne_nil _ _) KeyPair.Sample.make_pair hanswer hchain
    hkey
  have halike := loadKeyPair_toCrlf Sample.reader hcertificates hkeys
  have houtcome := halike.outcome
  rw [hlf.outcome] at houtcome
  exact ⟨Run.mapError_eq_ok_iff.mp houtcome.symm, halike.questions ▸ hlf.questions⟩

end LineEndings

end KeyFile

end ClientIdentity
