import ClientIdentity.Proofs.KeyPair
import ClientIdentity.Proofs.Pem.Decryption
import ClientIdentity.Proofs.Pem.Scan
import ClientIdentity.Proofs.Pem.Section

namespace ClientIdentity.KeyFile

open Pem Bytes

/-- How a key is written: as it is, or encrypted under a password, with an initialization vector
that stands in the header in digits of either case. -/
inductive Protection where
  | plain
  | encrypted (cipher : Encryption.Cipher) (vector : Bytes) (digits : String) (password : String)
      (hdigits : Hex.decode? digits = some vector) (hvector : vector.length = cipher.blockSize)

namespace Protection

/-- The questions of loading a key: one for an encrypted key, none otherwise. -/
def questions : Protection → List String
  | .plain => []
  | .encrypted .. => [question]

/-- The reader answers the question with the password, if there is one. Nothing is said of other
questions, or of what the terminal shows. -/
def AnsweredBy (reader : SecretReader) : Protection → Prop
  | .plain => True
  | .encrypted _ _ _ password .. => (reader question).outcome = .ok password

end Protection

/-- The block of a key. Its encrypted contents are the padded key in CBC mode, from the vector, under
the key derived from the password and the first eight bytes of the vector. -/
def keyBlock (key : PrivateKey) : Protection → Block
  | .plain => ⟨key.kind.tag, [], key.der⟩
  | .encrypted cipher vector digits password .. =>
    ⟨key.kind.tag, Encryption.headerLines cipher digits,
      Cbc.encrypt
        (cipher.withKey
          (Encryption.deriveKey (Utf8.encode password) (vector.take 8) cipher.keyLength))
        vector (BlockPadding.pad cipher.blockSize key.der)⟩

/-- The block of a certificate. -/
def certificateBlock (der : Bytes) : Block :=
  ⟨"CERTIFICATE", [], der⟩

section Header

variable {cipher : Encryption.Cipher} {digits : String} {vector : Bytes}

theorem writableLine_procType : WritableLine "Proc-Type: 4,ENCRYPTED" where
  trimmed := by decide
  named := by decide
  unbroken := by decide
  unmarked := by decide

/-- The encryption header of a written key is one line. -/
theorem unbroken_dekInfo (hdigits : Hex.decode? digits = some vector) :
    Unbroken (Utf8.encode ("DEK-Info: " ++ Encryption.headerValue cipher digits)) := by
  have hname : Unbroken (Utf8.encode "DEK-Info: ") := by decide
  have hvalue : Unbroken (Utf8.encode (Encryption.headerValue cipher digits)) := by
    have hblank := @Encryption.not_blank_of_mem_headerValue cipher digits vector hdigits
    refine ⟨fun hlf => ?_, fun hcr => ?_⟩
    · have hc := hblank _ ((Utf8.mem_encode_iff (by decide)).mp hlf)
      exact absurd hc (by decide)
    · have hc := hblank _ ((Utf8.mem_encode_iff (by decide)).mp hcr)
      exact absurd hc (by decide)
  rw [Utf8.encode_append]
  exact hname.append hvalue

/-- The encryption header of a written key holds no five dashes in a row. -/
theorem not_dashes_infix_dekInfo (hdigits : Hex.decode? digits = some vector) :
    ¬ dashes <:+: Utf8.encode ("DEK-Info: " ++ Encryption.headerValue cipher digits) := by
  have hsplit : Utf8.encode ("DEK-Info: " ++ Encryption.headerValue cipher digits) =
      Utf8.encode ("DEK-Info: " ++ cipher.name) ++ 0x2C :: Utf8.encode digits := by
    have hcomma : Utf8.encode "," = [0x2C] := by decide
    simp only [Encryption.headerValue, Utf8.encode_append, hcomma, List.append_assoc,
      List.singleton_append]
  have hname : ¬ dashes <:+: Utf8.encode ("DEK-Info: " ++ cipher.name) := by
    cases cipher <;> decide
  have hvalue : ¬ dashes <:+: Utf8.encode digits := by
    intro hdashes
    have hdash : 0x2D ∈ Utf8.encode digits := hdashes.subset (by decide)
    have hdigit := Hex.digits_of_decode? hdigits _ ((Utf8.mem_encode_iff (by decide)).mp hdash)
    exact absurd hdigit (by decide)
  rw [hsplit, infix_append_cons_iff (by decide), not_or]
  exact ⟨hname, hvalue⟩

theorem writableLine_dekInfo (hdigits : Hex.decode? digits = some vector) :
    WritableLine ("DEK-Info: " ++ Encryption.headerValue cipher digits) where
  trimmed := by
    have hne : (Encryption.headerValue cipher digits).toList ≠ [] := by
      simp [Encryption.headerValue]
    apply Blank.trim_of_ends
    · intro c hc
      obtain rfl : 'D' = c := by simpa using hc
      decide
    · intro c hc
      rw [String.toList_append, List.getLast?_append_of_ne_nil _ hne] at hc
      exact Encryption.not_blank_of_mem_headerValue hdigits c (List.mem_of_mem_getLast? hc)
  named := by
    rw [Encryption.header?_headerValue hdigits]
    rfl
  unbroken := unbroken_dekInfo hdigits
  unmarked hmarker := not_dashes_infix_dekInfo hdigits (dashes_infix_endMarker.trans hmarker)

end Header

section Blocks

theorem isPrivateKey_keyBlock (key : PrivateKey) (protection : Protection) :
    (keyBlock key protection).isPrivateKey = true := by
  have htag : ∀ kind : KeyKind, Block.isPrivateKeyTag kind.tag = true := by
    intro kind
    cases kind <;> decide
  cases protection <;> exact htag key.kind

/-- The block of a key can be written and read back, encrypted or not. -/
theorem writable_keyBlock (key : PrivateKey) (protection : Protection) :
    (keyBlock key protection).Writable := by
  have hplain := (Section.plain_keyTag key.kind key.der).writable (Section.keyTag_ne key.kind)
  cases protection with
  | plain => exact hplain
  | encrypted cipher vector digits password hdigits hvector =>
    refine ⟨hplain.tag_ne, hplain.undashed, hplain.getLast_ne, ?_⟩
    simp only [keyBlock, Encryption.headerLines, List.forall_mem_cons]
    exact ⟨writableLine_procType, writableLine_dekInfo hdigits, List.forall_mem_nil _⟩

/-- The block of a certificate has no header lines and a tag on one line. -/
theorem plain_certificateBlock (der : Bytes) : (certificateBlock der).Plain := by
  have htag : 0x2D ∉ Utf8.encode "CERTIFICATE" ∧ Unbroken (Utf8.encode "CERTIFICATE") := by
    decide
  exact ⟨rfl, htag.1, htag.2⟩

end Blocks

section Loading

variable {reader : SecretReader} {protection : Protection}

/-- `unlock` of the block of a key returns the key, with one question if it was encrypted and with
none otherwise. -/
theorem unlock_keyBlock (hreader : protection.AnsweredBy reader) (key : PrivateKey) :
    (unlock reader (keyBlock key protection)).Yields ⟨key.kind.tag, [], key.der⟩
      protection.questions := by
  cases protection with
  | plain => exact Run.yields_pure _
  | encrypted cipher vector digits password hdigits hvector =>
    have hlocked : (keyBlock key (.encrypted cipher vector digits password hdigits
        hvector)).isEncrypted = true := by
      rw [Block.isEncrypted, keyBlock, Encryption.get?_headerLines hdigits, Option.isSome_some]
    have hdecrypt : Encryption.decrypt (keyBlock key (.encrypted cipher vector digits password
        hdigits hvector)) (Utf8.encode password) = .ok key.der :=
      Encryption.decrypt_encrypt hdigits hvector key.kind.tag (Utf8.encode password) key.der
    simp only [unlock, hlocked, Bool.not_true, Bool.false_eq_true, if_false]
    refine (Run.yields_log _ _ _).bind_silent ((Run.yields_ask hreader).bind ?_)
    rw [hdecrypt]
    exact Run.yields_pure _

/-- `privateKeyIn` returns the key of a written file behind blocks that are no private keys. -/
theorem privateKeyIn_written (hreader : protection.AnsweredBy reader) {before : List Block}
    (hbefore : ∀ b ∈ before, b.trimmed.Writable ∧ b.isPrivateKey = false) (ending : LineEnding)
    (key : PrivateKey) :
    (privateKeyIn reader (encodeAll ending (before ++ [keyBlock key protection]))).Yields key
      protection.questions := by
  have hgap : ¬ beginMarker <:+: [] := fun h => absurd h.length_le (by decide)
  have hfind := find?_encodeAll ending hbefore (writable_keyBlock key protection)
    (isPrivateKey_keyBlock key protection) hgap []
  rw [List.nil_append, List.append_nil] at hfind
  have hunlock := unlock_keyBlock hreader key
  have hkey : privateKeyOf ⟨key.kind.tag, [], key.der⟩ = .ok key := by
    unfold privateKeyOf
    rw [Section.firstPrivateKey_written]
  rw [privateKeyIn, hfind]
  refine Run.Yields.bind_silent (Run.yields_pure ()) ?_
  rw [← List.append_nil protection.questions]
  refine hunlock.bind (Run.yields_ofExcept ?_)
  rw [hkey]
  rfl

/-- `loadCertificates` returns the certificates of a written file, which are not none. -/
theorem loadCertificates_written {files : FileSystem} {path : String} {ending : LineEnding}
    {chain : List Bytes} (hchain : chain ≠ [])
    (hfile : files.read (Utf8.encode path) =
      .ok (encodeAll ending (chain.map certificateBlock))) :
    (loadCertificates files path).Yields chain [] := by
  have hplain : ∀ b ∈ chain.map certificateBlock, b.Plain := by
    intro b hb
    obtain ⟨der, -, rfl⟩ := List.mem_map.mp hb
    exact plain_certificateBlock der
  have hall : ((chain.map certificateBlock).filter fun b => b.tag == "CERTIFICATE").map
      Block.contents = chain := by
    rw [List.filter_eq_self.mpr]
    · rw [List.map_map]
      exact List.map_id _
    · intro b hb
      obtain ⟨der, -, rfl⟩ := List.mem_map.mp hb
      rfl
  have hread : readCertificates files (Utf8.encode path) = .ok chain := by
    simp only [readCertificates, hfile, Section.certificates_encodeAll ending hplain, hall]
    rfl
  cases chain with
  | nil => exact absurd rfl hchain
  | cons first more =>
    simp only [loadCertificates, hread]
    exact (Run.yields_log _ _ _).bind_silent (Run.yields_pure _)

/-- `loadKeyPair` returns the pair that was written to its files, for every pair that can be
obtained, either line ending in each file, and every cipher, initialization vector and password. Any
writable blocks that are no private keys may stand in front of the key. It asks for the password
once if the key was encrypted, and asks nothing otherwise. -/
theorem loadKeyPair_written {pair : KeyPair} (hpair : pair.Obtained)
    (hreader : protection.AnsweredBy reader) {before : List Block}
    (hbefore : ∀ b ∈ before, b.trimmed.Writable ∧ b.isPrivateKey = false) {files : FileSystem}
    {certificate key : String} {certificateEnding keyEnding : LineEnding}
    (hcertificate : files.read (Utf8.encode certificate) =
      .ok (encodeAll certificateEnding (pair.chain.map certificateBlock)))
    (hkey : files.read (Utf8.encode key) =
      .ok (encodeAll keyEnding (before ++ [keyBlock pair.key protection]))) :
    (loadKeyPair files reader certificate key).outcome = .ok pair ∧
      (loadKeyPair files reader certificate key).questions = protection.questions := by
  have hmake : KeyPair.make pair.chain pair.key = .ok pair :=
    KeyPair.make_eq_self_iff.mpr hpair.checked
  have hchain : pair.chain ≠ [] := by
    obtain ⟨publicKey, ⟨-, leaf, rest, certificate, hchain, -⟩, -⟩ := hpair.checked
    rw [hchain]
    exact List.cons_ne_nil _ _
  have hloaded : (loadPrivateKey files reader key).Yields pair.key protection.questions := by
    simp only [loadPrivateKey, hkey]
    exact privateKeyIn_written hreader hbefore keyEnding pair.key
  have hpaired : (Run.ofExcept ((KeyPair.make pair.chain pair.key).mapError .keyPair)).Yields pair
      [] := by
    rw [hmake]
    exact Run.yields_ofExcept rfl
  have hall : (loadKeyPair files reader certificate key).Yields pair protection.questions := by
    refine (loadCertificates_written hchain hcertificate).bind_silent ?_
    rw [← List.append_nil protection.questions]
    refine hloaded.bind (hpaired.bind_silent ?_)
    exact (Run.yields_log _ _ _).bind_silent (Run.yields_pure _)
  exact ⟨hall.outcome, hall.questions⟩

end Loading

namespace Sample

/-- The bytes from zero to fifteen. -/
def vector : Bytes := (List.range 16).map Nat.toUInt8

def protection : Protection :=
  .encrypted .aes128 vector (Hex.encode vector) "secret" (Hex.decode?_encode vector) rfl

/-- A reader that returns the same secret for every question. -/
def reader : SecretReader := fun _ => ⟨.ok "secret", ""⟩

/-- The name of a curve, which often stands in front of a key on it, under a header line with a
blank at its end. -/
def curve : Block :=
  ⟨"EC-PARAMETERS", ["Note: "], [0x06, 0x08, 0x2A, 0x86, 0x48, 0xCE, 0x3D, 0x03, 0x01, 0x07]⟩

/-- The files of the sample pair. -/
def files : FileSystem :=
  .ofReadings
    [(Utf8.encode "client.crt", .ok (encodeAll .crlf (KeyPair.Sample.pair.chain.map
      certificateBlock))),
    (Utf8.encode "client.key", .ok (encodeAll .lf ([curve] ++
      [keyBlock KeyPair.Sample.pair.key protection])))]

theorem writable_curve : curve.trimmed.Writable where
  tag_ne := by decide
  undashed := by decide
  getLast_ne := by decide
  lines line hline := by
    obtain rfl : line = "Note:" := by
      have hlines : curve.trimmed.headerLines = ["Note:"] := by decide
      rw [hlines] at hline
      exact List.mem_singleton.mp hline
    exact ⟨by decide, by decide, by decide, by decide⟩

end Sample

/-- The sample pair is loaded from an encrypted key behind another block, with one question. -/
theorem loadKeyPair_sample_files :
    (loadKeyPair Sample.files Sample.reader "client.crt" "client.key").outcome =
        .ok KeyPair.Sample.pair ∧
      (loadKeyPair Sample.files Sample.reader "client.crt" "client.key").questions =
        [question] := by
  have hreader : Sample.protection.AnsweredBy Sample.reader := rfl
  have hbefore : ∀ b ∈ [Sample.curve], b.trimmed.Writable ∧ b.isPrivateKey = false := by
    intro b hb
    obtain rfl := List.mem_singleton.mp hb
    exact ⟨Sample.writable_curve, by decide⟩
  have hpaths : (Utf8.encode "client.key" == Utf8.encode "client.crt") = false := by decide
  have hcertificate : Sample.files.read (Utf8.encode "client.crt") =
      .ok (encodeAll .crlf (KeyPair.Sample.pair.chain.map certificateBlock)) := by
    simp only [Sample.files, FileSystem.ofReadings, List.lookup_cons_self, Option.getD_some]
  have hkey : Sample.files.read (Utf8.encode "client.key") =
      .ok (encodeAll .lf ([Sample.curve] ++ [keyBlock KeyPair.Sample.pair.key
        Sample.protection])) := by
    simp only [Sample.files, FileSystem.ofReadings, List.lookup_cons, hpaths, BEq.rfl,
      Option.getD_some]
  exact loadKeyPair_written (.made KeyPair.Sample.make_pair) hreader hbefore hcertificate hkey

end ClientIdentity.KeyFile
