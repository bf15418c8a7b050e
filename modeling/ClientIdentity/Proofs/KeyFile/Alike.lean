import ClientIdentity.Proofs.KeyFile
import ClientIdentity.Proofs.KeyFile.Questions

namespace ClientIdentity.KeyFile

open Pem

/-- The private key of a block that has been found. -/
def keyOf (reader : SecretReader) : Option Block → Run PrivateKey
  | none => Run.fail .noPrivateKey
  | some block => unlock reader block >>= fun plain =>
      Run.ofExcept ((privateKeyOf plain).mapError .keyPair)

variable {γ : Type} {f : Error → γ} {reader : SecretReader}

/-- The outcome and the questions of `privateKeyIn` depend only on the first private key block. -/
theorem privateKeyIn_alike (contents : Bytes) :
    (privateKeyIn reader contents).Alike f
      (keyOf reader ((blocks contents).find? Block.isPrivateKey)) := by
  rw [← find?_found]
  refine (yields_logSkipped _).alike_bind.trans ?_
  cases (find? Block.isPrivateKey contents).found with
  | none => exact .refl _
  | some block => exact .refl _

variable {files files' : FileSystem} {certificate certificate' key key' : String}

/-- `loadKeyPair` has alike outcomes if loading the certificates and loading the key have. -/
theorem loadKeyPair_alike
    (hcertificate : (loadCertificates files certificate).Alike f (loadCertificates files' certificate'))
    (hkey : (loadPrivateKey files reader key).Alike f (loadPrivateKey files' reader key')) :
    (loadKeyPair files reader certificate key).Alike f
      (loadKeyPair files' reader certificate' key') := by
  refine hcertificate.bind fun chain => hkey.bind fun privateKey => ?_
  refine (Run.Alike.refl _).bind fun pair => ?_
  exact (Run.alike_log _ _ _ _ _ _).bind fun _ => .refl _

/-- `loadKeyPair` returns a pair if its certificates and its key are loaded and belong together. -/
theorem yields_loadKeyPair {pair : KeyPair} {asked : List String}
    (hchain : (loadCertificates files certificate).Yields pair.chain [])
    (hkey : (loadPrivateKey files reader key).Yields pair.key asked)
    (hmake : KeyPair.make pair.chain pair.key = .ok pair) :
    (loadKeyPair files reader certificate key).Yields pair asked := by
  have hpaired : (Run.ofExcept ((KeyPair.make pair.chain pair.key).mapError .keyPair)).Yields pair
      [] := by
    rw [hmake]
    exact Run.yields_ofExcept rfl
  refine hchain.bind_silent ?_
  rw [← List.append_nil asked]
  refine hkey.bind (hpaired.bind_silent ?_)
  exact (Run.yields_log _ _ _).bind_silent (Run.yields_pure _)

/-- `loadKeyPair` returns the pair that was written to its files, with either line ending in each
file. -/
theorem yields_loadKeyPair_written {pair : KeyPair} {protection : Protection}
    {certificateEnding keyEnding : LineEnding} (hchain : pair.chain ≠ [])
    (hmake : KeyPair.make pair.chain pair.key = .ok pair) (hreader : protection.AnsweredBy reader)
    (hcertificate : files.read (Utf8.encode certificate) =
      .ok (encodeAll certificateEnding (pair.chain.map certificateBlock)))
    (hkey : files.read (Utf8.encode key) = .ok (encodeAll keyEnding [keyBlock pair.key protection])) :
    (loadKeyPair files reader certificate key).Yields pair protection.questions := by
  refine yields_loadKeyPair (loadCertificates_written hchain hcertificate) ?_ hmake
  simp only [loadPrivateKey, hkey]
  exact privateKeyIn_written hreader (List.forall_mem_nil _) keyEnding pair.key

end ClientIdentity.KeyFile
