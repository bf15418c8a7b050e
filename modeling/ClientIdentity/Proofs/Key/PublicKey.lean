import ClientIdentity.Key.PublicKey
import ClientIdentity.Proofs.Der.Element

namespace ClientIdentity.PublicKey

open Der

variable {key other : PublicKey}

/-- The contents of an encoded public key are at least as long as its algorithm and longer than its
bits. -/
theorem length_parts_le (key : PublicKey) :
    key.algorithm.length ≤ key.subjectInfoContents.length ∧
      key.bits.length < key.subjectInfoContents.length := by
  have halgorithm := length_le_length_encode .sequence key.algorithm
  have hbits := length_le_length_encode .bitString (0 :: key.bits)
  rw [List.length_cons] at hbits
  rw [subjectInfoContents, bitString, List.length_append]
  omega

theorem parts_eq_of_contents_eq (hlength : key.subjectInfoContents.length ≤ 65535)
    (h : key.subjectInfoContents = other.subjectInfoContents) :
    key.algorithm = other.algorithm ∧ key.bits = other.bits := by
  have hkey := length_parts_le key
  have hother := length_parts_le other
  rw [← h] at hother
  obtain ⟨halgorithm, hrest⟩ := encode_append_inj (by omega) (by omega) h
  have hrest' : bitString key.bits ++ [] = bitString other.bits ++ [] := by rw [hrest]
  obtain ⟨hbits, -⟩ := encode_append_inj (by rw [List.length_cons]; omega)
    (by rw [List.length_cons]; omega) hrest'
  exact ⟨halgorithm, (List.cons.inj hbits).2⟩

theorem rsaAlgorithm_ne_curveAlgorithm (curve : NamedCurve) : rsaAlgorithm ≠ curveAlgorithm curve := by
  cases curve <;> decide

theorem curveAlgorithm_ne_ed25519Algorithm (curve : NamedCurve) :
    curveAlgorithm curve ≠ ed25519Algorithm := by
  cases curve <;> decide

theorem rsaAlgorithm_ne_ed25519Algorithm : rsaAlgorithm ≠ ed25519Algorithm := by decide

theorem curveAlgorithm_injective : Function.Injective curveAlgorithm := by
  intro curve curve' h
  cases curve <;> cases curve' <;> first | rfl | exact absurd h (by decide)

/-- Two RSA keys with equal bits have equal moduli and exponents. -/
theorem rsa_eq_of_bits_eq {modulus exponent modulus' exponent' : Nat}
    (hlength : (rsa modulus exponent).bits.length ≤ 65535)
    (h : (rsa modulus exponent).bits = (rsa modulus' exponent').bits) :
    modulus = modulus' ∧ exponent = exponent' := by
  have hpair : ∀ first second, (naturalContents first).length ≤ (rsa first second).bits.length ∧
      (naturalContents second).length ≤ (rsa first second).bits.length ∧
      (natural first ++ natural second).length ≤ (rsa first second).bits.length := by
    intro first second
    have hboth := length_le_length_encode .sequence (natural first ++ natural second)
    have hfirst := length_le_length_encode .integer (naturalContents first)
    have hsecond := length_le_length_encode .integer (naturalContents second)
    simp only [bits, Der.sequence, Der.natural, List.flatten_cons, List.flatten_nil, List.append_nil,
      List.length_append] at hboth ⊢
    omega
  obtain ⟨hfirst, hsecond, hboth⟩ := hpair modulus exponent
  obtain ⟨hfirst', hsecond', hboth'⟩ := hpair modulus' exponent'
  rw [← h] at hfirst' hsecond' hboth'
  have hbits : Der.encode .sequence (natural modulus ++ natural exponent) ++ [] =
      Der.encode .sequence (natural modulus' ++ natural exponent') ++ [] := by
    simpa [bits, Der.sequence] using h
  obtain ⟨hnumbers, -⟩ := encode_append_inj (by omega) (by omega) hbits
  obtain ⟨hmodulus, hrest⟩ := encode_append_inj (by omega) (by omega) hnumbers
  obtain ⟨hexponent, -⟩ := encode_append_inj (by omega) (by omega)
    (congrArg (· ++ ([] : Bytes)) hrest)
  exact ⟨by rw [← toNat_naturalContents modulus, hmodulus, toNat_naturalContents],
    by rw [← toNat_naturalContents exponent, hexponent, toNat_naturalContents]⟩

/-- Two public keys with equal encodings are equal. -/
theorem eq_of_contents_eq (hlength : key.subjectInfoContents.length ≤ 65535)
    (h : key.subjectInfoContents = other.subjectInfoContents) : key = other := by
  obtain ⟨halgorithm, hbits⟩ := parts_eq_of_contents_eq hlength h
  have hshort : key.bits.length ≤ 65535 := by
    have := length_parts_le key
    omega
  cases key with
  | rsa modulus exponent =>
    cases other with
    | rsa modulus' exponent' =>
      obtain ⟨rfl, rfl⟩ := rsa_eq_of_bits_eq hshort hbits
      rfl
    | ecdsa curve point => exact absurd halgorithm (rsaAlgorithm_ne_curveAlgorithm curve)
    | ed25519 bytes => exact absurd halgorithm rsaAlgorithm_ne_ed25519Algorithm
  | ecdsa curve point =>
    cases other with
    | rsa modulus' exponent' =>
      exact absurd halgorithm.symm (rsaAlgorithm_ne_curveAlgorithm curve)
    | ecdsa curve' point' => rw [curveAlgorithm_injective halgorithm, show point = point' from hbits]
    | ed25519 bytes => exact absurd halgorithm (curveAlgorithm_ne_ed25519Algorithm curve)
  | ed25519 bytes =>
    cases other with
    | rsa modulus' exponent' => exact absurd halgorithm.symm rsaAlgorithm_ne_ed25519Algorithm
    | ecdsa curve point => exact absurd halgorithm.symm (curveAlgorithm_ne_ed25519Algorithm curve)
    | ed25519 bytes' => rw [show bytes = bytes' from hbits]

end ClientIdentity.PublicKey
