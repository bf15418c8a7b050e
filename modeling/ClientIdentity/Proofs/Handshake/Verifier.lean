import ClientIdentity.Handshake
import ClientIdentity.Proofs.Key.PublicKey
import ClientIdentity.Proofs.KeyPair

namespace ClientIdentity

namespace Handshake

variable {library : TlsLibrary} {Genuine : Bytes → Bytes → Signed → Prop}
  {Vouches : Certificate → Presented → Prop} {config : ClientConfig} {connection : Connection}

section Names

/-- The leaf of a chain can be parsed, and `info` is the public key in it. -/
def Names (chain : List Bytes) (info : Bytes) : Prop :=
  ∃ leaf intermediates certificate, chain = leaf :: intermediates ∧
    Certificate.parse leaf = .ok certificate ∧ certificate.subjectInfo = info

/-- The public key in the leaf of a chain, if there is a leaf that can be parsed. -/
def leafKey (chain : List Bytes) : Option Bytes :=
  (KeyPair.leaf chain).toOption.map Certificate.subjectInfo

variable {chain : List Bytes} {info : Bytes}

theorem names_iff_leafKey : Names chain info ↔ leafKey chain = some info := by
  cases hleaf : KeyPair.leaf chain with
  | error fault =>
    simp only [leafKey, hleaf, Except.toOption, Option.map_none, reduceCtorEq, iff_false]
    rintro ⟨leaf, intermediates, certificate, hchain, hparse, -⟩
    exact absurd (KeyPair.leaf_eq_ok_iff.mpr ⟨leaf, intermediates, hchain, hparse⟩) (by simp [hleaf])
  | ok certificate =>
    simp only [leafKey, hleaf, Except.toOption, Option.map_some, Option.some.injEq]
    obtain ⟨leaf, intermediates, hchain, hparse⟩ := KeyPair.leaf_eq_ok_iff.mp hleaf
    constructor
    · rintro ⟨leaf', intermediates', certificate', hchain', hparse', hinfo⟩
      cases hchain.symm.trans hchain'
      cases hparse.symm.trans hparse'
      exact hinfo
    · exact fun hinfo => ⟨leaf, intermediates, certificate, hchain, hparse, hinfo⟩

/-- A leaf names exactly one key: the algorithm, the curve and the key itself. -/
theorem Names.eq_iff {named key : PublicKey} (h : Names chain named.subjectInfoContents) :
    Names chain key.subjectInfoContents ↔ key = named := by
  refine ⟨fun hkey => ?_, fun heq => heq ▸ h⟩
  have hlength : named.subjectInfoContents.length ≤ 65535 := by
    obtain ⟨leaf, intermediates, certificate, -, hparse, hinfo⟩ := h
    exact hinfo ▸ Nat.le_trans (Certificate.length_subjectInfo_le hparse) (by decide)
  have hsame := (names_iff_leafKey.mp h).symm.trans (names_iff_leafKey.mp hkey)
  exact (PublicKey.eq_of_contents_eq hlength (Option.some.inj hsame)).symm

end Names

section Verifier

variable {said : List Message} {leaf status : Bytes} {chain intermediates : List Bytes}
  {signed : Signed}

end Verifier

end Handshake

end ClientIdentity
