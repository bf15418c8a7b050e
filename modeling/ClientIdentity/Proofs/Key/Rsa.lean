import ClientIdentity.Proofs.Key.Envelope

namespace ClientIdentity

open Der Der.Reader

namespace RsaNumbers

/-- The numbers in the order in which a key holds them. -/
def parts (numbers : RsaNumbers) : List Nat :=
  [numbers.n, numbers.e, numbers.d, numbers.p, numbers.q, numbers.dp, numbers.dq, numbers.qInverse]

/-- The elements of an RSA key in its own format. -/
def elements (numbers : RsaNumbers) : List Bytes :=
  (0 :: numbers.parts).map Der.natural

theorem length_naturals_le {values : List Nat}
    (h : ∀ value ∈ values, (naturalContents value).length ≤ 1000) :
    (values.map Der.natural).flatten.length ≤ values.length * 1004 := by
  induction values with
  | nil => exact Nat.zero_le _
  | cons value values ih =>
    have hvalue : (Der.natural value).length ≤ 1004 :=
      length_encode_le (by decide) (h value List.mem_cons_self)
    have hrest := ih fun other hother => h other (List.mem_cons_of_mem _ hother)
    rw [List.map_cons, List.flatten_cons, List.length_append, List.length_cons]
    omega

variable {numbers : RsaNumbers}

/-- `decode?` of the elements of a key returns its numbers exactly if they can be used. -/
theorem decode?_sequence (h : ∀ part ∈ numbers.parts, (naturalContents part).length ≤ 1000) :
    decode? (Der.sequence numbers.elements) = if numbers.isUsable then some numbers else none := by
  have hall : ∀ value ∈ 0 :: numbers.parts, (naturalContents value).length ≤ 1000 :=
    List.forall_mem_cons.mpr ⟨by decide, h⟩
  have hfits : numbers.elements.flatten.length ≤ keyLimit :=
    Nat.le_trans (length_naturals_le hall) (by simp only [parts, List.length_cons]; decide)
  have hnatural : ∀ value ∈ 0 :: numbers.parts, ∀ rest,
      Reader.natural (Der.natural value ++ rest) = some (value, rest) := fun value hvalue =>
    natural_encode (Nat.le_trans (hall value hvalue) (by decide))
  have hread : all? read numbers.elements.flatten = some numbers := by
    simp only [parts, List.forall_mem_cons] at hnatural
    obtain ⟨hversion, hn, he, hd, hp, hq, hdp, hdq, hinverse, -⟩ := hnatural
    rw [all?_eq_some_iff]
    simp only [elements, parts, List.map_cons, List.map_nil, List.flatten_cons, List.flatten_nil, read,
      bind_apply, hversion, hn, he, hd, hp, hq, hdp, hdq, hinverse, require, beq_self_eq_true, if_true,
      Option.bind_some, pure_apply]
  have hwhole : all? (Reader.within .sequence read) (Der.sequence numbers.elements) =
      some numbers := by
    rw [all?_eq_some_iff, Der.sequence, ← List.append_nil (encode _ _), within_encode hfits, hread]
    rfl
  rw [decode?, hwhole]
  rfl

end RsaNumbers

namespace PrivateKey

variable {key : PrivateKey} {numbers : RsaNumbers}

end PrivateKey

end ClientIdentity
