import ClientIdentity.Proofs.Pem.Encryption.Defect

namespace ClientIdentity.Pem.Encryption

/-- The digests of the stream: each one but the first is of the digest before it, the password and
the salt. -/
def digestAt (password salt : Bytes) : (number : Nat) → Bytes
  | 0 => Md5.digest (password ++ salt)
  | number + 1 => Md5.digest (digestAt password salt number ++ password ++ salt)

/-- The first `count` digests of the stream, one behind the other. -/
def keyStream (password salt : Bytes) (count : Nat) : Bytes :=
  (List.range count).flatMap (digestAt password salt)

/-- The loop that makes a key. As long as the key is too short, the digest of the last digest, the
password and the salt is put behind it. -/
def extendKey (password salt : Bytes) (length : Nat) (last key : Bytes) : Bytes :=
  if key.length < length then
    let digest := Md5.digest (last ++ password ++ salt)
    extendKey password salt length digest (key ++ digest)
  else
    key.take length
termination_by length - key.length
decreasing_by
  rw [List.length_append, Md5.length_digest]
  omega

variable (password salt : Bytes)

section Stream

theorem length_digestAt (number : Nat) : (digestAt password salt number).length = 16 := by
  cases number <;> exact Md5.length_digest _

theorem keyStream_succ (count : Nat) :
    keyStream password salt (count + 1) =
      keyStream password salt count ++ digestAt password salt count := by
  simp only [keyStream, List.range_succ, List.flatMap_append, List.flatMap_singleton]

theorem length_keyStream (count : Nat) : (keyStream password salt count).length = 16 * count := by
  induction count with
  | zero => rfl
  | succ count ih =>
    rw [keyStream_succ, List.length_append, ih, length_digestAt]
    omega

theorem keyStream_prefix {count more : Nat} (h : count ≤ more) :
    keyStream password salt count <+: keyStream password salt more := by
  induction more, h using Nat.le_induction with
  | base => exact List.prefix_rfl
  | succ more _ ih =>
    rw [keyStream_succ]
    exact ih.trans (List.prefix_append _ _)

/-- The first `length` bytes of the stream are the same for every number of rounds that has as
many. -/
theorem take_keyStream {length count more : Nat} (hcount : length ≤ 16 * count)
    (hmore : length ≤ 16 * more) :
    (keyStream password salt count).take length = (keyStream password salt more).take length := by
  wlog hle : count ≤ more generalizing count more
  · exact (this hmore hcount (Nat.le_of_not_le hle)).symm
  obtain ⟨rest, hrest⟩ := keyStream_prefix password salt hle
  rw [← hrest, List.take_append_of_le_length (by rwa [length_keyStream])]

end Stream

section Loop

/-- What the loop holds after some rounds: all digests of the stream so far, and a last digest that
the next one of the stream is made of. -/
structure AfterRounds (rounds : Nat) (last key : Bytes) : Prop where
  key_eq : key = keyStream password salt rounds
  next : Md5.digest (last ++ password ++ salt) = digestAt password salt rounds

variable {password salt} {rounds : Nat} {last key : Bytes}

theorem afterRounds_zero : AfterRounds password salt 0 [] [] := ⟨rfl, rfl⟩

/-- The state after a round is that after one round more. -/
theorem AfterRounds.step (h : AfterRounds password salt rounds last key) :
    AfterRounds password salt (rounds + 1) (Md5.digest (last ++ password ++ salt))
      (key ++ Md5.digest (last ++ password ++ salt)) where
  key_eq := by rw [keyStream_succ, h.key_eq, h.next]
  next := by rw [h.next, digestAt]

/-- `extendKey` from the state after any number of rounds returns the first `length` bytes of the
stream. -/
theorem AfterRounds.extendKey_eq (h : AfterRounds password salt rounds last key) {length count : Nat}
    (hcount : length ≤ 16 * count) :
    extendKey password salt length last key = (keyStream password salt count).take length := by
  fun_induction extendKey password salt length last key generalizing rounds with
  | case1 last key hshort digest =>
    rename_i ih
    exact ih h.step
  | case2 last key hlong =>
    rw [h.key_eq, length_keyStream] at hlong
    rw [h.key_eq]
    exact take_keyStream password salt (Nat.not_lt.mp hlong) hcount

/-- `digests` from the state after any number of rounds extends the key to the stream of `count`
rounds more. -/
theorem AfterRounds.append_digests (h : AfterRounds password salt rounds last key) (count : Nat) :
    key ++ (digests password salt count last).flatten =
      keyStream password salt (rounds + count) := by
  induction count generalizing rounds last key with
  | zero =>
    rw [digests, List.flatten_nil, List.append_nil]
    exact h.key_eq
  | succ count ih =>
    rw [digests, List.flatten_cons, ← List.append_assoc, ih h.step, Nat.add_right_comm, Nat.add_assoc]

end Loop

/-- `deriveKey` is the first `length` bytes of the stream of any number of rounds that has as
many. -/
theorem deriveKey_eq_take {length count : Nat} (hcount : length ≤ 16 * count) :
    deriveKey password salt length = (keyStream password salt count).take length := by
  have hstart : AfterRounds password salt 0 [] [] := afterRounds_zero
  have hstream := hstart.append_digests ((length + 15) / 16)
  rw [List.nil_append, Nat.zero_add] at hstream
  rw [deriveKey, hstream]
  exact take_keyStream password salt (by omega) hcount

/-- Key derivation returns exactly `length` bytes, the first ones of the stream of digests, as the loop
does from an empty key. A shorter key is a prefix of a longer one, and decryption hands every cipher a
key of the size that its algorithm takes. -/
theorem deriveKey_begins_keyStream :
    (∀ length, (deriveKey password salt length).length = length ∧
      deriveKey password salt length = extendKey password salt length [] [] ∧
      ∀ count, length ≤ 16 * count →
        deriveKey password salt length = (keyStream password salt count).take length) ∧
    (∀ shorter longer, shorter ≤ longer →
      deriveKey password salt shorter <+: deriveKey password salt longer) ∧
    ∀ (parameters : Parameters) (input : Bytes), ∃ key,
      key.length = parameters.cipher.algorithm.keySize ∧
      key = deriveKey password (parameters.vector.take 8) parameters.cipher.keyLength ∧
      parameters.decrypt password input =
        decryptChained parameters.cipher.algorithm key parameters.vector input := by
  refine ⟨fun length => ⟨length_deriveKey password salt length, ?_, fun count hcount =>
    deriveKey_eq_take password salt hcount⟩, fun shorter longer hle => ?_,
    fun parameters _ => ⟨_, parameters.length_key password, rfl, rfl⟩⟩
  · have hcount : length ≤ 16 * length := by omega
    rw [afterRounds_zero.extendKey_eq hcount, deriveKey_eq_take password salt hcount]
  · have hlonger : longer ≤ 16 * longer := by omega
    rw [deriveKey_eq_take password salt (hle.trans hlonger), deriveKey_eq_take password salt hlonger]
    exact List.take_prefix_take_left hle

/-- A key that ends with the first digest. -/
example : deriveKey (Utf8.encode "password") [1, 2, 3, 4, 5, 6, 7, 8] 16 =
    [0xE7, 0xB0, 0x97, 0x1E, 0x52, 0xCA, 0x5C, 0xC8, 0xD0, 0x53, 0x9F, 0xB3, 0x41, 0x2F, 0x63,
      0x16] := by
  decide +kernel

end ClientIdentity.Pem.Encryption
