import ClientIdentity.Cipher.Des
import ClientIdentity.Proofs.Bytes.Byte
import Mathlib.Algebra.Ring.Nat
import Mathlib.Data.List.GetD

namespace ClientIdentity.Des

open Bytes

theorem reversedValue_lt (bits : List Bool) : reversedValue bits < 2 ^ bits.length := by
  induction bits with
  | nil => simp [reversedValue]
  | cons bit bits ih =>
    have hbit : bit.toNat ≤ 1 := Bool.toNat_le bit
    have hcons : reversedValue (bit :: bits) = 2 * reversedValue bits + bit.toNat := rfl
    rw [hcons, List.length_cons, Nat.pow_succ]
    omega

/-- Bit `i` of `reversedValue bits` is the bit at position `i`. -/
theorem testBit_reversedValue (bits : List Bool) (i : Nat) :
    (reversedValue bits).testBit i = bits.getD i false := by
  induction bits generalizing i with
  | nil => simp [reversedValue]
  | cons bit bits ih =>
    have hcons : reversedValue (bit :: bits) = 2 * reversedValue bits + bit.toNat := rfl
    rw [hcons]
    cases i with
    | zero => cases bit <;> simp [Nat.testBit_zero]
    | succ i =>
      have hhalf : (2 * reversedValue bits + bit.toNat) / 2 = reversedValue bits := by
        have hbit : bit.toNat ≤ 1 := Bool.toNat_le bit
        omega
      rw [Nat.testBit_succ, hhalf, ih, List.getD_cons_succ]

theorem value_eq_reversedValue (bits : List Bool) : value bits = reversedValue bits.reverse := by
  rw [value, reversedValue, List.foldr_reverse]

theorem value_lt (bits : List Bool) : value bits < 2 ^ bits.length := by
  rw [value_eq_reversedValue, ← List.length_reverse]
  exact reversedValue_lt _

theorem testBit_value (bits : List Bool) (i : Nat) :
    (value bits).testBit i = bits.reverse.getD i false := by
  rw [value_eq_reversedValue, testBit_reversedValue]

theorem Half.toBits_ofBits (bits : Bits 32) : (Half.ofBits bits).toBits = bits := by
  apply Vector.ext
  intro i hi
  have hlt : reversedValue bits.toList < 2 ^ 32 := by
    simpa using reversedValue_lt bits.toList
  simp only [Half.toBits, Half.ofBits, Vector.getElem_ofFn]
  rw [UInt32.toNat_ofNat_of_lt' hlt, testBit_reversedValue]
  simp [hi]

theorem Half.ofBits_toBits (half : Half) : Half.ofBits half.toBits = half := by
  apply UInt32.toNat_inj.mp
  apply Nat.eq_of_testBit_eq
  intro i
  have hlt : reversedValue half.toBits.toList < 2 ^ 32 := by
    simpa using reversedValue_lt half.toBits.toList
  rw [Half.ofBits, UInt32.toNat_ofNat_of_lt' hlt, testBit_reversedValue]
  by_cases hi : i < 32
  · simp [Half.toBits, hi]
  · have hfalse : half.toNat.testBit i = false := by
      apply Nat.testBit_lt_two_pow
      have hhalf := half.toNat_lt
      have hpow : 2 ^ 32 ≤ 2 ^ i := Nat.pow_le_pow_right (by omega) (by omega)
      omega
    simp [Half.toBits, hi, hfalse]

theorem Halves.getElem_toBits (h : Halves) {i : Nat} (hi : i < 64) :
    h.toBits[i] = if hleft : i < 32 then h.left.toBits[i] else h.right.toBits[i - 32] :=
  Vector.getElem_append hi

theorem Halves.ofBits_toBits (h : Halves) : Halves.ofBits h.toBits = h := by
  have hleft : (Vector.ofFn fun i : Fin 32 => h.toBits[i.val]) = h.left.toBits := by
    apply Vector.ext
    intro i hi
    rw [Vector.getElem_ofFn, Halves.getElem_toBits, dif_pos hi]
  have hright : (Vector.ofFn fun i : Fin 32 => h.toBits[i.val + 32]) = h.right.toBits := by
    apply Vector.ext
    intro i hi
    rw [Vector.getElem_ofFn, Halves.getElem_toBits, dif_neg (by omega)]
    simp
  rw [Halves.ofBits, hleft, hright, Half.ofBits_toBits, Half.ofBits_toBits]

theorem Halves.toBits_ofBits (bits : Bits 64) : (Halves.ofBits bits).toBits = bits := by
  apply Vector.ext
  intro i hi
  rw [Halves.getElem_toBits, Halves.ofBits]
  split
  · rw [Half.toBits_ofBits, Vector.getElem_ofFn]
  · rw [Half.toBits_ofBits, Vector.getElem_ofFn]
    have hplace : i - 32 + 32 = i := by omega
    simp only [hplace]

/-- A round between two exchanges of the halves cancels the same round, whatever the round function
is. -/
theorem Halves.round_swap_round (h : Halves) (key : RoundKey) :
    (h.round key).swap.round key = h.swap := by
  simp only [Halves.round, Halves.swap, UInt32.xor_assoc, UInt32.xor_self, UInt32.xor_zero]

/-- The rounds in the opposite order cancel the rounds. -/
theorem foldl_round_reverse (keys : List RoundKey) (h : Halves) :
    keys.reverse.foldl Halves.round (keys.foldl Halves.round h).swap = h.swap := by
  induction keys generalizing h with
  | nil => rfl
  | cons key keys ih =>
    rw [List.foldl_cons, List.reverse_cons, List.foldl_append, ih, List.foldl_cons,
      List.foldl_nil, Halves.round_swap_round]

/-- Selections by two tables that are inverse to each other cancel each other. -/
theorem select_select {n : Nat} {first second : Vector (Fin n) n}
    (h : ∀ i : Fin n, first.get (second.get i) = i) (bits : Bits n) :
    select second (select first bits) = bits := by
  apply Vector.ext
  intro i hi
  have hplace : first[second[i].val] = ⟨i, hi⟩ := h ⟨i, hi⟩
  simp [select, hplace]

theorem select_final_initial (bits : Bits 64) :
    select finalTable (select initialTable bits) = bits :=
  select_select (by decide) bits

theorem select_initial_final (bits : Bits 64) :
    select initialTable (select finalTable bits) = bits :=
  select_select (by decide) bits

theorem crypt_reverse_crypt (keys : List RoundKey) (bits : Bits 64) :
    crypt keys.reverse (crypt keys bits) = bits := by
  simp only [crypt, select_initial_final, Halves.ofBits_toBits, foldl_round_reverse]
  have hswap : ∀ h : Halves, h.swap.swap = h := fun _ => rfl
  rw [hswap, Halves.toBits_ofBits, select_final_initial]

theorem crypt_crypt_reverse (keys : List RoundKey) (bits : Bits 64) :
    crypt keys (crypt keys.reverse bits) = bits := by
  have h := crypt_reverse_crypt keys.reverse bits
  rwa [List.reverse_reverse] at h

theorem length_bytesOf (bits : Bits 64) : (bytesOf bits).length = 8 := by
  simp [bytesOf]

theorem getD_bytesOf (bits : Bits 64) {i : Nat} (hi : i < 8) :
    ((bytesOf bits).getD i 0).toNat = value ((bits.toList.drop (8 * i)).take 8) := by
  have hlt : value ((bits.toList.drop (8 * i)).take 8) < 2 ^ 8 := by
    refine Nat.lt_of_lt_of_le (value_lt _) (Nat.pow_le_pow_right (by omega) ?_)
    exact List.length_take_le _ _
  have hget : (bytesOf bits).getD i 0 = (value ((bits.toList.drop (8 * i)).take 8)).toUInt8 := by
    simp [bytesOf, hi]
  rw [hget, toNat_toUInt8 hlt]

/-- Bit `k` of byte `i` of `bytesOf bits` is the bit at position 8 * i + (7 - k). -/
theorem testBit_getD_bytesOf (bits : Bits 64) {i k : Nat} (hi : i < 8) (hk : k < 8) :
    ((bytesOf bits).getD i 0).toNat.testBit k = bits[8 * i + (7 - k)] := by
  have hlength : ((bits.toList.drop (8 * i)).take 8).length = 8 := by
    simp
    omega
  have hplace : ((bits.toList.drop (8 * i)).take 8).length - 1 - k = 7 - k := by
    rw [hlength]
  rw [getD_bytesOf bits hi, testBit_value,
    List.getD_eq_getElem _ _ (by rw [List.length_reverse, hlength]; exact hk), List.getElem_reverse]
  simp only [hplace, List.getElem_take, List.getElem_drop, Vector.getElem_toList]

theorem bitsOf_bytesOf (bits : Bits 64) : bitsOf (bytesOf bits) = bits := by
  apply Vector.ext
  intro i hi
  rw [bitsOf, Vector.getElem_ofFn, testBit_getD_bytesOf bits (by omega) (by omega)]
  have hplace : 8 * (i / 8) + (7 - (7 - i % 8)) = i := by omega
  simp only [hplace]

theorem bytesOf_bitsOf {block : Bytes} (h : block.length = 8) : bytesOf (bitsOf block) = block := by
  apply List.ext_getElem
  · rw [length_bytesOf, h]
  · intro i hi hblock
    apply UInt8.toNat_inj.mp
    apply Nat.eq_of_testBit_eq
    intro k
    rw [← List.getD_eq_getElem _ 0 hi]
    by_cases hk : k < 8
    · rw [testBit_getD_bytesOf _ (by omega) hk, bitsOf, Vector.getElem_ofFn]
      have hplace : (8 * i + (7 - k)) / 8 = i := by omega
      have hbit : 7 - (8 * i + (7 - k)) % 8 = k := by omega
      simp only [hplace, hbit, List.getD_eq_getElem _ _ hblock]
    · have hfalse : ∀ b : UInt8, b.toNat.testBit k = false := by
        intro b
        apply Nat.testBit_lt_two_pow
        have hbyte := b.toNat_lt
        have hpow : 2 ^ 8 ≤ 2 ^ k := Nat.pow_le_pow_right (by omega) (by omega)
        omega
      rw [hfalse, hfalse]

theorem length_encryptBlock (keys : List RoundKey) (block : Bytes) :
    (encryptBlock keys block).length = 8 :=
  length_bytesOf _

theorem length_decryptBlock (keys : List RoundKey) (block : Bytes) :
    (decryptBlock keys block).length = 8 :=
  length_bytesOf _

theorem decryptBlock_encryptBlock (keys : List RoundKey) {block : Bytes} (h : block.length = 8) :
    decryptBlock keys (encryptBlock keys block) = block := by
  rw [decryptBlock, encryptBlock, bitsOf_bytesOf, crypt_reverse_crypt, bytesOf_bitsOf h]

theorem encryptBlock_decryptBlock (keys : List RoundKey) {block : Bytes} (h : block.length = 8) :
    encryptBlock keys (decryptBlock keys block) = block := by
  rw [decryptBlock, encryptBlock, bitsOf_bytesOf, crypt_crypt_reverse, bytesOf_bitsOf h]

/-- DES is invertible on blocks of eight bytes, under keys of every length. -/
theorem cipher_invertible (key : Bytes) : (cipher key).Invertible where
  length_encrypt _ _ := length_encryptBlock _ _
  length_decrypt _ _ := length_decryptBlock _ _
  decrypt_encrypt _ h := decryptBlock_encryptBlock _ h
  encrypt_decrypt _ h := encryptBlock_decryptBlock _ h

/-- Triple DES is invertible on blocks of eight bytes, under keys of every length. -/
theorem tripleCipher_invertible (key : Bytes) : (tripleCipher key).Invertible where
  length_encrypt _ _ := length_encryptBlock _ _
  length_decrypt _ _ := length_decryptBlock _ _
  decrypt_encrypt block h := by
    change decryptBlock _ (encryptBlock _ (decryptBlock _ (encryptBlock _ (decryptBlock _
      (encryptBlock _ block))))) = block
    rw [decryptBlock_encryptBlock _ (length_decryptBlock _ _),
      encryptBlock_decryptBlock _ (length_encryptBlock _ _), decryptBlock_encryptBlock _ h]
  encrypt_decrypt block h := by
    change encryptBlock _ (decryptBlock _ (encryptBlock _ (decryptBlock _ (encryptBlock _
      (decryptBlock _ block))))) = block
    rw [encryptBlock_decryptBlock _ (length_encryptBlock _ _),
      decryptBlock_encryptBlock _ (length_decryptBlock _ _), encryptBlock_decryptBlock _ h]

end ClientIdentity.Des
