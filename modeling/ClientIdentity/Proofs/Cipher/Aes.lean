import ClientIdentity.Cipher.Aes
import ClientIdentity.Proofs.Bytes.Byte

namespace ClientIdentity.Aes

open Bytes

section Tables

-- Evaluation goes through all the entries of a table at once.
set_option maxRecDepth 4000

/-- A table of bytes as one number, whose digits can be found without going through the table. -/
def tableNumber (table : Array UInt8) : Nat :=
  table.toList.foldr (fun b number => number * 256 + b.toNat) 0

def digit (number place : Nat) : UInt8 :=
  UInt8.ofNat (number >>> (8 * place) % 256)

theorem getD_eq_digit {table : Array UInt8}
    (htable : table.toList = (List.range 256).map (digit (tableNumber table))) (b : UInt8) :
    table.getD b.toNat 0 = digit (tableNumber table) b.toNat := by
  have hb : b.toNat < 256 := b.toNat_lt
  have hlist : table.getD b.toNat 0 = table.toList.getD b.toNat 0 := by
    simp [Array.getD_eq_getD_getElem?, List.getD_eq_getElem?_getD]
  rw [hlist, htable]
  simp [hb]

theorem substitute_eq (b : UInt8) :
    substitute b = digit (tableNumber substitutionTable) b.toNat := by
  have htable : substitutionTable.toList =
      (List.range 256).map (digit (tableNumber substitutionTable)) := by decide
  rw [substitute, getD_eq_digit htable]

theorem unsubstitute_eq (b : UInt8) :
    unsubstitute b = digit (tableNumber inverseSubstitutionTable) b.toNat := by
  have htable : inverseSubstitutionTable.toList =
      (List.range 256).map (digit (tableNumber inverseSubstitutionTable)) := by decide
  rw [unsubstitute, getD_eq_digit htable]

theorem unsubstitute_substitute (b : UInt8) : unsubstitute (substitute b) = b := by
  have hall : ∀ b : UInt8, digit (tableNumber inverseSubstitutionTable)
      (digit (tableNumber substitutionTable) b.toNat).toNat = b := forall_byte (by decide)
  rw [substitute_eq, unsubstitute_eq, hall]

theorem substitute_unsubstitute (b : UInt8) : substitute (unsubstitute b) = b := by
  have hall : ∀ b : UInt8, digit (tableNumber substitutionTable)
      (digit (tableNumber inverseSubstitutionTable) b.toNat).toNat = b :=
    forall_byte (by decide)
  rw [unsubstitute_eq, substitute_eq, hall]

end Tables

/-- `double` of a byte is a shift, combined with a constant if the top bit of the byte is set. -/
theorem double_eq (b : UInt8) :
    double b = (b <<< 1) ^^^ ((b >>> 7) <<< 4) ^^^ ((b >>> 7) <<< 3) ^^^ ((b >>> 7) <<< 1) ^^^
      (b >>> 7) := by
  have hall : ∀ b, double b = (b <<< 1) ^^^ ((b >>> 7) <<< 4) ^^^ ((b >>> 7) <<< 3) ^^^
      ((b >>> 7) <<< 1) ^^^ (b >>> 7) := forall_byte (by decide)
  exact hall b

theorem double_xor (a b : UInt8) : double (a ^^^ b) = double a ^^^ double b := by
  simp only [double_eq, UInt8.shiftLeft_xor, UInt8.shiftRight_xor]
  ac_rfl

theorem times_xor (n : Nat) (a b : UInt8) : times n (a ^^^ b) = times n a ^^^ times n b := by
  unfold times
  split <;> simp only [double_xor] <;> ac_rfl

theorem mixColumn_xor (c d : Column) :
    mixColumn (c.xor d) = (mixColumn c).xor (mixColumn d) := by
  simp only [mixColumn, Column.xor, times_xor, Column.mk.injEq]
  refine ⟨?_, ?_, ?_, ?_⟩ <;> ac_rfl

theorem unmixColumn_xor (c d : Column) :
    unmixColumn (c.xor d) = (unmixColumn c).xor (unmixColumn d) := by
  simp only [unmixColumn, Column.xor, times_xor, Column.mk.injEq]
  refine ⟨?_, ?_, ?_, ?_⟩ <;> ac_rfl

theorem mixColumn_rotate (c : Column) : mixColumn c.rotate = (mixColumn c).rotate := by
  simp only [mixColumn, Column.rotate, Column.mk.injEq]
  refine ⟨?_, ?_, ?_, ?_⟩ <;> ac_rfl

theorem unmixColumn_rotate (c : Column) : unmixColumn c.rotate = (unmixColumn c).rotate := by
  simp only [unmixColumn, Column.rotate, Column.mk.injEq]
  refine ⟨?_, ?_, ?_, ?_⟩ <;> ac_rfl

/-- A map of columns that is linear and commutes with rotation is the identity if it is the identity
on the columns with zeros behind the first byte. -/
theorem eq_self_of_linear {f : Column → Column}
    (hlinear : ∀ c d, f (c.xor d) = (f c).xor (f d)) (hrotate : ∀ c, f c.rotate = (f c).rotate)
    (hfirst : ∀ b, f ⟨b, 0, 0, 0⟩ = ⟨b, 0, 0, 0⟩) (c : Column) : f c = c := by
  have hlast : ∀ b, f ⟨0, 0, 0, b⟩ = ⟨0, 0, 0, b⟩ := by
    intro b
    have h := hrotate ⟨b, 0, 0, 0⟩
    rwa [hfirst] at h
  have hthird : ∀ b, f ⟨0, 0, b, 0⟩ = ⟨0, 0, b, 0⟩ := by
    intro b
    have h := hrotate ⟨0, 0, 0, b⟩
    rwa [hlast] at h
  have hsecond : ∀ b, f ⟨0, b, 0, 0⟩ = ⟨0, b, 0, 0⟩ := by
    intro b
    have h := hrotate ⟨0, 0, b, 0⟩
    rwa [hthird] at h
  have hsum : c = (Column.xor ⟨c.b0, 0, 0, 0⟩ ⟨0, c.b1, 0, 0⟩).xor
      (Column.xor ⟨0, 0, c.b2, 0⟩ ⟨0, 0, 0, c.b3⟩) := by
    simp [Column.xor]
  rw [hsum, hlinear, hlinear, hlinear, hfirst, hsecond, hthird, hlast]

theorem unmixColumn_mixColumn (c : Column) : unmixColumn (mixColumn c) = c := by
  have hfirst : ∀ b, unmixColumn (mixColumn ⟨b, 0, 0, 0⟩) = ⟨b, 0, 0, 0⟩ :=
    forall_byte (by decide)
  refine eq_self_of_linear (f := fun c => unmixColumn (mixColumn c)) ?_ ?_ hfirst c
  · intro c d
    rw [mixColumn_xor, unmixColumn_xor]
  · intro c
    rw [mixColumn_rotate, unmixColumn_rotate]

theorem mixColumn_unmixColumn (c : Column) : mixColumn (unmixColumn c) = c := by
  have hfirst : ∀ b, mixColumn (unmixColumn ⟨b, 0, 0, 0⟩) = ⟨b, 0, 0, 0⟩ :=
    forall_byte (by decide)
  refine eq_self_of_linear (f := fun c => mixColumn (unmixColumn c)) ?_ ?_ hfirst c
  · intro c d
    rw [unmixColumn_xor, mixColumn_xor]
  · intro c
    rw [unmixColumn_rotate, mixColumn_rotate]

theorem State.xor_xor_cancel (s t : State) : (s.xor t).xor t = s := by
  simp only [State.xor, Column.xor, UInt8.xor_assoc, UInt8.xor_self, UInt8.xor_zero]

/-- Maps of columns that cancel each other cancel each other on states. -/
theorem State.map_map_cancel {f g : Column → Column} (h : ∀ c, f (g c) = c) (s : State) :
    (s.map g).map f = s := by
  simp only [State.map, h]

theorem unscramble_scramble (s : State) : unscramble (scramble s) = s := by
  simp only [unscramble, scramble, shiftRows, unshiftRows, State.map, Column.map,
    unsubstitute_substitute]

theorem scramble_unscramble (s : State) : scramble (unscramble s) = s := by
  simp only [unscramble, scramble, shiftRows, unshiftRows, State.map, Column.map,
    substitute_unsubstitute]

theorem decryptRounds_cons {keys : List State} (hkeys : keys ≠ []) (key s : State) :
    decryptRounds (key :: keys) s =
      unscramble (((decryptRounds keys s).xor key).map unmixColumn) := by
  cases keys with
  | nil => exact absurd rfl hkeys
  | cons next keys => rw [decryptRounds.eq_def]

theorem encryptRounds_cons {keys : List State} (hkeys : keys ≠ []) (key s : State) :
    encryptRounds (key :: keys) s =
      encryptRounds keys (((scramble s).map mixColumn).xor key) := by
  cases keys with
  | nil => exact absurd rfl hkeys
  | cons next keys => rw [encryptRounds.eq_def]

theorem decryptRounds_encryptRounds (keys : List State) (s : State) :
    decryptRounds keys (encryptRounds keys s) = s := by
  induction keys generalizing s with
  | nil => rw [decryptRounds.eq_def, encryptRounds.eq_def]
  | cons key keys ih =>
    by_cases hkeys : keys = []
    · rw [hkeys, decryptRounds.eq_def, encryptRounds.eq_def]
      simp only [State.xor_xor_cancel, unscramble_scramble]
    · rw [decryptRounds_cons hkeys, encryptRounds_cons hkeys, ih, State.xor_xor_cancel,
        State.map_map_cancel unmixColumn_mixColumn, unscramble_scramble]

theorem encryptRounds_decryptRounds (keys : List State) (s : State) :
    encryptRounds keys (decryptRounds keys s) = s := by
  induction keys generalizing s with
  | nil => rw [decryptRounds.eq_def, encryptRounds.eq_def]
  | cons key keys ih =>
    by_cases hkeys : keys = []
    · rw [hkeys, decryptRounds.eq_def, encryptRounds.eq_def]
      simp only [State.xor_xor_cancel, scramble_unscramble]
    · rw [decryptRounds_cons hkeys, encryptRounds_cons hkeys, scramble_unscramble,
        State.map_map_cancel mixColumn_unmixColumn, State.xor_xor_cancel, ih]

/-- Decryption of a state cancels encryption under the same round keys. -/
theorem decryptState_encryptState (keys : List State) (s : State) :
    decryptState keys (encryptState keys s) = s := by
  cases keys with
  | nil => rfl
  | cons first keys =>
    rw [encryptState, decryptState, decryptRounds_encryptRounds, State.xor_xor_cancel]

theorem encryptState_decryptState (keys : List State) (s : State) :
    encryptState keys (decryptState keys s) = s := by
  cases keys with
  | nil => rfl
  | cons first keys =>
    rw [encryptState, decryptState, State.xor_xor_cancel, encryptRounds_decryptRounds]

theorem State.ofBytes_toBytes (s : State) : State.ofBytes s.toBytes = s := rfl

theorem State.length_toBytes (s : State) : s.toBytes.length = 16 := rfl

/-- The bytes of the state of a block of 16 bytes are the block. -/
theorem State.toBytes_ofBytes {block : Bytes} (h : block.length = 16) :
    (State.ofBytes block).toBytes = block := by
  have hrange : (State.ofBytes block).toBytes = (List.range 16).map fun i => block.getD i 0 := rfl
  rw [hrange]
  apply List.ext_getElem
  · simp [h]
  · intro i _ hi
    simp [hi]

/-- AES is invertible on blocks of 16 bytes, under keys of every length. -/
theorem cipher_invertible (key : Bytes) : (cipher key).Invertible where
  length_encrypt _ _ := State.length_toBytes _
  length_decrypt _ _ := State.length_toBytes _
  decrypt_encrypt block h := by
    change (decryptState _ (State.ofBytes (encryptState _ (State.ofBytes block)).toBytes)).toBytes = _
    rw [State.ofBytes_toBytes, decryptState_encryptState, State.toBytes_ofBytes h]
  encrypt_decrypt block h := by
    change (encryptState _ (State.ofBytes (decryptState _ (State.ofBytes block)).toBytes)).toBytes = _
    rw [State.ofBytes_toBytes, encryptState_decryptState, State.toBytes_ofBytes h]

end ClientIdentity.Aes
