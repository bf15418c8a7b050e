import ClientIdentity.Cipher.Cbc
import ClientIdentity.Proofs.Bytes.Chunks

namespace ClientIdentity.Cbc

open Bytes

theorem length_xor (a b : Bytes) : (xor a b).length = min a.length b.length :=
  List.length_zipWith

/-- `xor` with the same bytes twice is the identity. -/
theorem xor_xor_cancel {a b : Bytes} (h : a.length = b.length) : xor (xor a b) b = a := by
  induction a generalizing b with
  | nil => simp [Bytes.xor]
  | cons x a ih =>
    cases b with
    | nil => simp at h
    | cons y b =>
      have htail : xor (xor a b) b = a := ih (by simpa using h)
      simp only [Bytes.xor, List.zipWith_cons_cons, List.cons.injEq] at htail ⊢
      exact ⟨by rw [UInt8.xor_assoc, UInt8.xor_self, UInt8.xor_zero], htail⟩

theorem length_encryptBlocks (c : BlockCipher) (previous : Bytes) (blocks : List Bytes) :
    (encryptBlocks c previous blocks).length = blocks.length := by
  induction blocks generalizing previous with
  | nil => rfl
  | cons first blocks ih => simp only [encryptBlocks, List.length_cons, ih]

theorem length_decryptBlocks (c : BlockCipher) (previous : Bytes) (blocks : List Bytes) :
    (decryptBlocks c previous blocks).length = blocks.length := by
  induction blocks generalizing previous with
  | nil => rfl
  | cons first blocks ih => simp only [decryptBlocks, List.length_cons, ih]

variable {c : BlockCipher} (hc : c.Invertible)

include hc

theorem length_of_mem_encryptBlocks {previous block : Bytes} {blocks : List Bytes}
    (hprevious : previous.length = c.blockSize) (hblocks : ∀ b ∈ blocks, b.length = c.blockSize)
    (h : block ∈ encryptBlocks c previous blocks) : block.length = c.blockSize := by
  induction blocks generalizing previous with
  | nil => cases h
  | cons first blocks ih =>
    simp only [List.forall_mem_cons] at hblocks
    have hcombined : (xor first previous).length = c.blockSize := by
      rw [length_xor, hblocks.1, hprevious, Nat.min_self]
    have hsealed := hc.length_encrypt _ hcombined
    rcases List.mem_cons.mp h with rfl | hlater
    · exact hsealed
    · exact ih hsealed hblocks.2 hlater

theorem length_of_mem_decryptBlocks {previous block : Bytes} {blocks : List Bytes}
    (hprevious : previous.length = c.blockSize) (hblocks : ∀ b ∈ blocks, b.length = c.blockSize)
    (h : block ∈ decryptBlocks c previous blocks) : block.length = c.blockSize := by
  induction blocks generalizing previous with
  | nil => cases h
  | cons first blocks ih =>
    simp only [List.forall_mem_cons] at hblocks
    rcases List.mem_cons.mp h with rfl | hlater
    · rw [length_xor, hc.length_decrypt _ hblocks.1, hprevious, Nat.min_self]
    · exact ih hblocks.1 hblocks.2 hlater

theorem decryptBlocks_encryptBlocks {previous : Bytes} {blocks : List Bytes}
    (hprevious : previous.length = c.blockSize) (hblocks : ∀ b ∈ blocks, b.length = c.blockSize) :
    decryptBlocks c previous (encryptBlocks c previous blocks) = blocks := by
  induction blocks generalizing previous with
  | nil => rfl
  | cons first blocks ih =>
    simp only [List.forall_mem_cons] at hblocks
    have hsame : first.length = previous.length := by rw [hblocks.1, hprevious]
    have hcombined : (xor first previous).length = c.blockSize := by
      rw [length_xor, hblocks.1, hprevious, Nat.min_self]
    simp only [encryptBlocks, decryptBlocks]
    rw [hc.decrypt_encrypt _ hcombined, xor_xor_cancel hsame,
      ih (hc.length_encrypt _ hcombined) hblocks.2]

theorem encryptBlocks_decryptBlocks {previous : Bytes} {blocks : List Bytes}
    (hprevious : previous.length = c.blockSize) (hblocks : ∀ b ∈ blocks, b.length = c.blockSize) :
    encryptBlocks c previous (decryptBlocks c previous blocks) = blocks := by
  induction blocks generalizing previous with
  | nil => rfl
  | cons first blocks ih =>
    simp only [List.forall_mem_cons] at hblocks
    have hsame : (c.decrypt first).length = previous.length := by
      rw [hc.length_decrypt _ hblocks.1, hprevious]
    simp only [encryptBlocks, decryptBlocks]
    rw [xor_xor_cancel hsame, hc.encrypt_decrypt _ hblocks.1, ih hblocks.1 hblocks.2]

variable (hsize : 0 < c.blockSize) {iv input : Bytes} (hiv : iv.length = c.blockSize)
  (hinput : input.length % c.blockSize = 0)

include hsize hiv hinput

/-- `Cbc.decrypt` cancels `Cbc.encrypt`. -/
theorem decrypt_encrypt : decrypt c iv (encrypt c iv input) = input := by
  have hblocks : ∀ b ∈ chunks c.blockSize input, b.length = c.blockSize :=
    fun b => length_of_mem_chunks hinput
  have hsealed := fun b => @length_of_mem_encryptBlocks c hc iv b _ hiv hblocks
  rw [decrypt, encrypt, chunks_flatten hsize hsealed,
    decryptBlocks_encryptBlocks hc hiv hblocks, flatten_chunks hsize]

/-- `Cbc.encrypt` cancels `Cbc.decrypt`. -/
theorem encrypt_decrypt : encrypt c iv (decrypt c iv input) = input := by
  have hblocks : ∀ b ∈ chunks c.blockSize input, b.length = c.blockSize :=
    fun b => length_of_mem_chunks hinput
  have hopened := fun b => @length_of_mem_decryptBlocks c hc iv b _ hiv hblocks
  rw [encrypt, decrypt, chunks_flatten hsize hopened,
    encryptBlocks_decryptBlocks hc hiv hblocks, flatten_chunks hsize]

/-- `Cbc.encrypt` keeps the length of an input of complete blocks. -/
theorem length_encrypt : (encrypt c iv input).length = input.length := by
  have hblocks : ∀ b ∈ chunks c.blockSize input, b.length = c.blockSize :=
    fun b => length_of_mem_chunks hinput
  have hsealed := fun b => @length_of_mem_encryptBlocks c hc iv b _ hiv hblocks
  rw [encrypt, length_flatten_of_length hsealed, length_encryptBlocks,
    ← length_flatten_of_length hblocks, flatten_chunks hsize]

theorem length_decrypt : (decrypt c iv input).length = input.length := by
  have hblocks : ∀ b ∈ chunks c.blockSize input, b.length = c.blockSize :=
    fun b => length_of_mem_chunks hinput
  have hopened := fun b => @length_of_mem_decryptBlocks c hc iv b _ hiv hblocks
  rw [decrypt, length_flatten_of_length hopened, length_decryptBlocks,
    ← length_flatten_of_length hblocks, flatten_chunks hsize]

end ClientIdentity.Cbc
