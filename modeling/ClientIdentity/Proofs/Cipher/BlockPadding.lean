import ClientIdentity.Cipher.BlockPadding
import ClientIdentity.Proofs.Bytes.Byte

namespace ClientIdentity.BlockPadding

open Bytes

variable {block : Nat}

theorem count_pos (hblock : 0 < block) (length : Nat) : 0 < count block length := by
  have := Nat.mod_lt length hblock
  unfold count
  omega

theorem count_le (block length : Nat) : count block length ≤ block := by
  unfold count
  omega

theorem length_pad (input : Bytes) :
    (pad block input).length = input.length + count block input.length := by
  rw [pad, List.length_append, List.length_replicate]

/-- The length of a padded input is a multiple of the block size. -/
theorem length_pad_mod (hblock : 0 < block) (input : Bytes) :
    (pad block input).length % block = 0 := by
  rw [length_pad, count]
  have hlt := Nat.mod_lt input.length hblock
  have hsplit := Nat.div_add_mod input.length block
  have hsum : input.length + (block - input.length % block) =
      block * (input.length / block + 1) := by
    rw [Nat.mul_add]
    omega
  rw [hsum, Nat.mul_mod_right]

theorem pad_ne_nil (hblock : 0 < block) (input : Bytes) : pad block input ≠ [] := by
  intro hnil
  have hlength := congrArg List.length hnil
  have hpos := count_pos hblock input.length
  rw [length_pad, List.length_nil] at hlength
  omega

theorem unpad?_pad (hblock : 0 < block) (hbyte : block < 256) (input : Bytes) :
    unpad? block (pad block input) = some input := by
  have hpos := count_pos hblock input.length
  have hle := count_le block input.length
  have hlast : (pad block input).getLast? = some (count block input.length).toUInt8 := by
    rw [pad, List.getLast?_append_of_ne_nil]
    · rw [List.getLast?_replicate, if_neg (by omega)]
    · simp
      omega
  have hnat : (count block input.length).toUInt8.toNat = count block input.length :=
    toNat_toUInt8 (by omega)
  have hstart : (pad block input).length - count block input.length = input.length := by
    rw [length_pad]
    omega
  simp only [unpad?, hlast, hnat, hstart]
  rw [if_pos]
  · simp [pad]
  · refine ⟨hpos, hle, by rw [length_pad]; omega, ?_⟩
    simp [pad]

/-- An input of complete blocks from which `unpad?` takes padding is the padded form of what is
left. -/
theorem eq_pad_of_unpad? {input contents : Bytes} (hinput : input.length % block = 0)
    (h : unpad? block input = some contents) : input = pad block contents := by
  unfold unpad? at h
  split at h
  · cases h
  · rename_i last hlast
    dsimp only at h
    split_ifs at h with hcheck
    obtain ⟨hpos, hle, hfits, hdrop⟩ := hcheck
    obtain rfl := Option.some.inj h
    have hlength : (input.take (input.length - last.toNat)).length = input.length - last.toNat :=
      List.length_take_of_le (by omega)
    have hcount : count block (input.length - last.toNat) = last.toNat := by
      -- The length without the padding is congruent to minus the padding.
      obtain ⟨blocks, hblocks⟩ := Nat.dvd_of_mod_eq_zero hinput
      have hpositive : 0 < blocks := by
        rcases Nat.eq_zero_or_pos blocks with hzero | hpositive
        · rw [hzero, Nat.mul_zero] at hblocks
          omega
        · exact hpositive
      have hrest : input.length - last.toNat = (block - last.toNat) + block * (blocks - 1) := by
        rw [hblocks, Nat.mul_sub_one]
        have : block ≤ block * blocks := Nat.le_mul_of_pos_right _ hpositive
        omega
      rw [count, hrest, Nat.add_mul_mod_self_left]
      rcases Nat.eq_or_lt_of_le hle with heq | hlt
      · rw [heq]
        simp
      · rw [Nat.mod_eq_of_lt (by omega)]
        omega
    rw [pad, hlength, hcount, toUInt8_toNat, ← hdrop, List.take_append_drop]

theorem unpad?_eq_some_iff (hblock : 0 < block) (hbyte : block < 256) {input contents : Bytes}
    (hinput : input.length % block = 0) :
    unpad? block input = some contents ↔ input = pad block contents :=
  ⟨eq_pad_of_unpad? hinput, fun h => h ▸ unpad?_pad hblock hbyte contents⟩

end ClientIdentity.BlockPadding
