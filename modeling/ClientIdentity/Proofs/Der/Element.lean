import ClientIdentity.Der.Value
import ClientIdentity.Proofs.Bytes.Byte
import Mathlib.Algebra.Ring.Nat

namespace ClientIdentity.Der

open Bytes

theorem toUInt8_ne_zero {n : Nat} (hpos : 0 < n) (h : n < 256) : n.toUInt8 ≠ 0 := by
  intro hzero
  have := congrArg UInt8.toNat hzero
  rw [toNat_toUInt8 h] at this
  simp only [UInt8.toNat_zero] at this
  omega

theorem minimal_of_lt_256 {n : Nat} (hpos : 0 < n) (h : n < 256) : minimal n = [n.toUInt8] := by
  have hlog : n.log2 / 8 = 0 := by
    have := (Nat.log2_lt (by omega)).mpr (show n < 2 ^ 8 by omega)
    omega
  simp [minimal, hlog, ofNat, toUInt8_ne_zero hpos h]

theorem minimal_of_lt_65536 {n : Nat} (hlow : 256 ≤ n) (h : n < 65536) :
    minimal n = [(n / 256).toUInt8, n.toUInt8] := by
  have hlog : n.log2 / 8 = 1 := by
    have hupper := (Nat.log2_lt (by omega)).mpr (show n < 2 ^ 16 by omega)
    have hlower := (Nat.le_log2 (by omega)).mpr (show 2 ^ 8 ≤ n by omega)
    omega
  have hne : (n / 256).toUInt8 ≠ 0 := toUInt8_ne_zero (by omega) (by omega)
  simp [minimal, hlog, ofNat, hne]

theorem encodeLength_of_lt_128 {n : Nat} (h : n < 128) : encodeLength n = [n.toUInt8] := by
  simp [encodeLength, h]

theorem encodeLength_of_lt_256 {n : Nat} (hlow : 128 ≤ n) (h : n < 256) :
    encodeLength n = [0x81, n.toUInt8] := by
  have hlong : ¬ n < 128 := by omega
  simp only [encodeLength, hlong, if_false, minimal_of_lt_256 (by omega) h]
  rfl

theorem encodeLength_of_lt_65536 {n : Nat} (hlow : 256 ≤ n) (h : n < 65536) :
    encodeLength n = [0x82, (n / 256).toUInt8, n.toUInt8] := by
  have hlong : ¬ n < 128 := by omega
  simp only [encodeLength, hlong, if_false, minimal_of_lt_65536 hlow h]
  rfl

theorem readLength?_encodeLength {n : Nat} (h : n ≤ 65535) (rest : Bytes) :
    readLength? (encodeLength n ++ rest) = some (n, rest) := by
  rcases Nat.lt_or_ge n 128 with hshort | hlong
  · have hbyte : n.toUInt8 < 0x80 := by
      rw [UInt8.lt_iff_toNat_lt, toNat_toUInt8 (by omega)]
      exact hshort
    rw [encodeLength_of_lt_128 hshort]
    simp [readLength?, hbyte, toNat_toUInt8 (show n < 256 by omega), -Nat.toUInt8_eq]
  · rcases Nat.lt_or_ge n 256 with hone | htwo
    · have hbyte : ¬ n.toUInt8 < 0x80 := by
        rw [UInt8.lt_iff_toNat_lt, toNat_toUInt8 (by omega)]
        exact Nat.not_lt.mpr hlong
      rw [encodeLength_of_lt_256 hlong hone]
      simp [readLength?, hbyte, toNat_toUInt8 hone, -Nat.toUInt8_eq]
    · rw [encodeLength_of_lt_65536 htwo (by omega)]
      simp [readLength?]
      omega

/-- `readLength?` reads only the shortest form of a length. -/
theorem eq_encodeLength_of_readLength? {input rest : Bytes} {n : Nat}
    (h : readLength? input = some (n, rest)) : input = encodeLength n ++ rest ∧ n ≤ 65535 := by
  unfold readLength? at h
  split at h
  · cases h
  · rename_i first tail
    split_ifs at h with hshort hone htwo
    · simp only [Option.some.injEq, Prod.mk.injEq] at h
      obtain ⟨rfl, rfl⟩ := h
      have hlt : first.toNat < 128 := UInt8.lt_iff_toNat_lt.mp hshort
      refine ⟨?_, by omega⟩
      rw [encodeLength_of_lt_128 hlt, toUInt8_toNat, List.singleton_append]
    · subst hone
      split at h
      · rename_i second tail
        split_ifs at h with hlow
        simp only [Option.some.injEq, Prod.mk.injEq] at h
        obtain ⟨rfl, rfl⟩ := h
        have hge : 128 ≤ second.toNat := Nat.not_lt.mp fun hlt => hlow (UInt8.lt_iff_toNat_lt.mpr hlt)
        have hlt := second.toNat_lt
        refine ⟨?_, by omega⟩
        rw [encodeLength_of_lt_256 hge hlt, toUInt8_toNat]
        rfl
      · cases h
    · subst htwo
      split at h
      · rename_i high low tail
        dsimp only at h
        split_ifs at h with hlow
        simp only [Option.some.injEq, Prod.mk.injEq] at h
        obtain ⟨rfl, rfl⟩ := h
        have hhigh := high.toNat_lt
        have hlt := low.toNat_lt
        have hquotient : (high.toNat * 256 + low.toNat) / 256 = high.toNat := by omega
        refine ⟨?_, by omega⟩
        rw [encodeLength_of_lt_65536 (by omega) (by omega), hquotient, toUInt8_toNat]
        have hremainder : (high.toNat * 256 + low.toNat).toUInt8 = low := by
          rw [← UInt8.toNat_inj]
          simp
        rw [hremainder, List.cons_append, List.cons_append, List.singleton_append]
      · cases h

/-- `read?` returns exactly the contents and the rest of an encoded element whose contents are
within the limit. -/
theorem read?_eq_some_iff {limit : Nat} (hlimit : limit ≤ 65535) {tag : Tag}
    {input contents rest : Bytes} :
    read? limit tag input = some (contents, rest) ↔
      input = encode tag contents ++ rest ∧ contents.length ≤ limit := by
  constructor
  · intro h
    unfold read? at h
    split at h
    · cases h
    · rename_i first tail
      split_ifs at h with htag
      split at h
      · cases h
      · rename_i n after hlength
        split_ifs at h with hfits
        simp only [Option.some.injEq, Prod.mk.injEq] at h
        obtain ⟨rfl, rfl⟩ := h
        have hsize : (after.take n).length = n := List.length_take_of_le hfits.2
        rw [(eq_encodeLength_of_readLength? hlength).1, encode, hsize, Decidable.not_not.mp htag]
        refine ⟨?_, hfits.1⟩
        simp
  · rintro ⟨rfl, hfits⟩
    have hlength := readLength?_encodeLength (n := contents.length) (by omega) (contents ++ rest)
    simp [read?, encode, hlength, hfits]

/-- Two encoded elements of one tag at the beginning of one input are equal. -/
theorem encode_append_inj {tag : Tag} {first second rest other : Bytes}
    (hfirst : first.length ≤ 65535) (hsecond : second.length ≤ 65535)
    (h : encode tag first ++ rest = encode tag second ++ other) : first = second ∧ rest = other := by
  have hread : read? 65535 tag (encode tag first ++ rest) = some (first, rest) :=
    (read?_eq_some_iff (Nat.le_refl _)).mpr ⟨rfl, hfirst⟩
  rw [h, (read?_eq_some_iff (Nat.le_refl _)).mpr ⟨rfl, hsecond⟩] at hread
  simp only [Option.some.injEq, Prod.mk.injEq] at hread
  exact ⟨hread.1.symm, hread.2.symm⟩

theorem length_le_length_encode (tag : Tag) (contents : Bytes) :
    contents.length ≤ (encode tag contents).length := by
  rw [encode, List.length_cons, List.length_append]
  omega

/-- The tag and the length of an element have at most four bytes. -/
theorem length_encode_le {tag : Tag} {contents : Bytes} {bound : Nat} (hbound : bound ≤ 65535)
    (h : contents.length ≤ bound) : (encode tag contents).length ≤ bound + 4 := by
  have hlength : (encodeLength contents.length).length ≤ 3 := by
    rcases Nat.lt_or_ge contents.length 128 with hshort | hlong
    · simp [encodeLength_of_lt_128 hshort]
    · rcases Nat.lt_or_ge contents.length 256 with hone | htwo
      · simp [encodeLength_of_lt_256 hlong hone]
      · simp [encodeLength_of_lt_65536 htwo (by omega)]
  rw [encode, List.length_cons, List.length_append]
  omega

/-- The contents of a number below 256 ^ `digits` have at most `digits` + 1 bytes. -/
theorem length_naturalContents_le {n digits : Nat} (hdigits : 0 < digits) (h : n < 2 ^ (8 * digits)) :
    (naturalContents n).length ≤ digits + 1 := by
  have hlog : n.log2 < 8 * digits := by
    rcases Nat.eq_zero_or_pos n with rfl | hpos
    · rw [Nat.log2_zero]
      omega
    · exact (Nat.log2_lt (by omega)).mpr h
  have hminimal : (minimal n).length ≤ digits := by
    have hdrop := (List.dropWhile_suffix (l := ofNat (n.log2 / 8 + 1) n) (· == 0)).length_le
    rw [length_ofNat] at hdrop
    unfold minimal
    omega
  unfold naturalContents
  split
  · simp
  · rename_i first rest hfirst
    rw [hfirst, List.length_cons] at hminimal
    split <;> simp only [List.length_cons] <;> omega

/-- The contents of a number are a zero byte alone, begin with another byte below 0x80, or begin with
a zero byte and one from 0x80 on. -/
theorem naturalContents_cases (n : Nat) :
    naturalContents n = [0] ∨
      (∃ first more, naturalContents n = first :: more ∧ first ≠ 0 ∧ first < 0x80) ∨
      ∃ first more, naturalContents n = 0 :: first :: more ∧ 0x80 ≤ first := by
  unfold naturalContents
  split
  · exact .inl rfl
  · rename_i first more hminimal
    have hne : first ≠ 0 := by
      have hhead := List.head?_dropWhile_not (· == 0) (ofNat (n.log2 / 8 + 1) n)
      rw [← minimal, hminimal] at hhead
      simpa using hhead
    split_ifs with hlow
    · exact .inr (.inl ⟨first, more, rfl, hne, hlow⟩)
    · exact .inr (.inr ⟨first, more, rfl, UInt8.not_lt.mp hlow⟩)

/-- `toNat` of the contents of a number is the number. -/
theorem toNat_naturalContents (n : Nat) : toNat (naturalContents n) = n := by
  have hminimal := toNat_minimal n
  unfold naturalContents
  split
  · rename_i hnil
    rw [← hminimal, hnil]
    rfl
  · rename_i first rest hfirst
    rw [hfirst] at hminimal
    split
    · exact hminimal
    · rw [toNat_zero_cons, hminimal]

end ClientIdentity.Der
