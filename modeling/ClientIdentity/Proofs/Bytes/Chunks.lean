import ClientIdentity.Bytes
import Mathlib.Tactic.Common

namespace ClientIdentity.Bytes

theorem chunks_nil (size : Nat) : chunks size [] = [] := by
  rw [chunks]
  simp

theorem chunks_of_ne_nil {size : Nat} (hsize : 0 < size) {input : Bytes} (hinput : input ≠ []) :
    chunks size input = input.take size :: chunks size (input.drop size) := by
  rw [chunks, dif_pos ⟨hsize, hinput⟩]

/-- The pieces of `chunks` are the input again, one behind the other. -/
theorem flatten_chunks {size : Nat} (hsize : 0 < size) (input : Bytes) :
    (chunks size input).flatten = input := by
  fun_induction chunks size input with
  | case1 input hinput ih => rw [List.flatten_cons, ih, List.take_append_drop]
  | case2 input hinput =>
    have hnil : input = [] := by
      by_contra hne
      exact hinput ⟨hsize, hne⟩
    rw [hnil, List.flatten_nil]

theorem ne_nil_of_mem_chunks {size : Nat} {input piece : Bytes} (h : piece ∈ chunks size input) :
    piece ≠ [] := by
  fun_induction chunks size input with
  | case1 input hinput ih =>
    rcases List.mem_cons.mp h with rfl | hlater
    · rw [ne_eq, List.take_eq_nil_iff, not_or]
      exact ⟨by omega, hinput.2⟩
    · exact ih hlater
  | case2 input hinput => cases h

/-- If `size` divides the length of the input, every piece of `chunks` has `size` bytes. -/
theorem length_of_mem_chunks {size : Nat} {input piece : Bytes} (hinput : input.length % size = 0)
    (h : piece ∈ chunks size input) : piece.length = size := by
  fun_induction chunks size input with
  | case1 input hne ih =>
    have hle : size ≤ input.length := by
      apply Nat.le_of_dvd (List.length_pos_iff.mpr hne.2)
      exact Nat.dvd_of_mod_eq_zero hinput
    rcases List.mem_cons.mp h with rfl | hlater
    · rw [List.length_take, Nat.min_eq_left hle]
    · refine ih ?_ hlater
      rw [List.length_drop, ← Nat.mod_eq_sub_mod hle, hinput]
  | case2 input hne => cases h

/-- `chunks` takes apart what was put together from pieces of `size` bytes. -/
theorem chunks_flatten {size : Nat} (hsize : 0 < size) {pieces : List Bytes}
    (h : ∀ piece ∈ pieces, piece.length = size) : chunks size pieces.flatten = pieces := by
  induction pieces with
  | nil => exact chunks_nil size
  | cons piece pieces ih =>
    have hpiece := h piece List.mem_cons_self
    have hne : (piece :: pieces).flatten ≠ [] := by
      intro hnil
      have hzero := congrArg List.length hnil
      rw [List.flatten_cons, List.length_append, hpiece, List.length_nil] at hzero
      omega
    rw [chunks_of_ne_nil hsize hne, List.flatten_cons, List.take_left' hpiece,
      List.drop_left' hpiece, ih fun p hp => h p (List.mem_cons_of_mem _ hp)]

theorem length_flatten_of_length {size : Nat} {pieces : List Bytes}
    (h : ∀ piece ∈ pieces, piece.length = size) :
    pieces.flatten.length = pieces.length * size := by
  induction pieces with
  | nil => simp
  | cons piece pieces ih =>
    rw [List.flatten_cons, List.length_append, h piece List.mem_cons_self,
      ih fun p hp => h p (List.mem_cons_of_mem _ hp), List.length_cons, Nat.succ_mul, Nat.add_comm]

end ClientIdentity.Bytes
