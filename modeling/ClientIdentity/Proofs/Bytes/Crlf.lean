import ClientIdentity.Proofs.Bytes.Occurrence

namespace ClientIdentity.Bytes

/-- The input with a carriage return in front of every line feed. -/
def toCrlf (input : Bytes) : Bytes :=
  input.flatMap fun b => if b = 0x0A then [0x0D, 0x0A] else [b]

theorem toCrlf_append (first second : Bytes) :
    toCrlf (first ++ second) = toCrlf first ++ toCrlf second :=
  List.flatMap_append

theorem toCrlf_cons_lf (rest : Bytes) : toCrlf (0x0A :: rest) = 0x0D :: 0x0A :: toCrlf rest := rfl

theorem toCrlf_cons_of_ne {b : UInt8} (hb : b ≠ 0x0A) (rest : Bytes) :
    toCrlf (b :: rest) = b :: toCrlf rest := by
  simp [toCrlf, hb]

theorem toCrlf_of_not_mem {input : Bytes} (h : 0x0A ∉ input) : toCrlf input = input := by
  induction input with
  | nil => rfl
  | cons b input ih =>
    rw [List.mem_cons, not_or] at h
    rw [toCrlf_cons_of_ne (Ne.symm h.1), ih h.2]

/-- `toCrlf` leaves no two line feeds in a row. -/
theorem not_lf_lf_infix_toCrlf (input : Bytes) :
    ¬ [0x0A, 0x0A] <:+: toCrlf input ∧ ¬ [0x0A] <+: toCrlf input := by
  induction input with
  | nil => decide
  | cons b input ih =>
    by_cases hlf : b = 0x0A
    · subst hlf
      simp [toCrlf_cons_lf, List.infix_cons_iff, List.cons_prefix_cons, ih]
    · simp [toCrlf_cons_of_ne hlf, List.infix_cons_iff, List.cons_prefix_cons, ih, Ne.symm hlf]

section Parts

variable (input : Bytes) (i : Nat)

theorem toCrlf_take_append_drop :
    toCrlf input = toCrlf (input.take i) ++ toCrlf (input.drop i) := by
  rw [← toCrlf_append, List.take_append_drop]

theorem take_toCrlf :
    (toCrlf input).take (toCrlf (input.take i)).length = toCrlf (input.take i) := by
  rw [toCrlf_take_append_drop input i, List.take_left]

theorem drop_toCrlf :
    (toCrlf input).drop (toCrlf (input.take i)).length = toCrlf (input.drop i) := by
  rw [toCrlf_take_append_drop input i, List.drop_left]

end Parts

section Free

variable {marker input other : Bytes} (hinput : 0x0D ∉ input)

include hinput

/-- `toCrlf input` without its carriage returns is `input`. -/
theorem filter_toCrlf : (toCrlf input).filter (· != 0x0D) = input := by
  induction input with
  | nil => rfl
  | cons b input ih =>
    rw [List.mem_cons, not_or] at hinput
    by_cases hb : b = 0x0A
    · rw [hb, toCrlf_cons_lf, List.filter_cons_of_neg (by decide), List.filter_cons_of_pos (by decide),
        ih hinput.2]
    · rw [toCrlf_cons_of_ne hb, List.filter_cons_of_pos (by simpa using Ne.symm hinput.1),
        ih hinput.2]

theorem toCrlf_inj (hother : 0x0D ∉ other) : toCrlf input = toCrlf other ↔ input = other := by
  constructor
  · intro h
    rw [← filter_toCrlf hinput, h, filter_toCrlf hother]
  · rintro rfl
    rfl

/-- What stands around `toCrlf marker` in `toCrlf input` stands, without its carriage returns,
around `marker` in `input`. -/
theorem eq_of_append_toCrlf (hmarker : 0x0D ∉ marker) {before after : Bytes}
    (h : before ++ toCrlf marker ++ after = toCrlf input) :
    before.filter (· != 0x0D) ++ marker ++ after.filter (· != 0x0D) = input := by
  rw [← filter_toCrlf hinput, ← h, List.filter_append, List.filter_append, filter_toCrlf hmarker]

theorem toCrlf_infix_iff (hmarker : 0x0D ∉ marker) :
    toCrlf marker <:+: toCrlf input ↔ marker <:+: input := by
  constructor
  · rintro ⟨before, after, h⟩
    exact ⟨_, _, eq_of_append_toCrlf hinput hmarker h⟩
  · rintro ⟨before, after, rfl⟩
    rw [toCrlf_append, toCrlf_append]
    exact ⟨_, _, rfl⟩

theorem toCrlf_prefix_iff (hmarker : 0x0D ∉ marker) :
    toCrlf marker <+: toCrlf input ↔ marker <+: input := by
  constructor
  · rintro ⟨rest, h⟩
    rw [← List.nil_append (toCrlf marker)] at h
    exact ⟨_, eq_of_append_toCrlf hinput hmarker h⟩
  · rintro ⟨rest, rfl⟩
    rw [toCrlf_append]
    exact List.prefix_append _ _

theorem toCrlf_suffix_iff (hmarker : 0x0D ∉ marker) :
    toCrlf marker <:+ toCrlf input ↔ marker <:+ input := by
  constructor
  · rintro ⟨before, h⟩
    rw [← List.append_nil (before ++ toCrlf marker)] at h
    have hinput := eq_of_append_toCrlf hinput hmarker h
    rw [List.filter_nil, List.append_nil] at hinput
    exact ⟨_, hinput⟩
  · rintro ⟨before, rfl⟩
    rw [toCrlf_append]
    exact List.suffix_append _ _

/-- A marker that does not begin with a line feed stands first where it stood first. Behind every
byte the search is at the same place of either input, and no marker begins between a carriage return
and its line feed. -/
theorem FirstAt.toCrlf {c : UInt8} {i : Nat} (hmarker : 0x0D ∉ c :: marker) (hc : c ≠ 0x0A)
    (h : FirstAt (c :: marker) input i) :
    FirstAt (toCrlf (c :: marker)) (toCrlf input) (toCrlf (input.take i)).length := by
  induction i generalizing input with
  | zero =>
    rw [firstAt_zero_iff] at h
    exact firstAt_zero_iff.mpr ((toCrlf_prefix_iff hinput hmarker).mpr h)
  | succ i ih =>
    cases input with
    | nil => exact absurd (h.lt_length (List.cons_ne_nil _ _)) (by simp)
    | cons b input =>
      obtain ⟨hnot, hlater⟩ := firstAt_succ_iff.mp h
      rw [← toCrlf_prefix_iff hinput hmarker] at hnot
      rw [List.mem_cons, not_or] at hinput
      have hrest := ih hinput.2 hlater
      rw [List.take_succ_cons]
      by_cases hb : b = 0x0A
      · subst hb
        rw [toCrlf_cons_lf] at hnot ⊢
        refine firstAt_succ_iff.mpr ⟨hnot, firstAt_succ_iff.mpr ⟨fun hbetween => ?_, hrest⟩⟩
        rw [toCrlf_cons_of_ne hc, List.cons_prefix_cons] at hbetween
        exact hc hbetween.1
      · rw [toCrlf_cons_of_ne hb] at hnot ⊢
        rw [toCrlf_cons_of_ne hb]
        exact firstAt_succ_iff.mpr ⟨hnot, hrest⟩

theorem indexOf?_toCrlf {c : UInt8} (hmarker : 0x0D ∉ c :: marker) (hc : c ≠ 0x0A) :
    indexOf? (toCrlf (c :: marker)) (toCrlf input) =
      (indexOf? (c :: marker) input).map fun i => (toCrlf (input.take i)).length := by
  cases hi : indexOf? (c :: marker) input with
  | some i =>
    exact indexOf?_eq_some_iff.mpr ((indexOf?_eq_some_iff.mp hi).toCrlf hinput hmarker hc)
  | none =>
    rw [Option.map_none, indexOf?_eq_none_iff]
    intro j hj
    have hinfix := hj.isInfix.trans (List.drop_suffix j _).isInfix
    obtain ⟨before, after, rfl⟩ := (toCrlf_infix_iff hinput hmarker).mp hinfix
    refine indexOf?_eq_none_iff.mp hi before.length ?_
    rw [List.append_assoc, List.drop_left]
    exact List.prefix_append _ _

theorem splitAt?_toCrlf {c : UInt8} (hmarker : 0x0D ∉ c :: marker) (hc : c ≠ 0x0A) :
    splitAt? (toCrlf (c :: marker)) (toCrlf input) =
      (splitAt? (c :: marker) input).map (Prod.map toCrlf toCrlf) := by
  rw [splitAt?, indexOf?_toCrlf hinput hmarker hc, splitAt?, Option.map_map, Option.map_map]
  congr 1
  funext i
  simp only [Function.comp_apply, take_toCrlf, drop_toCrlf, Prod.map_apply]

end Free

end ClientIdentity.Bytes
