import ClientIdentity.Bytes
import Mathlib.Data.List.Infix

namespace ClientIdentity.Bytes

/-- The marker stands at a position of the input, and nowhere before it. -/
def FirstAt (marker input : Bytes) (i : Nat) : Prop :=
  marker <+: input.drop i ∧ ∀ j < i, ¬ marker <+: input.drop j

/-- A marker has at most one first position in an input. -/
theorem FirstAt.unique {marker input : Bytes} {i j : Nat}
    (hi : FirstAt marker input i) (hj : FirstAt marker input j) : i = j := by
  rcases Nat.lt_trichotomy i j with h | h | h
  · exact absurd hi.1 (hj.2 i h)
  · exact h
  · exact absurd hj.1 (hi.2 j h)

/-- A marker is first at the position at which a prefix of it is first, if it stands there. -/
theorem FirstAt.of_prefix {short marker input : Bytes} {i : Nat} (h : FirstAt short input i)
    (hshort : short <+: marker) (hat : marker <+: input.drop i) : FirstAt marker input i :=
  ⟨hat, fun j hj hearly => h.2 j hj (hshort.trans hearly)⟩

theorem firstAt_zero_iff {marker input : Bytes} : FirstAt marker input 0 ↔ marker <+: input := by
  simp [FirstAt]

theorem firstAt_succ_iff {marker rest : Bytes} {b : UInt8} {i : Nat} :
    FirstAt marker (b :: rest) (i + 1) ↔ ¬ marker <+: b :: rest ∧ FirstAt marker rest i := by
  constructor
  · rintro ⟨hat, hbefore⟩
    refine ⟨by simpa using hbefore 0 (by omega), by simpa using hat, fun j hj => ?_⟩
    simpa using hbefore (j + 1) (by omega)
  · rintro ⟨hhead, hat, hbefore⟩
    refine ⟨by simpa using hat, fun j hj => ?_⟩
    cases j with
    | zero => simpa using hhead
    | succ j => simpa using hbefore j (by omega)

theorem indexFrom_eq_some_iff {marker input : Bytes} {start i : Nat} :
    indexFrom marker start input = some i ↔ ∃ k, i = start + k ∧ FirstAt marker input k := by
  induction input generalizing start with
  | nil =>
    cases marker with
    | nil =>
      simp only [indexFrom, List.isEmpty_nil, if_true, Option.some.injEq]
      constructor
      · rintro rfl
        exact ⟨0, rfl, by simp [FirstAt]⟩
      · rintro ⟨k, rfl, -, hbefore⟩
        cases k with
        | zero => rfl
        | succ k => simpa using hbefore 0 (by omega)
    | cons b rest => simp [indexFrom, FirstAt]
  | cons b rest ih =>
    rw [indexFrom]
    by_cases hhead : marker <+: b :: rest
    · rw [if_pos (List.isPrefixOf_iff_prefix.mpr hhead), Option.some.injEq]
      constructor
      · rintro rfl
        exact ⟨0, rfl, firstAt_zero_iff.mpr hhead⟩
      · rintro ⟨k, rfl, hk⟩
        rw [hk.unique (firstAt_zero_iff.mpr hhead), Nat.add_zero]
    · rw [if_neg (by rwa [List.isPrefixOf_iff_prefix]), ih]
      constructor
      · rintro ⟨k, rfl, hk⟩
        exact ⟨k + 1, by omega, firstAt_succ_iff.mpr ⟨hhead, hk⟩⟩
      · rintro ⟨k, rfl, hk⟩
        cases k with
        | zero => exact absurd (firstAt_zero_iff.mp hk) hhead
        | succ k => exact ⟨k, by omega, (firstAt_succ_iff.mp hk).2⟩

/-- `indexOf?` returns exactly the first position of the marker, for every marker and every
input. -/
theorem indexOf?_eq_some_iff {marker input : Bytes} {i : Nat} :
    indexOf? marker input = some i ↔ FirstAt marker input i := by
  simp [indexOf?, indexFrom_eq_some_iff]

/-- A marker that is an infix of an input has a first position in it. -/
theorem exists_firstAt {marker input : Bytes} {i : Nat} (h : marker <+: input.drop i) :
    ∃ first ≤ i, FirstAt marker input first := by
  induction i using Nat.strongRecOn with
  | ind i ih =>
    by_cases hbefore : ∃ j < i, marker <+: input.drop j
    · obtain ⟨j, hj, hat⟩ := hbefore
      obtain ⟨first, hle, hfirst⟩ := ih j hj hat
      exact ⟨first, by omega, hfirst⟩
    · exact ⟨i, le_refl i, h, fun j hj hat => hbefore ⟨j, hj, hat⟩⟩

/-- `indexOf?` fails exactly if the marker is no infix of the input. -/
theorem indexOf?_eq_none_iff {marker input : Bytes} :
    indexOf? marker input = none ↔ ∀ i, ¬ marker <+: input.drop i := by
  rw [Option.eq_none_iff_forall_ne_some]
  constructor
  · intro h i hat
    obtain ⟨first, -, hfirst⟩ := exists_firstAt hat
    exact h first (indexOf?_eq_some_iff.mpr hfirst)
  · intro h i hi
    exact h i (indexOf?_eq_some_iff.mp hi).1

theorem splitAt?_eq_some_iff {marker input before found : Bytes} :
    splitAt? marker input = some (before, found) ↔
      ∃ i, FirstAt marker input i ∧ before = input.take i ∧ found = input.drop i := by
  simp only [splitAt?, Option.map_eq_some_iff, indexOf?_eq_some_iff, Prod.mk.injEq]
  exact exists_congr fun i => and_congr_right fun _ => and_congr eq_comm eq_comm

theorem splitAt?_eq_none_iff {marker input : Bytes} :
    splitAt? marker input = none ↔ ∀ i, ¬ marker <+: input.drop i := by
  simp only [splitAt?, Option.map_eq_none_iff, indexOf?_eq_none_iff]

theorem splitAt?_eq_none_of_not_infix {marker input : Bytes} (h : ¬ marker <:+: input) :
    splitAt? marker input = none :=
  splitAt?_eq_none_iff.mpr fun i hat => h (hat.isInfix.trans (List.drop_suffix i input).isInfix)

theorem not_infix_of_splitAt?_eq_none {marker input : Bytes} (h : splitAt? marker input = none) :
    ¬ marker <:+: input := by
  rintro ⟨before, after, rfl⟩
  refine splitAt?_eq_none_iff.mp h before.length ?_
  rw [List.append_assoc, List.drop_left]
  exact List.prefix_append _ _

theorem FirstAt.lt_length {marker input : Bytes} {i : Nat} (hmarker : marker ≠ [])
    (h : FirstAt marker input i) : i + marker.length ≤ input.length := by
  have hlength := h.1.length_le
  have hpos := List.length_pos_iff.mpr hmarker
  rw [List.length_drop] at hlength
  omega

/-- No end of the marker but the whole of it is also a beginning of it, so that two copies of the
marker never overlap. -/
def Unbordered (marker : Bytes) : Prop :=
  ∀ k < marker.length, 0 < k → ¬ marker.drop k <+: marker

instance (marker : Bytes) : Decidable (Unbordered marker) :=
  inferInstanceAs (Decidable (∀ k < marker.length, 0 < k → ¬ marker.drop k <+: marker))

/-- The positions of two copies of an unbordered marker differ by at least its length. -/
theorem Unbordered.le_of_lt {marker input : Bytes} (hmarker : Unbordered marker) {i j : Nat}
    (hi : marker <+: input.drop i) (hj : marker <+: input.drop j) (hlt : i < j) :
    i + marker.length ≤ j := by
  by_contra hnot
  refine hmarker (j - i) (by omega) (by omega) ?_
  have hdrop : marker.drop (j - i) <+: input.drop j := by
    have h := hi.drop (j - i)
    rwa [List.drop_drop, show i + (j - i) = j by omega] at h
  exact List.prefix_of_prefix_length_le hdrop hj (by rw [List.length_drop]; omega)

/-- An unbordered marker behind an input that does not hold it is first at the end of that input. -/
theorem Unbordered.firstAt_append {marker before : Bytes} (hmarker : Unbordered marker)
    (hbefore : ¬ marker <:+: before) (rest : Bytes) :
    FirstAt marker (before ++ (marker ++ rest)) before.length := by
  have hat : marker <+: (before ++ (marker ++ rest)).drop before.length := by
    rw [List.drop_left]
    exact List.prefix_append _ _
  refine ⟨hat, fun j hj hearly => ?_⟩
  have hfits := hmarker.le_of_lt hearly hat hj
  rw [List.drop_append_of_le_length (by omega)] at hearly
  have hinside : marker <+: before.drop j := by
    refine List.prefix_of_prefix_length_le hearly (List.prefix_append _ _) ?_
    rw [List.length_drop]
    omega
  exact hbefore (hinside.isInfix.trans (List.drop_suffix j before).isInfix)

/-- A prefix of `line ++ b :: more` that does not hold `b` is a prefix of `line`. -/
theorem prefix_of_prefix_append_cons {marker line more : Bytes} {b : UInt8} (hb : b ∉ marker)
    (h : marker <+: line ++ b :: more) : marker <+: line := by
  have hline := List.prefix_append line (b :: more)
  rcases List.prefix_or_prefix_of_prefix h hline with hle | ⟨tail, rfl⟩
  · exact hle
  · have htail := (List.prefix_append_right_inj line).mp h
    cases tail with
    | nil => rw [List.append_nil]
    | cons c tail =>
      obtain rfl := (List.cons_prefix_cons.mp htail).1
      exact absurd (List.mem_append_right _ List.mem_cons_self) hb

/-- A marker that does not hold a byte is an infix of an input with that byte exactly if it is an
infix of the part in front of the byte or of the part behind it. -/
theorem infix_append_cons_iff {marker line more : Bytes} {b : UInt8} (hb : b ∉ marker) :
    marker <:+: line ++ b :: more ↔ marker <:+: line ∨ marker <:+: more := by
  constructor
  · intro h
    induction line with
    | nil =>
      rw [List.nil_append, List.infix_cons_iff] at h
      rcases h with hfront | hlater
      · exact .inl (prefix_of_prefix_append_cons hb hfront).isInfix
      · exact .inr hlater
    | cons c line ih =>
      rw [List.cons_append, List.infix_cons_iff] at h
      rcases h with hfront | hlater
      · exact .inl (prefix_of_prefix_append_cons hb hfront).isInfix
      · rcases ih hlater with hline | hmore
        · exact .inl (List.infix_cons hline)
        · exact .inr hmore
  · rintro (hline | hmore)
    · exact hline.trans (List.prefix_append line _).isInfix
    · exact hmore.trans ((List.suffix_cons b more).trans (List.suffix_append line _)).isInfix

/-- A marker whose first byte is not in `line` is an infix of `line ++ more` exactly if it is an
infix of `more`. -/
theorem infix_append_iff {b : UInt8} {marker line more : Bytes} (hb : b ∉ line) :
    b :: marker <:+: line ++ more ↔ b :: marker <:+: more := by
  induction line with
  | nil => rw [List.nil_append]
  | cons c line ih =>
    rw [List.mem_cons, not_or] at hb
    rw [List.cons_append, List.infix_cons_iff, ih hb.2, or_iff_right]
    rintro ⟨tail, htail⟩
    exact hb.1 (List.cons.inj htail).1

/-- The first position of a marker behind a line that does not hold it, and a byte that it does not
hold, is the first position in what follows, moved by the length of both. -/
theorem FirstAt.append_cons {marker line more : Bytes} {b : UInt8} {i : Nat} (hb : b ∉ marker)
    (hline : ¬ marker <:+: line) (h : FirstAt marker more i) :
    FirstAt marker (line ++ b :: more) (line.length + 1 + i) := by
  induction line with
  | nil =>
    rw [List.length_nil, Nat.zero_add, Nat.add_comm]
    refine firstAt_succ_iff.mpr ⟨fun hfront => ?_, h⟩
    have hshort : marker <+: [] ++ b :: more := hfront
    exact hline (prefix_of_prefix_append_cons hb hshort).isInfix
  | cons c line ih =>
    rw [List.length_cons, Nat.add_right_comm line.length 1 1, Nat.add_right_comm _ 1 i]
    refine firstAt_succ_iff.mpr ⟨fun hfront => ?_, ih fun hinner => ?_⟩
    · have hlong : marker <+: (c :: line) ++ b :: more := hfront
      exact hline (prefix_of_prefix_append_cons hb hlong).isInfix
    · exact hline (List.infix_cons hinner)

/-- Whether a marker stands at a position at which it ends within an input does not depend on what
follows the input. -/
theorem prefix_drop_append_iff {marker first rest : Bytes} {i : Nat}
    (h : i + marker.length ≤ first.length) :
    marker <+: (first ++ rest).drop i ↔ marker <+: first.drop i := by
  rw [List.drop_append_of_le_length (by omega)]
  refine ⟨fun hat => ?_, fun hat => hat.trans (List.prefix_append _ _)⟩
  refine List.prefix_of_prefix_length_le hat (List.prefix_append _ _) ?_
  rw [List.length_drop]
  omega

/-- Whether a marker is first at a position at which it ends within an input does not depend on what
follows the input. -/
theorem FirstAt.append_iff {marker first : Bytes} {i : Nat} (rest : Bytes)
    (h : i + marker.length ≤ first.length) :
    FirstAt marker (first ++ rest) i ↔ FirstAt marker first i := by
  refine and_congr (prefix_drop_append_iff h) (forall₂_congr fun j hj => ?_)
  rw [prefix_drop_append_iff (by omega)]

/-- What stands behind a part of a prefix stands at its own place. -/
theorem prefix_drop_of_append {first second input : Bytes} {i : Nat}
    (h : first ++ second <+: input.drop i) : second <+: input.drop (i + first.length) := by
  have hsecond := h.drop first.length
  rwa [List.drop_left, List.drop_drop] at hsecond

/-- What stands inside of a piece of the input stands in the piece. -/
theorem prefix_drop_of_within {piece inner input : Bytes} {i j : Nat}
    (hpiece : piece <+: input.drop i) (hinner : inner <+: input.drop j) (hle : i ≤ j)
    (hends : j + inner.length ≤ i + piece.length) : inner <+: piece.drop (j - i) := by
  have hrest := hpiece.drop (j - i)
  rw [List.drop_drop, Nat.add_sub_cancel' hle] at hrest
  refine List.prefix_of_prefix_length_le hinner hrest ?_
  rw [List.length_drop]
  omega

/-- A piece that begins no later than a byte that it does not hold ends in front of that byte. -/
theorem end_le_of_not_mem {piece input : Bytes} {b : UInt8} {i j : Nat}
    (hpiece : piece <+: input.drop i) (hat : [b] <+: input.drop j) (hb : b ∉ piece) (hle : i ≤ j) :
    i + piece.length ≤ j := by
  by_contra hnot
  have hinside := prefix_drop_of_within hpiece hat hle (by rw [List.length_singleton]; omega)
  exact hb (List.mem_of_mem_drop (hinside.subset List.mem_cons_self))

end ClientIdentity.Bytes
