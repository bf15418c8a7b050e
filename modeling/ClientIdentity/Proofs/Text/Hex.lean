import ClientIdentity.Text.Hex
import Mathlib.Tactic.Common

namespace ClientIdentity.Hex

/-- `value?` accepts only the digits, a to f and A to F. -/
theorem digit_of_value? {c : Char} (h : (value? c).isSome) :
    (48 ≤ c.toNat ∧ c.toNat ≤ 57) ∨ (97 ≤ c.toNat ∧ c.toNat ≤ 102) ∨
      (65 ≤ c.toNat ∧ c.toNat ≤ 70) := by
  unfold value? at h
  split_ifs at h with hdecimal hlower hupper
  · exact .inl hdecimal
  · exact .inr (.inl hlower)
  · exact .inr (.inr hupper)
  · simp at h

theorem digits_of_decodeChars {chars : List Char} {bytes : List UInt8}
    (h : decodeChars chars = some bytes) : ∀ c ∈ chars, (value? c).isSome := by
  fun_induction decodeChars chars generalizing bytes with
  | case1 => simp
  | case2 c => simp at h
  | case3 high low rest ih =>
    simp only [Option.bind_eq_bind, Option.bind_eq_some_iff] at h
    obtain ⟨first, hfirst, second, hsecond, later, hlater, -⟩ := h
    simp only [List.forall_mem_cons, hfirst, hsecond, Option.isSome_some, true_and]
    exact ih hlater

/-- A text that `decode?` accepts is made of digits. -/
theorem digits_of_decode? {text : String} {bytes : List UInt8} (h : decode? text = some bytes) :
    ∀ c ∈ text.toList, (value? c).isSome :=
  digits_of_decodeChars h

/-- `decodeChars` accepts exactly the even numbers of digits. -/
theorem isSome_decodeChars_iff {chars : List Char} : (decodeChars chars).isSome ↔
    chars.length % 2 = 0 ∧ ∀ c ∈ chars, (value? c).isSome := by
  fun_induction decodeChars chars with
  | case1 => simp
  | case2 c => simp
  | case3 high low rest ih =>
    have heven : (rest.length + 1 + 1) % 2 = rest.length % 2 := by omega
    simp only [List.length_cons, heven, List.forall_mem_cons]
    cases value? high <;> cases value? low <;> cases hrest : decodeChars rest <;> simp_all

/-- A text of digits, an even number of them. -/
def IsDigits (text : String) : Prop :=
  text.toList.length % 2 = 0 ∧ ∀ c ∈ text.toList, (value? c).isSome

theorem decode?_eq_none_iff {text : String} : decode? text = none ↔ ¬ IsDigits text := by
  rw [IsDigits, ← isSome_decodeChars_iff, decode?, Bool.not_eq_true, Option.isSome_eq_false_iff,
    Option.isNone_iff_eq_none]

theorem value?_digit {value : Nat} (h : value < 16) : value? (digit value) = some value := by
  have hall : ∀ value < 16, value? (digit value) = some value := by decide
  exact hall value h

/-- `decode?` of `encode` returns the bytes. -/
theorem decode?_encode (bytes : Bytes) : decode? (encode bytes) = some bytes := by
  rw [decode?, encode, String.toList_ofList]
  induction bytes with
  | nil => rfl
  | cons b bytes ih =>
    have hhigh : b.toNat / 16 < 16 := by
      have hb := b.toNat_lt
      omega
    have hlow : b.toNat % 16 < 16 := Nat.mod_lt _ (by decide)
    have hbyte : (b.toNat / 16 * 16 + b.toNat % 16).toUInt8 = b := by
      rw [Nat.div_add_mod']
      exact UInt8.ofNat_toNat
    rw [List.flatMap_cons, List.cons_append, List.cons_append, List.nil_append, decodeChars,
      value?_digit hhigh, value?_digit hlow, ih]
    simp only [Option.bind_eq_bind, Option.bind_some, Option.pure_def, hbyte]

end ClientIdentity.Hex
