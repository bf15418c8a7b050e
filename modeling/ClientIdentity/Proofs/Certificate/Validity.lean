import ClientIdentity.Certificate.Validity
import ClientIdentity.Proofs.Der.Element
import ClientIdentity.Proofs.Text.Utf8

namespace ClientIdentity

/-- `paddedDecimal` writes a number below 10 ^ `digits` with at most `digits` digits, unless its
width is larger. -/
theorem length_paddedDecimal_le {width digits n : Nat} (hwidth : width ≤ digits)
    (hdigits : 0 < digits) (h : n < 10 ^ digits) : (paddedDecimal width n).length ≤ digits := by
  have hshort := (Nat.length_toDigits_le_iff (by decide) hdigits).mpr h
  rw [paddedDecimal, String.length_ofList, List.length_append, List.length_replicate]
  omega

/-- The year of `ofDays` is bounded by the number of days, the month and the day by constants. -/
theorem CalendarDay.ofDays_le (days : Nat) :
    (ofDays days).year ≤ days + 719468 + 1001 ∧ (ofDays days).month ≤ 10000 ∧
      (ofDays days).day ≤ 150000 := by
  unfold ofDays
  dsimp only
  generalize days + 719468 = shifted
  have hcycles : shifted / 146097 * 400 ≤ shifted := by omega
  generalize shifted / 146097 * 400 = cycleYears at hcycles ⊢
  have hdayOfCycle : shifted % 146097 < 146097 := Nat.mod_lt _ (by decide)
  generalize shifted % 146097 = dayOfCycle at hdayOfCycle ⊢
  have hyearOfCycle : (dayOfCycle - dayOfCycle / 1460 + dayOfCycle / 36524 -
      dayOfCycle / 146096) / 365 ≤ 1000 := by omega
  generalize (dayOfCycle - dayOfCycle / 1460 + dayOfCycle / 36524 - dayOfCycle / 146096) / 365 =
    yearOfCycle at hyearOfCycle ⊢
  have hdayOfYear : dayOfCycle - (365 * yearOfCycle + yearOfCycle / 4 - yearOfCycle / 100) <
      146097 := Nat.lt_of_le_of_lt (Nat.sub_le _ _) hdayOfCycle
  generalize dayOfCycle - (365 * yearOfCycle + yearOfCycle / 4 - yearOfCycle / 100) = dayOfYear
    at hdayOfYear ⊢
  have hmonth : (5 * dayOfYear + 2) / 153 ≤ 5000 := by omega
  generalize (5 * dayOfYear + 2) / 153 = shiftedMonth at hmonth ⊢
  refine ⟨?_, ?_, ?_⟩
  · split_ifs <;> omega
  · split_ifs <;> omega
  · omega

theorem length_join_le {bound : Nat} {texts : List String} (h : ∀ text ∈ texts, text.length ≤ bound) :
    (String.join texts).length ≤ bound * texts.length := by
  induction texts with
  | nil => simp
  | cons text rest ih =>
    simp only [List.forall_mem_cons] at h
    have hrest := ih h.2
    rw [String.join_cons, String.length_append, List.length_cons, Nat.mul_succ]
    omega

/-- A year and five other numbers, all below 10 ^ 20, are encoded with at most 600 bytes. -/
theorem length_encode_numbers_le {tag : Der.Tag} {width year : Nat} {fields : List Nat}
    (hwidth : width ≤ 20) (hyear : year < 10 ^ 20) (hcount : fields.length = 5)
    (hfields : ∀ field ∈ fields, field < 10 ^ 20) :
    (Der.encode tag (Utf8.encode (paddedDecimal width year ++
      (String.join (fields.map (paddedDecimal 2)) ++ "Z")))).length ≤ 600 := by
  have hnumber : (paddedDecimal width year).length ≤ 20 :=
    length_paddedDecimal_le hwidth (by decide) hyear
  have hothers : (String.join (fields.map (paddedDecimal 2))).length ≤
      20 * (fields.map (paddedDecimal 2)).length := by
    refine length_join_le fun text htext => ?_
    obtain ⟨field, hfield, rfl⟩ := List.mem_map.mp htext
    exact length_paddedDecimal_le (by decide) (by decide) (hfields field hfield)
  have hend : "Z".length = 1 := rfl
  rw [List.length_map, hcount] at hothers
  refine @Der.length_encode_le _ _ 596 (by decide) ?_
  refine Nat.le_trans (Utf8.length_encode_le _) ?_
  rw [String.length_append, String.length_append]
  omega

/-- A time below 2 ^ 65 is encoded with at most 600 bytes. -/
theorem length_encodeTime_le {time : Nat} (h : time < 2 ^ 65) : (encodeTime time).length ≤ 600 := by
  obtain ⟨hyear, hmonth, hday⟩ := CalendarDay.ofDays_le (time / 86400)
  have hfields : ∀ field ∈ [(CalendarDay.ofDays (time / 86400)).month,
      (CalendarDay.ofDays (time / 86400)).day] ++ timeOfDay time, field < 10 ^ 20 := by
    simp only [timeOfDay, List.cons_append, List.nil_append, List.forall_mem_cons, List.not_mem_nil,
      false_imp_iff, implies_true, and_true]
    omega
  unfold encodeTime
  dsimp only
  split_ifs
  · exact length_encode_numbers_le (by decide) (by omega) rfl hfields
  · exact length_encode_numbers_le (by decide) (by omega) rfl hfields

/-- A validity whose times are below 2 ^ 65 is encoded with at most 1300 bytes. -/
theorem Validity.length_encode_le {validity : Validity} (hfirst : validity.notBefore < 2 ^ 65)
    (hlast : validity.notAfter < 2 ^ 65) : validity.encode.length ≤ 1300 := by
  have hbefore := length_encodeTime_le hfirst
  have hafter := length_encodeTime_le hlast
  refine Nat.le_trans (@Der.length_encode_le _ _ 1200 (by decide) ?_) (by decide)
  simp only [List.flatten_cons, List.flatten_nil, List.length_append, List.length_nil]
  omega

end ClientIdentity
