import ClientIdentity.Text.Base64.Lenient
import ClientIdentity.Proofs.Text.Base64

namespace ClientIdentity.Base64.Lenient

open Bytes

/-- `read` ignores white space. -/
theorem read_filter (state : State) (input : Bytes) :
    state.read (input.filter fun b => !isSpace b) = state.read input := by
  induction input generalizing state with
  | nil => rfl
  | cons b input ih =>
    by_cases hspace : isSpace b = true
    · rw [List.filter_cons_of_neg (by simp [hspace]), State.read, if_pos hspace, ih]
    · rw [List.filter_cons_of_pos (by simpa using hspace)]
      simp only [State.read, if_neg hspace, ih]

theorem isSpace_of_isSymbol {b : UInt8} (h : isSymbol b = true ∨ b = pad) : isSpace b = false := by
  have hall : ∀ b : UInt8, isSymbol b = true ∨ b = pad → isSpace b = false :=
    forall_byte (by decide)
  exact hall b h

/-- A state in which the current group holds values only, the oldest first. -/
def collected (complete current : List Nat) : State :=
  ⟨complete, (current.map some).reverse⟩

theorem filterMap_some (values : List Nat) : (values.map some).filterMap id = values := by
  simp

/-- `push` of a value adds it to the current group, or to a new one if that has eight. -/
theorem push_some {complete current : List Nat} (hcurrent : current.length ≤ 8) (value : Nat) :
    ∃ later next, (collected complete current).push (some value) = .ok (collected later next) ∧
      later.reverse ++ next = complete.reverse ++ current ++ [value] ∧ next.length ≤ 8 ∧
      (later.length % 8 = complete.length % 8) := by
  by_cases hfull : current.length < 8
  · refine ⟨complete, current ++ [value], ?_, by simp, by simp; omega, rfl⟩
    simp [collected, State.push, hfull]
  · refine ⟨current.reverse ++ complete, [value], ?_, by simp, by simp, ?_⟩
    · simp [collected, State.push, hfull, ← List.map_reverse]
    · simp
      omega

/-- `read` of symbols adds their values to those read before. -/
theorem read_symbols {complete current : List Nat} (hcurrent : current.length ≤ 8)
    {symbols : Bytes} (hsymbols : ∀ b ∈ symbols, isSymbol b = true) (rest : Bytes) :
    ∃ later next, (collected complete current).read (symbols ++ rest) =
        (collected later next).read rest ∧
      later.reverse ++ next = complete.reverse ++ current ++ symbols.filterMap value? ∧
      next.length ≤ 8 ∧ later.length % 8 = complete.length % 8 := by
  induction symbols generalizing complete current with
  | nil => exact ⟨complete, current, rfl, by simp, hcurrent, rfl⟩
  | cons b symbols ih =>
    simp only [List.forall_mem_cons] at hsymbols
    obtain ⟨value, hvalue⟩ := Option.isSome_iff_exists.mp hsymbols.1
    obtain ⟨between, group, hpush, hvalues, hgroup, hmod⟩ := push_some hcurrent value
    obtain ⟨later, next, hread, hrest, hnext, hlater⟩ := ih hgroup hsymbols.2
    refine ⟨later, next, ?_, ?_, hnext, hlater.trans hmod⟩
    · rw [List.cons_append, State.read, if_neg (by simp [isSpace_of_isSymbol (.inl hsymbols.1)])]
      simp only [hvalue, hpush, hread]
    · rw [hrest, hvalues, List.filterMap_cons]
      simp only [hvalue, List.append_assoc, List.singleton_append]

/-- `read` of padding adds it to the current group, up to eight. -/
theorem read_padding {complete : List Nat} {group : List Symbol} {padding : Nat}
    (hroom : group.length + padding ≤ 8) :
    State.read ⟨complete, group⟩ (List.replicate padding pad) =
      .ok ⟨complete, List.replicate padding none ++ group⟩ := by
  induction padding generalizing group with
  | zero => rfl
  | succ padding ih =>
    have hspace : isSpace pad = false := by decide
    have hpush : State.push ⟨complete, group⟩ none = .ok ⟨complete, none :: group⟩ := by
      rw [State.push, if_pos (by simp only; omega)]
    rw [List.replicate_succ, State.read, if_neg (by simp [hspace])]
    simp only [value?_pad, if_true, hpush]
    rw [ih (by rw [List.length_cons]; omega), List.append_cons, ← List.replicate_succ']

theorem closing_values {values : List Nat} {padding : Nat} (hpadding : padding ≤ 2)
    (hlength : values.length + padding = 4) :
    closing (values.map some ++ List.replicate padding none) = .ok values := by
  have hcases : padding = 0 ∨ padding = 1 ∨ padding = 2 := by omega
  rcases hcases with rfl | rfl | rfl
  · obtain ⟨a, b, c, d, rfl⟩ := List.length_eq_four.mp hlength
    rfl
  · obtain ⟨a, b, c, rfl⟩ := List.length_eq_three.mp (Nat.succ.inj hlength)
    rfl
  · obtain ⟨a, b, rfl⟩ := List.length_eq_two.mp (Nat.succ.inj (Nat.succ.inj hlength))
    rfl

/-- `lastGroup` of values and at most two padding bytes, four or eight together, returns the
values. -/
theorem lastGroup_values {values : List Nat} {padding : Nat} (hpadding : padding ≤ 2)
    (hlength : values.length + padding ≤ 8) (hfour : (values.length + padding) % 4 = 0) :
    lastGroup (values.map some ++ List.replicate padding none) = .ok values := by
  have htotal : (values.map some ++ List.replicate padding none).length =
      values.length + padding := by simp
  have hcases : values.length + padding = 0 ∨ values.length + padding = 4 ∨
      values.length + padding = 8 := by omega
  rcases hcases with hzero | hfour | height
  · have hvalues : values = [] := List.length_eq_zero_iff.mp (by omega)
    have hnone : padding = 0 := by omega
    rw [hvalues, hnone]
    rfl
  · rw [lastGroup, if_pos (by omega), closing_values hpadding hfour]
  · have hhead : (values.map some ++ List.replicate padding none).take 4 =
        (values.take 4).map some := by
      rw [List.take_append_of_le_length (by simp; omega), List.map_take]
    have htail : (values.map some ++ List.replicate padding none).drop 4 =
        (values.drop 4).map some ++ List.replicate padding none := by
      rw [List.drop_append_of_le_length (by simp; omega), List.map_drop]
    have hnone : ((values.take 4).map some).contains none = false := by
      generalize values.take 4 = four
      simp
    have hclosing := @closing_values (values.drop 4) padding hpadding (by simp; omega)
    rw [lastGroup, if_neg (by omega), hhead, htail, hnone, if_neg (by simp), hclosing]
    simp only [filterMap_some, List.take_append_drop]

/-- `decode` of an encoding with any white space in it returns the bytes. -/
theorem decode_of_filter {input bytes : Bytes}
    (h : (input.filter fun b => !isSpace b) = encode bytes) : decode input = .ok bytes := by
  obtain ⟨symbols, padding, hencode, hpadding, hsymbols, hvalues⟩ := exists_symbols_encode bytes
  obtain ⟨complete, current, hread, hsplit, hcurrent, hcomplete⟩ :=
    @read_symbols [] [] (by simp) symbols hsymbols (List.replicate padding pad)
  have hcount : symbols.length = complete.length + current.length := by
    have hlength := congrArg List.length hsplit
    have hall : (symbols.filterMap value?).length = symbols.length := by
      rw [List.filterMap_length_eq_length]
      exact hsymbols
    simp only [List.length_append, List.length_reverse, List.length_nil, hall] at hlength
    omega
  have hfour : (symbols.length + padding) % 4 = 0 := by
    have hlength := congrArg List.length hencode
    rw [length_encode, List.length_append, List.length_replicate] at hlength
    omega
  simp only [List.length_nil, Nat.zero_mod] at hcomplete
  have hgroup : (current.length + padding) % 4 = 0 := by omega
  have hstart : State.read ⟨[], []⟩ input =
      .ok ⟨complete, List.replicate padding none ++ (current.map some).reverse⟩ := by
    rw [← read_filter, h, hencode]
    exact hread.trans (read_padding (by simp; omega))
  have hlast : lastGroup (List.replicate padding none ++ (current.map some).reverse).reverse =
      .ok current := by
    rw [List.reverse_append, List.reverse_reverse, List.reverse_replicate]
    exact lastGroup_values hpadding (by omega) hgroup
  simp only [decode, hstart, hlast]
  rw [hsplit]
  simpa using hvalues

section Strays

variable {state : State} {input : Bytes} {fault : Fault}

/-- A fault of `read` is the fault of every longer input. -/
theorem read_append_of_error (h : state.read input = .error fault) (rest : Bytes) :
    state.read (input ++ rest) = .error fault := by
  induction input generalizing state with
  | nil => cases h
  | cons b input ih =>
    rw [List.cons_append, State.read]
    rw [State.read] at h
    by_cases hspace : isSpace b = true
    · rw [if_pos hspace] at h ⊢
      exact ih h
    · rw [if_neg hspace] at h ⊢
      cases hvalue : value? b with
      | some value =>
        rw [hvalue] at h
        cases hpush : state.push (some value) with
        | error fault => simpa only [hpush] using h
        | ok next =>
          simp only [hpush] at h ⊢
          exact ih h
      | none =>
        rw [hvalue] at h
        by_cases hpad : b = pad
        · simp only [if_pos hpad] at h ⊢
          cases hpush : state.push none with
          | error fault => simpa only [hpush] using h
          | ok next =>
            simp only [hpush] at h ⊢
            exact ih h
        · simpa only [if_neg hpad] using h

theorem decode_append_of_error (h : State.read ⟨[], []⟩ input = .error fault) (rest : Bytes) :
    decode (input ++ rest) = .error fault := by
  simp only [decode, read_append_of_error h]

variable {b : UInt8} (hspace : isSpace b = false) (hvalue : value? b = none) (hpad : b ≠ pad)
  (hb : b ∈ input)

include hspace hvalue hpad hb

/-- `read` fails on an input with a byte that is no symbol, no padding and no white space. -/
theorem exists_read_eq_error : ∃ fault, state.read input = .error fault := by
  induction input generalizing state with
  | nil => cases hb
  | cons c rest ih =>
    rw [State.read]
    rcases List.mem_cons.mp hb with rfl | hlater
    · exact ⟨.invalidCharacter b, by simp [hspace, hvalue, hpad]⟩
    · split
      · exact ih hlater
      · split
        · split
          · exact ih hlater
          · exact ⟨_, rfl⟩
        · split
          · split
            · exact ih hlater
            · exact ⟨_, rfl⟩
          · exact ⟨_, rfl⟩

/-- `decode` fails on every input with such a byte, with a fault that does not depend on what
follows it. -/
theorem exists_decode_append_eq_error : ∃ fault, ∀ rest, decode (input ++ rest) = .error fault := by
  obtain ⟨fault, hfault⟩ := exists_read_eq_error hspace hvalue hpad hb
  exact ⟨fault, decode_append_of_error hfault⟩

theorem decode_ne_ok_of_mem {bytes : Bytes} : decode input ≠ .ok bytes := by
  obtain ⟨fault, hfault⟩ := exists_decode_append_eq_error hspace hvalue hpad hb
  have hwhole := hfault []
  rw [List.append_nil] at hwhole
  rw [hwhole]
  simp

end Strays

end ClientIdentity.Base64.Lenient
