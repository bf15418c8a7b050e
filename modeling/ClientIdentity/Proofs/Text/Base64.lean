import ClientIdentity.Text.Base64
import ClientIdentity.Proofs.Text.Utf8

namespace ClientIdentity.Base64

open Bytes

theorem value?_symbol {n : Nat} (h : n < 64) : value? (symbol n) = some n := by
  have hall : ∀ n < 64, value? (symbol n) = some n := by decide
  exact hall n h

/-- `symbol` is the inverse of `value?` on the 64 symbols. -/
theorem symbol_of_value? {b : UInt8} {n : Nat} (h : value? b = some n) : n < 64 ∧ symbol n = b := by
  have hall : ∀ b : UInt8, ∀ n ∈ value? b, n < 64 ∧ symbol n = b :=
    forall_byte (by decide)
  exact hall b n h

theorem isSymbol_iff {b : UInt8} : isSymbol b = true ↔ ∃ n < 64, symbol n = b := by
  constructor
  · intro h
    obtain ⟨n, hn⟩ := Option.isSome_iff_exists.mp h
    exact ⟨n, symbol_of_value? hn⟩
  · rintro ⟨n, hn, rfl⟩
    simp [isSymbol, value?_symbol hn]

theorem isSymbol_symbol {n : Nat} (h : n < 64) : isSymbol (symbol n) = true :=
  isSymbol_iff.mpr ⟨n, h, rfl⟩

theorem symbol_ne_pad {n : Nat} (h : n < 64) : symbol n ≠ pad := by
  have hall : ∀ n < 64, symbol n ≠ pad := by decide
  exact hall n h

theorem isSymbol_pad : isSymbol pad = false := by decide

theorem value?_pad : value? pad = none := by decide

/-- Every byte of an encoding is a symbol or padding. -/
theorem isSymbol_or_eq_pad {bytes : Bytes} {b : UInt8} (h : b ∈ encode bytes) :
    isSymbol b = true ∨ b = pad := by
  fun_induction encode bytes with
  | case1 => simp at h
  | case2 a =>
    have := a.toNat_lt
    simp only [List.mem_cons, List.not_mem_nil, or_false] at h
    rcases h with rfl | rfl | rfl | rfl
    · exact .inl (isSymbol_symbol (by omega))
    · exact .inl (isSymbol_symbol (by omega))
    · exact .inr rfl
    · exact .inr rfl
  | case3 a b =>
    have := a.toNat_lt
    have := b.toNat_lt
    simp only [List.mem_cons, List.not_mem_nil, or_false] at h
    rcases h with rfl | rfl | rfl | rfl
    · exact .inl (isSymbol_symbol (by omega))
    · exact .inl (isSymbol_symbol (by omega))
    · exact .inl (isSymbol_symbol (by omega))
    · exact .inr rfl
  | case4 a b c rest ih =>
    have := a.toNat_lt
    have := b.toNat_lt
    have := c.toNat_lt
    simp only [List.mem_cons] at h
    rcases h with rfl | rfl | rfl | rfl | h
    · exact .inl (isSymbol_symbol (by omega))
    · exact .inl (isSymbol_symbol (by omega))
    · exact .inl (isSymbol_symbol (by omega))
    · exact .inl (isSymbol_symbol (by omega))
    · exact ih h

/-- Every byte of an encoding is ASCII. -/
theorem lt_of_mem_encode {bytes : Bytes} {b : UInt8} (h : b ∈ encode bytes) : b < 128 := by
  have hall : ∀ b : UInt8, isSymbol b = true ∨ b = pad → b < 128 := forall_byte (by decide)
  exact hall b (isSymbol_or_eq_pad h)

/-- `encode` splits behind a multiple of three bytes. -/
theorem encode_append {first second : Bytes} (h : first.length % 3 = 0) :
    encode (first ++ second) = encode first ++ encode second := by
  fun_induction encode first with
  | case1 => simp
  | case2 a => simp at h
  | case3 a b => simp at h
  | case4 a b c rest ih =>
    have hrest : rest.length % 3 = 0 := by
      simp only [List.length_cons] at h
      omega
    simp [encode, ih hrest]

theorem length_encode (bytes : Bytes) : (encode bytes).length = (bytes.length + 2) / 3 * 4 := by
  fun_induction encode bytes with
  | case1 => simp
  | case2 a => simp
  | case3 a b => simp
  | case4 a b c rest ih =>
    simp only [List.length_cons, ih]
    omega

/-- The values of a complete group are below 64, and its bytes come back from them. -/
private theorem group_values (a b c : UInt8) :
    (a.toNat / 4 < 64 ∧ a.toNat % 4 * 16 + b.toNat / 16 < 64 ∧
      b.toNat % 16 * 4 + c.toNat / 64 < 64 ∧ c.toNat % 64 < 64) ∧
    a.toNat / 4 * 4 + (a.toNat % 4 * 16 + b.toNat / 16) / 16 = a.toNat ∧
    (a.toNat % 4 * 16 + b.toNat / 16) % 16 * 16 + (b.toNat % 16 * 4 + c.toNat / 64) / 4 = b.toNat ∧
    (b.toNat % 16 * 4 + c.toNat / 64) % 4 * 64 + c.toNat % 64 = c.toNat := by
  have := a.toNat_lt
  have := b.toNat_lt
  have := c.toNat_lt
  omega

/-- The encoding of a multiple of three bytes is made of symbols, and `ofValues` of their values
returns the bytes. -/
theorem ofValues_encode {bytes : Bytes} (h : bytes.length % 3 = 0) :
    (∀ b ∈ encode bytes, isSymbol b = true) ∧
      ofValues ((encode bytes).filterMap value?) = bytes := by
  fun_induction encode bytes with
  | case1 => simp [ofValues]
  | case2 a => simp at h
  | case3 a b => simp at h
  | case4 a b c rest ih =>
    obtain ⟨⟨ha, hab, hbc, hc⟩, hfirst, hsecond, hthird⟩ := group_values a b c
    obtain ⟨hsymbols, hvalues⟩ := ih (by simp only [List.length_cons] at h; omega)
    constructor
    · simpa [isSymbol_symbol, ha, hab, hbc, hc] using hsymbols
    · simp only [List.filterMap_cons, value?_symbol ha, value?_symbol hab, value?_symbol hbc,
        value?_symbol hc, ofValues, hvalues, hfirst, hsecond, hthird, toUInt8_toNat]

/-- A multiple of four symbols is the encoding of `ofValues` of their values. -/
theorem encode_ofValues (text : Bytes) (hlength : text.length % 4 = 0)
    (hsymbols : ∀ b ∈ text, isSymbol b = true) :
    encode (ofValues (text.filterMap value?)) = text ∧
      (ofValues (text.filterMap value?)).length % 3 = 0 := by
  match text with
  | [] => simp [ofValues, encode]
  | [_] | [_, _] | [_, _, _] => simp at hlength
  | a :: b :: c :: d :: rest =>
    simp only [List.forall_mem_cons, isSymbol_iff] at hsymbols
    obtain ⟨⟨i, hi, rfl⟩, ⟨j, hj, rfl⟩, ⟨k, hk, rfl⟩, ⟨l, hl, rfl⟩, hrest⟩ := hsymbols
    obtain ⟨hencode, hthirds⟩ := encode_ofValues rest
      (by simp only [List.length_cons] at hlength; omega) (fun b hb => isSymbol_iff.mpr (hrest b hb))
    have hfirst : (i * 4 + j / 16).toUInt8.toNat = i * 4 + j / 16 := toNat_toUInt8 (by omega)
    have hsecond : (j % 16 * 16 + k / 4).toUInt8.toNat = j % 16 * 16 + k / 4 :=
      toNat_toUInt8 (by omega)
    have hthird : (k % 4 * 64 + l).toUInt8.toNat = k % 4 * 64 + l := toNat_toUInt8 (by omega)
    simp only [List.filterMap_cons, value?_symbol hi, value?_symbol hj, value?_symbol hk,
      value?_symbol hl, ofValues, encode, hfirst, hsecond, hthird, hencode, List.length_cons]
    refine ⟨?_, by omega⟩
    rw [show (i * 4 + j / 16) / 4 = i by omega,
      show (i * 4 + j / 16) % 4 * 16 + (j % 16 * 16 + k / 4) / 16 = j by omega,
      show (j % 16 * 16 + k / 4) % 16 * 4 + (k % 4 * 64 + l) / 64 = k by omega,
      show (k % 4 * 64 + l) % 64 = l by omega]

/-- The three forms of a last group: four symbols, or three or two of them whose leftover bits are
zero, with padding behind them. -/
inductive LastGroup : Bytes → List Nat → Prop where
  | four {i j k l : Nat} (hi : i < 64) (hj : j < 64) (hk : k < 64) (hl : l < 64) :
      LastGroup [symbol i, symbol j, symbol k, symbol l] [i, j, k, l]
  | three {i j k : Nat} (hi : i < 64) (hj : j < 64) (hk : k < 64) (hbits : k % 4 = 0) :
      LastGroup [symbol i, symbol j, symbol k, pad] [i, j, k]
  | two {i j : Nat} (hi : i < 64) (hj : j < 64) (hbits : j % 16 = 0) :
      LastGroup [symbol i, symbol j, pad, pad] [i, j]

theorem LastGroup.decode {group : Bytes} {values : List Nat} (h : LastGroup group values)
    (start : Nat) : decodeLastGroup start group = .ok (ofValues values) := by
  cases h with
  | four hi hj hk hl =>
    simp [decodeLastGroup, lastGroupFault?, symbol_ne_pad, isSymbol_symbol, value?_symbol,
      leftoverBits, hi, hj, hk, hl, Nat.mod_one]
  | three hi hj hk hbits =>
    simp [decodeLastGroup, lastGroupFault?, symbol_ne_pad, isSymbol_symbol, isSymbol_pad,
      value?_symbol, leftoverBits, hi, hj, hk, hbits]
  | two hi hj hbits =>
    simp [decodeLastGroup, lastGroupFault?, symbol_ne_pad, isSymbol_symbol, isSymbol_pad,
      value?_symbol, leftoverBits, hi, hj, hbits]

theorem LastGroup.encode_ofValues {group : Bytes} {values : List Nat} (h : LastGroup group values) :
    encode (ofValues values) = group := by
  cases h with
  | @four i j k l hi hj hk hl =>
    simpa [value?_symbol, hi, hj, hk, hl] using (Base64.encode_ofValues
      [symbol i, symbol j, symbol k, symbol l] (by simp)
      (by simp [isSymbol_symbol, hi, hj, hk, hl])).1
  | @three i j k hi hj hk hbits =>
    have hfirst : (i * 4 + j / 16).toUInt8.toNat = i * 4 + j / 16 := toNat_toUInt8 (by omega)
    have hsecond : (j % 16 * 16 + k / 4).toUInt8.toNat = j % 16 * 16 + k / 4 :=
      toNat_toUInt8 (by omega)
    simp only [ofValues, encode, hfirst, hsecond]
    rw [show (i * 4 + j / 16) / 4 = i by omega,
      show (i * 4 + j / 16) % 4 * 16 + (j % 16 * 16 + k / 4) / 16 = j by omega,
      show (j % 16 * 16 + k / 4) % 16 * 4 = k by omega]
  | @two i j hi hj hbits =>
    have hfirst : (i * 4 + j / 16).toUInt8.toNat = i * 4 + j / 16 := toNat_toUInt8 (by omega)
    simp only [ofValues, encode, hfirst]
    rw [show (i * 4 + j / 16) / 4 = i by omega, show (i * 4 + j / 16) % 4 * 16 = j by omega]

/-- The encoding of one to three bytes is a last group of them. -/
theorem lastGroup_encode {bytes : Bytes} (hpos : bytes ≠ []) (hlength : bytes.length ≤ 3) :
    ∃ values, LastGroup (encode bytes) values ∧ ofValues values = bytes := by
  match bytes with
  | [a] =>
    obtain ⟨⟨ha, hb, -⟩, hfirst, -⟩ := group_values a 0 0
    simp only [UInt8.toNat_zero, Nat.zero_div, Nat.add_zero] at hb hfirst
    exact ⟨_, .two ha hb (by omega), by simp only [ofValues, hfirst, toUInt8_toNat]⟩
  | [a, b] =>
    obtain ⟨⟨ha, hb, hc, -⟩, hfirst, hsecond, -⟩ := group_values a b 0
    simp only [UInt8.toNat_zero, Nat.zero_div, Nat.add_zero] at hc hsecond
    exact ⟨_, .three ha hb hc (by omega),
      by simp only [ofValues, hfirst, hsecond, toUInt8_toNat]⟩
  | [a, b, c] =>
    obtain ⟨⟨ha, hb, hc, hd⟩, hfirst, hsecond, hthird⟩ := group_values a b c
    exact ⟨_, .four ha hb hc hd,
      by simp only [ofValues, hfirst, hsecond, hthird, toUInt8_toNat]⟩

/-- An encoding is symbols and at most two padding bytes, and `ofValues` of the values of the
symbols returns the bytes. -/
theorem exists_symbols_encode (bytes : Bytes) :
    ∃ symbols padding, encode bytes = symbols ++ List.replicate padding pad ∧ padding ≤ 2 ∧
      (∀ b ∈ symbols, isSymbol b = true) ∧ ofValues (symbols.filterMap value?) = bytes := by
  fun_induction encode bytes with
  | case1 => exact ⟨[], 0, rfl, by omega, by simp, rfl⟩
  | case2 a =>
    obtain ⟨⟨ha, hb, -⟩, hfirst, -⟩ := group_values a 0 0
    simp only [UInt8.toNat_zero, Nat.zero_div, Nat.add_zero] at hb hfirst
    refine ⟨[_, _], 2, rfl, by omega, by simp [isSymbol_symbol, ha, hb], ?_⟩
    simp only [List.filterMap_cons, List.filterMap_nil, value?_symbol ha, value?_symbol hb, ofValues,
      hfirst, toUInt8_toNat]
  | case3 a b =>
    obtain ⟨⟨ha, hb, hc, -⟩, hfirst, hsecond, -⟩ := group_values a b 0
    simp only [UInt8.toNat_zero, Nat.zero_div, Nat.add_zero] at hc hsecond
    refine ⟨[_, _, _], 1, rfl, by omega, by simp [isSymbol_symbol, ha, hb, hc], ?_⟩
    simp only [List.filterMap_cons, List.filterMap_nil, value?_symbol ha, value?_symbol hb,
      value?_symbol hc, ofValues, hfirst, hsecond, toUInt8_toNat]
  | case4 a b c rest ih =>
    obtain ⟨⟨ha, hb, hc, hd⟩, hfirst, hsecond, hthird⟩ := group_values a b c
    obtain ⟨symbols, padding, hencode, hpadding, hsymbols, hvalues⟩ := ih
    refine ⟨_ :: _ :: _ :: _ :: symbols, padding, by rw [hencode]; rfl, hpadding, ?_, ?_⟩
    · simpa [isSymbol_symbol, ha, hb, hc, hd] using hsymbols
    · simp only [List.filterMap_cons, value?_symbol ha, value?_symbol hb, value?_symbol hc,
        value?_symbol hd, ofValues, hvalues, hfirst, hsecond, hthird, toUInt8_toNat]

/-- Four bytes without a fault are two symbols and two more, one more and padding, or two padding
bytes. -/
theorem lastGroupFault?_eq_none {a b c d : UInt8} {start : Nat}
    (h : lastGroupFault? start 0 none [a, b, c, d] = none) :
    isSymbol a = true ∧ isSymbol b = true ∧
      (isSymbol c = true ∧ isSymbol d = true ∨ isSymbol c = true ∧ d = pad ∨ c = pad ∧ d = pad) := by
  simp only [lastGroupFault?] at h
  grind

/-- A group of at most four bytes that decodes is empty or a last group. -/
theorem lastGroup_of_decode {group bytes : Bytes} {start : Nat} (hlength : group.length ≤ 4)
    (h : decodeLastGroup start group = .ok bytes) :
    group = [] ∧ bytes = [] ∨ ∃ values, LastGroup group values ∧ ofValues values = bytes := by
  unfold decodeLastGroup at h
  split at h
  · simp at h
  · rename_i hfault
    dsimp only at h
    split at h
    · rename_i hempty
      exact .inl ⟨List.isEmpty_iff.mp hempty, (Except.ok.inj h).symm⟩
    · rename_i hempty
      split at h
      · simp at h
      · split at h
        · simp at h
        · rename_i hfour
          right
          match group with
          | [] => simp at hempty
          | [_] | [_, _] | [_, _, _] => simp at hfour
          | [a, b, c, d] =>
            obtain ⟨ha, hb, hcases⟩ := lastGroupFault?_eq_none hfault
            obtain ⟨i, hi, rfl⟩ := isSymbol_iff.mp ha
            obtain ⟨j, hj, rfl⟩ := isSymbol_iff.mp hb
            rcases hcases with ⟨hc, hd⟩ | ⟨hc, rfl⟩ | ⟨rfl, rfl⟩
            · obtain ⟨k, hk, rfl⟩ := isSymbol_iff.mp hc
              obtain ⟨l, hl, rfl⟩ := isSymbol_iff.mp hd
              refine ⟨_, .four hi hj hk hl, ?_⟩
              simpa [isSymbol_symbol, value?_symbol, leftoverBits, hi, hj, hk, hl,
                Nat.mod_one] using h
            · obtain ⟨k, hk, rfl⟩ := isSymbol_iff.mp hc
              simp [isSymbol_symbol, isSymbol_pad, value?_symbol, leftoverBits, hi, hj, hk] at h
              split at h
              · rename_i hbits
                exact ⟨_, .three hi hj hk hbits, Except.ok.inj h⟩
              · simp at h
            · simp [isSymbol_symbol, isSymbol_pad, value?_symbol, leftoverBits, hi, hj] at h
              split at h
              · rename_i hbits
                exact ⟨_, .two hi hj hbits, Except.ok.inj h⟩
              · simp at h

/-- `strayByte?` fails exactly if all bytes are symbols. -/
theorem strayByte?_eq_none_iff {input : Bytes} :
    strayByte? 0 input = none ↔ ∀ b ∈ input, isSymbol b = true := by
  have hall := @List.findIdx?_eq_none_iff _ input fun b => !isSymbol b
  simp only [Bool.not_eq_eq_eq_not, Bool.not_false] at hall
  rw [← hall, strayByte?]
  split <;> simp_all

/-- The last group has at most four bytes and leaves a multiple of four in front of it. -/
theorem lastGroupLength_spec (length : Nat) :
    lastGroupLength length ≤ length ∧ lastGroupLength length ≤ 4 ∧
      (length - lastGroupLength length) % 4 = 0 := by
  unfold lastGroupLength
  split <;> omega

/-- `decode` of an encoding returns the bytes. -/
theorem decode_encode (bytes : Bytes) : decode (encode bytes) = .ok bytes := by
  by_cases hempty : bytes = []
  · subst hempty
    rfl
  · have hpos := List.length_pos_iff.mpr hempty
    obtain ⟨head, last, rfl, hhead, hlast, hlength⟩ : ∃ head last, bytes = head ++ last ∧
        head.length % 3 = 0 ∧ last ≠ [] ∧ last.length ≤ 3 := by
      refine ⟨bytes.take ((bytes.length - 1) / 3 * 3), bytes.drop ((bytes.length - 1) / 3 * 3),
        (List.take_append_drop _ _).symm, ?_, ?_, ?_⟩
      · rw [List.length_take, Nat.min_eq_left (by omega)]
        omega
      · apply List.ne_nil_of_length_pos
        rw [List.length_drop]
        omega
      · rw [List.length_drop]
        omega
    obtain ⟨values, hgroup, rfl⟩ := lastGroup_encode hlast hlength
    obtain ⟨hsymbols, hbytes⟩ := ofValues_encode hhead
    have hfour : (encode (ofValues values)).length = 4 := by
      have := List.length_pos_iff.mpr hlast
      rw [length_encode]
      omega
    have hgroups : (encode head).length % 4 = 0 := by
      rw [length_encode]
      omega
    have hstart : (encode head ++ encode (ofValues values)).length -
        lastGroupLength (encode head ++ encode (ofValues values)).length = (encode head).length := by
      rw [List.length_append, hfour, lastGroupLength]
      split <;> omega
    rw [encode_append hhead, decode]
    simp only [hstart, List.take_left, List.drop_left, strayByte?_eq_none_iff.mpr hsymbols,
      hgroup.decode, hbytes]
    rw [if_neg (by rw [List.length_append, hfour]; omega)]

/-- `decode` accepts only the encoding of what it returns: no other padding and no leftover bits. -/
theorem eq_encode_of_decode {input bytes : Bytes} (h : decode input = .ok bytes) :
    input = encode bytes := by
  obtain ⟨hle, hfour, hgroups⟩ := lastGroupLength_spec input.length
  unfold decode at h
  dsimp only at h
  split at h
  · simp at h
  · split at h
    · simp at h
    · rename_i hstray
      split at h
      · simp at h
      · rename_i last hlast
        obtain rfl := Except.ok.inj h
        have hbody := encode_ofValues (input.take (input.length - lastGroupLength input.length))
          (by rwa [List.length_take, Nat.min_eq_left (by omega)]) (strayByte?_eq_none_iff.mp hstray)
        have htail : encode last = input.drop (input.length - lastGroupLength input.length) := by
          rcases lastGroup_of_decode (by rw [List.length_drop]; omega) hlast with
            ⟨hgroup, rfl⟩ | ⟨values, hgroup, rfl⟩
          · rw [hgroup, encode]
          · exact hgroup.encode_ofValues
        rw [encode_append hbody.2, hbody.1, htail, List.take_append_drop]

theorem decode_eq_ok_iff {input bytes : Bytes} : decode input = .ok bytes ↔ input = encode bytes :=
  ⟨eq_encode_of_decode, fun h => h ▸ decode_encode bytes⟩

theorem encode_injective : Function.Injective encode := by
  intro first second h
  have hfirst := decode_encode first
  rw [h, decode_encode second] at hfirst
  exact (Except.ok.inj hfirst).symm

/-- The position or the length that a fault names, if it names one. -/
def Fault.offset : Fault → Nat
  | .invalidByte _ position => position
  | .invalidLength length => length
  | .invalidPadding => 0
  | .invalidLastSymbol _ position => position

/-- The offset of a fault of the last group is at most the end of the group. -/
theorem offset_le_of_lastGroupFault? {start index : Nat} {padAt : Option Nat} {group : Bytes}
    {fault : Fault} (hpad : ∀ place ∈ padAt, place ≤ index)
    (h : lastGroupFault? start index padAt group = some fault) :
    fault.offset ≤ start + index + group.length := by
  induction group generalizing index padAt with
  | nil => simp [lastGroupFault?] at h
  | cons b group ih =>
    rw [List.length_cons]
    cases padAt with
    | none =>
      rw [lastGroupFault?] at h
      split_ifs at h
      · obtain rfl := Option.some.inj h
        simp only [Fault.offset]
        omega
      · have hrest := ih (by simp) h
        omega
      · have hrest := ih (by simp) h
        omega
      · obtain rfl := Option.some.inj h
        simp only [Fault.offset]
        omega
    | some place =>
      have hplace : place ≤ index := hpad place rfl
      rw [lastGroupFault?] at h
      split_ifs at h
      · have hrest := ih (by simp; omega) h
        omega
      · obtain rfl := Option.some.inj h
        simp only [Fault.offset]
        omega

theorem offset_le_of_decodeLastGroup {start : Nat} {group : Bytes} {fault : Fault}
    (h : decodeLastGroup start group = .error fault) : fault.offset ≤ start + group.length := by
  have hsymbols : (group.filter isSymbol).length ≤ group.length := List.length_filter_le _ _
  unfold decodeLastGroup at h
  split at h
  · rename_i hfault
    obtain rfl := Except.error.inj h
    exact offset_le_of_lastGroupFault? (by simp) hfault
  · dsimp only at h
    split_ifs at h <;> obtain rfl := Except.error.inj h <;> simp only [Fault.offset] <;> omega

/-- The offset of a fault of `decode` is at most the length of the input. -/
theorem offset_le_of_decode {input : Bytes} {fault : Fault} (h : decode input = .error fault) :
    fault.offset ≤ input.length := by
  unfold decode at h
  dsimp only at h
  split at h
  · obtain rfl := Except.error.inj h
    exact Nat.sub_le _ _
  · split at h
    · rename_i byte position hstray
      obtain rfl := Except.error.inj h
      unfold strayByte? at hstray
      split at hstray
      · cases hstray
      · rename_i i hi
        obtain ⟨-, rfl⟩ := Prod.mk.inj (Option.some.inj hstray)
        have hlt := (List.findIdx?_eq_some_iff_findIdx_eq.mp hi).1
        rw [List.length_take] at hlt
        simp only [Fault.offset]
        omega
    · split at h
      · rename_i hlast
        obtain rfl := Except.error.inj h
        have hoffset := offset_le_of_decodeLastGroup hlast
        rw [List.length_drop] at hoffset
        omega
      · cases h

/-- The canonical form of the bytes as a text. -/
def text (bytes : Bytes) : String :=
  Utf8.ascii (encode bytes)

theorem utf8_text (bytes : Bytes) : Utf8.encode (text bytes) = encode bytes :=
  Utf8.encode_ascii fun _ => lt_of_mem_encode

theorem text_injective : Function.Injective text := by
  intro first second h
  apply encode_injective
  rw [← utf8_text first, h, utf8_text second]

end ClientIdentity.Base64
