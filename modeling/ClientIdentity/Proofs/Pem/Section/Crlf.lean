import ClientIdentity.Proofs.Bytes.Crlf
import ClientIdentity.Proofs.Pem.Section

namespace ClientIdentity.Pem.Section

open Bytes

/-- The bytes of a text that count in base64. -/
def symbols (text : Bytes) : Bytes :=
  text.filter fun b => !Base64.Lenient.isSpace b

theorem symbols_append (first second : Bytes) :
    symbols (first ++ second) = symbols first ++ symbols second :=
  List.filter_append ..

theorem symbols_break {b : UInt8} (hb : endsLine b = true) : symbols [b] = [] := by
  rcases endsLine_eq_true_iff.mp hb with rfl | rfl <;> decide

/-- The lenient decoding depends on a text only through its symbols. -/
theorem decode_congr {first second : Bytes} (h : symbols first = symbols second) :
    Base64.Lenient.decode first = Base64.Lenient.decode second := by
  rw [Base64.Lenient.decode, ← Base64.Lenient.read_filter, ← symbols, h, symbols,
    Base64.Lenient.read_filter, ← Base64.Lenient.decode]

section Lines

/-- Two lines that the reader does not tell apart. -/
structure AlikeLines (line other : Bytes) : Prop where
  begins : beginMarker <+: line ↔ beginMarker <+: other
  label : startLabel? line = startLabel? other
  ends : ∀ label, endOf label <+: line ↔ endOf label <+: other
  symbols : symbols line = symbols other

theorem AlikeLines.refl (line : Bytes) : AlikeLines line line :=
  ⟨Iff.rfl, rfl, fun _ => Iff.rfl, rfl⟩

variable {b c : UInt8} (hb : endsLine b = true) (hc : endsLine c = true)

theorem ne_dash_of_endsLine {b : UInt8} (hb : endsLine b = true) : b ≠ 0x2D := by
  rintro rfl
  exact absurd hb (by decide)

include hb

/-- A marker that does not end in a line break is a prefix of a line exactly if it is one of the
line without its line break. -/
theorem prefix_append_break_iff {marker : Bytes} {last : UInt8} (hlast : endsLine last = false)
    (front : Bytes) : marker ++ [last] <+: front ++ [b] ↔ marker ++ [last] <+: front := by
  rw [List.prefix_concat_iff, or_iff_right]
  intro heq
  obtain rfl : last = b := List.singleton_inj.mp (List.append_inj' heq rfl).2
  rw [hb] at hlast
  cases hlast

theorem trailer_append_break (front : Bytes) : trailer (front ++ [b]) = b :: trailer front := by
  rw [trailer, List.reverse_append, List.reverse_singleton, List.singleton_append,
    List.takeWhile_cons_of_pos (by simp [isPassedOver, hb]), trailer]

/-- `startLabel?` ignores the line break of the begin line. -/
theorem startLabel?_append_break (front : Bytes) :
    startLabel? (front ++ [b]) = startLabel? front := by
  have hdash := ne_dash_of_endsLine hb
  simp only [startLabel?, trailer_append_break hb, List.count_cons_of_ne hdash]
  split_ifs with hcount
  · -- The five dashes are among what is dropped, so that the line break is dropped with them.
    have hmem : 0x2D ∈ trailer front := List.count_pos_iff.mp (by omega)
    have hdashed : ((trailer front).reverse.dropWhile (· != 0x2D)) ≠ [] := by
      intro hnil
      rw [List.dropWhile_eq_nil_iff] at hnil
      exact absurd (hnil 0x2D (List.mem_reverse.mpr hmem)) (by decide)
    rw [List.reverse_cons, List.dropWhile_append, if_neg (by simpa using hdashed),
      List.length_append, List.length_append, List.length_singleton, Nat.add_sub_add_right,
      List.take_append_of_le_length (Nat.sub_le _ _)]
  · rfl

include hc

theorem alikeLines_break (front : Bytes) : AlikeLines (front ++ [b]) (front ++ [c]) where
  begins := by
    have hmarker : beginMarker = beginMarker.dropLast ++ [0x20] := by decide
    rw [hmarker, prefix_append_break_iff hb (by decide), prefix_append_break_iff hc (by decide)]
  label := by rw [startLabel?_append_break hb, startLabel?_append_break hc]
  ends := by
    intro label
    have hmarker : endOf label = endMarker ++ label ++ dashes.dropLast ++ [0x2D] := by
      rw [endOf, List.append_assoc _ dashes.dropLast]
      rfl
    rw [hmarker, prefix_append_break_iff hb (by decide), prefix_append_break_iff hc (by decide)]
  symbols := by rw [symbols_append, symbols_append, symbols_break hb, symbols_break hc]

end Lines

/-- Two progresses that the reader goes on from in the same way. -/
structure Progress.Alike (progress other : Progress) : Prop where
  label : progress.label = other.label
  text : symbols progress.text.reverse.flatten = symbols other.text.reverse.flatten

/-- Two readings with the same sections in front of a fault, or of none. -/
structure Reading.Alike (reading other : Reading) : Prop where
  sections : reading.sections = other.sections
  fault : reading.fault.isSome = other.fault.isSome

section Reading

variable {progress other : Progress} {line line' : Bytes}

theorem Progress.Alike.text_cons (h : progress.Alike other)
    (hline : symbols line = symbols line') :
    symbols (line :: progress.text).reverse.flatten =
      symbols (line' :: other.text).reverse.flatten := by
  simp only [List.reverse_cons, List.flatten_append, List.flatten_singleton, symbols_append, h.text,
    hline]

/-- `feed` of alike lines from alike states fails for both, or leads to alike states and the same
section. -/
theorem Progress.Alike.feed (h : progress.Alike other) (hline : AlikeLines line line') :
    (∃ fault fault', progress.feed line = .error fault ∧ other.feed line' = .error fault') ∨
      ∃ later later' done, progress.feed line = .ok (later, done) ∧
        other.feed line' = .ok (later', done) ∧ later.Alike later' := by
  have hbegin : beginMarker.isPrefixOf line = beginMarker.isPrefixOf line' := by
    rw [Bool.eq_iff_iff, List.isPrefixOf_iff_prefix, List.isPrefixOf_iff_prefix, hline.begins]
  have hend (label : Bytes) : (endOf label).isPrefixOf line = (endOf label).isPrefixOf line' := by
    rw [Bool.eq_iff_iff, List.isPrefixOf_iff_prefix, List.isPrefixOf_iff_prefix, hline.ends]
  rw [Progress.feed, Progress.feed, hbegin, hline.label, h.label]
  split_ifs
  · cases startLabel? line' with
    | none => exact .inl ⟨_, _, rfl, rfl⟩
    | some label => exact .inr ⟨_, _, _, rfl, rfl, ⟨rfl, h.text⟩⟩
  · cases hlabel : other.label with
    | none => exact .inr ⟨_, _, _, rfl, rfl, h⟩
    | some label =>
      simp only [hend, decode_congr h.text]
      split_ifs
      · cases Base64.Lenient.decode other.text.reverse.flatten with
        | error fault => exact .inl ⟨_, _, rfl, rfl⟩
        | ok contents => exact .inr ⟨_, _, _, rfl, rfl, ⟨rfl, rfl⟩⟩
      · exact .inr ⟨_, _, _, rfl, rfl, ⟨rfl, rfl⟩⟩
      · exact .inr ⟨_, _, _, rfl, rfl, ⟨rfl, h.text_cons hline.symbols⟩⟩

theorem Progress.Alike.read_cons (h : progress.Alike other) (hline : AlikeLines line line')
    {rest rest' : List Bytes}
    (hrest : ∀ later later' : Progress, later.Alike later' →
      (later.read rest).Alike (later'.read rest')) :
    (progress.read (line :: rest)).Alike (other.read (line' :: rest')) := by
  rcases h.feed hline with ⟨_, _, hfirst, hsecond⟩ | ⟨later, later', done, hfirst, hsecond, hsame⟩
  · rw [Progress.read, Progress.read, hfirst, hsecond]
    exact ⟨rfl, rfl⟩
  · obtain ⟨hsections, hfault⟩ := hrest later later' hsame
    rw [Progress.read, Progress.read, hfirst, hsecond]
    cases done with
    | none => exact ⟨hsections, hfault⟩
    | some done => exact ⟨congrArg (done :: ·) hsections, hfault⟩

theorem Progress.Alike.read_nil (h : progress.Alike other) :
    (progress.read []).Alike (other.read []) := by
  rw [Progress.read, Progress.read, h.label]
  cases other.label <;> exact ⟨rfl, rfl⟩

/-- `feed` of a line break alone leads to an alike state. -/
theorem Progress.Alike.exists_feed_break (h : progress.Alike other) {b : UInt8}
    (hb : endsLine b = true) :
    ∃ later, other.feed [b] = .ok (later, none) ∧ progress.Alike later := by
  obtain ⟨label, text⟩ := other
  cases label with
  | none =>
    have hbegin : beginMarker.isPrefixOf [b] = false := by
      rcases endsLine_eq_true_iff.mp hb with rfl | rfl <;> decide
    refine ⟨_, ?_, h⟩
    simp [Progress.feed, hbegin]
  | some label =>
    have hbreak : ¬ dashes <+: [b] := by
      rw [dashes_eq, List.cons_prefix_cons]
      exact fun hdash => ne_dash_of_endsLine hb hdash.1.symm
    refine ⟨_, feed_text hbreak, h.label, ?_⟩
    rw [h.text, List.reverse_cons, List.flatten_append, List.flatten_singleton, symbols_append,
      symbols_break hb, List.append_nil]

/-- `read` of an input and of `toCrlf` of it from alike states returns the same sections, and a
fault for both or neither. The induction is on the lines that end in a line feed; the last line is
the same in both. -/
theorem Progress.Alike.read_toCrlf {input : Bytes} (hinput : 0x0D ∉ input)
    (h : progress.Alike other) :
    (progress.read (lines input)).Alike (other.read (lines (toCrlf input))) := by
  generalize hlength : input.length = length
  induction length using Nat.strongRecOn generalizing input progress other with
  | ind length ih =>
    by_cases hlf : 0x0A ∈ input
    · obtain ⟨front, rest, rfl, hfront⟩ := List.eq_append_cons_of_mem hlf
      rw [List.mem_append, List.mem_cons, not_or, not_or] at hinput
      have hline : ∀ b ∈ front, endsLine b = false := endsLine_eq_false ⟨hfront, hinput.1⟩
      have hspread : toCrlf (front ++ 0x0A :: rest) = front ++ 0x0D :: 0x0A :: toCrlf rest := by
        rw [toCrlf_append, toCrlf_of_not_mem hfront, toCrlf_cons_lf]
      have hbreak : lines (0x0A :: toCrlf rest) = [0x0A] :: lines (toCrlf rest) :=
        Split.behind_append_cons (List.forall_mem_nil _) (by decide) _
      rw [hspread, lines, lines, Split.behind_append_cons hline (by decide),
        Split.behind_append_cons hline (by decide), ← lines, ← lines, hbreak]
      refine h.read_cons (alikeLines_break (by decide) (by decide) front) fun later later' hlater => ?_
      obtain ⟨behind, hfeed, hbehind⟩ := hlater.exists_feed_break (b := 0x0A) (by decide)
      have hshorter : rest.length < length := by
        rw [← hlength, List.length_append, List.length_cons]
        omega
      rw [Progress.read, hfeed]
      exact ih rest.length hshorter hinput.2.2 hbehind rfl
    · have hlast : lines input = [] ∨ lines input = [input] := by
        by_cases hnil : input = []
        · exact .inl (by rw [hnil]; rfl)
        · exact .inr (Split.behind_of_forall hnil (endsLine_eq_false ⟨hlf, hinput⟩))
      rw [toCrlf_of_not_mem hlf]
      rcases hlast with hnone | hone
      · rw [hnone]
        exact h.read_nil
      · rw [hone]
        exact h.read_cons (.refl input) fun later later' hlater => hlater.read_nil

end Reading

/-- `certificates` of `toCrlf input` returns those of `input`, and fails exactly if that does. -/
theorem certificates_toCrlf {input : Bytes} (hinput : 0x0D ∉ input) :
    (certificates (toCrlf input)).mapError (fun _ => ()) =
      (certificates input).mapError fun _ => () := by
  have hfresh : Progress.fresh.Alike .fresh := ⟨rfl, rfl⟩
  obtain ⟨hsections, hfault⟩ := hfresh.read_toCrlf hinput
  rw [certificates, certificates, read, read, hsections]
  revert hfault
  cases (Progress.fresh.read (lines input)).fault <;>
    cases (Progress.fresh.read (lines (toCrlf input))).fault <;> simp [Except.mapError]

end ClientIdentity.Pem.Section
