import ClientIdentity.Pem.Section
import ClientIdentity.Proofs.Bytes.Occurrence
import ClientIdentity.Proofs.Pem.Block
import ClientIdentity.Proofs.Text.Base64.Lenient
import ClientIdentity.Proofs.Text.Split

namespace ClientIdentity.Pem.Section

open Bytes

/-- The progress behind one line, and the section that the line ends. -/
inductive Fed (progress : Progress) (line : Bytes) : Progress → Option Section → Prop where
  /-- A begin line begins a section, and keeps the text of the one that it stands in. -/
  | begins {label : Bytes} (hbegin : beginMarker <+: line) (hlabel : startLabel? line = some label) :
      Fed progress line ⟨some label, progress.text⟩ none
  /-- Nothing happens between sections. -/
  | outside (hbegin : ¬ beginMarker <+: line) (hlabel : progress.label = none) :
      Fed progress line progress none
  /-- An end line with the label of the section ends it. -/
  | ends {label contents : Bytes} (hbegin : ¬ beginMarker <+: line)
      (hlabel : progress.label = some label) (hend : endOf label <+: line)
      (htext : Base64.Lenient.decode progress.text.reverse.flatten = .ok contents) :
      Fed progress line .fresh (some ⟨label, contents⟩)
  /-- A section with an unknown label is left out. -/
  | drops {label : Bytes} (hbegin : ¬ beginMarker <+: line)
      (hlabel : progress.label = some label) (hend : endOf label <+: line)
      (hunknown : knownLabels.contains label = false) : Fed progress line .fresh none
  /-- Every other line is text. -/
  | collects {label : Bytes} (hbegin : ¬ beginMarker <+: line)
      (hlabel : progress.label = some label) (hend : ¬ endOf label <+: line) :
      Fed progress line ⟨some label, line :: progress.text⟩ none

theorem fed_of_feed {progress later : Progress} {line : Bytes} {done : Option Section}
    (h : progress.feed line = .ok (later, done)) : Fed progress line later done := by
  unfold Progress.feed at h
  split_ifs at h with hbegin
  · rw [List.isPrefixOf_iff_prefix] at hbegin
    split at h
    · cases h
    · rename_i hlabel
      cases h
      exact .begins hbegin hlabel
  · rw [List.isPrefixOf_iff_prefix] at hbegin
    split at h
    · rename_i hlabel
      cases h
      exact .outside hbegin hlabel
    · rename_i label hlabel
      split_ifs at h with hend hknown
      · rw [List.isPrefixOf_iff_prefix] at hend
        split at h
        · rename_i htext
          cases h
          exact .ends hbegin hlabel hend htext
        · cases h
      · rw [List.isPrefixOf_iff_prefix] at hend
        cases h
        exact .drops hbegin hlabel hend (by simpa using hknown)
      · rw [List.isPrefixOf_iff_prefix] at hend
        cases h
        have hsome : ({ progress with text := line :: progress.text } : Progress) =
            ⟨some label, line :: progress.text⟩ := by rw [hlabel]
        rw [hsome]
        exact .collects hbegin hlabel hend

/-- A section that is read from a line on ends at that line or is read from the rest. -/
theorem mem_sections_cons {progress : Progress} {line : Bytes} {rest : List Bytes} {s : Section}
    (h : s ∈ (progress.read (line :: rest)).sections) :
    ∃ later done, Fed progress line later done ∧
      (done = some s ∨ s ∈ (later.read rest).sections) := by
  rw [Progress.read] at h
  split at h
  · cases h
  · rename_i later hfeed
    exact ⟨later, none, fed_of_feed hfeed, .inr h⟩
  · rename_i later done hfeed
    refine ⟨later, some done, fed_of_feed hfeed, ?_⟩
    rcases List.mem_cons.mp h with rfl | hlater
    · exact .inl rfl
    · exact .inr hlater

theorem sections_read_nil (progress : Progress) : (progress.read []).sections = [] := by
  rw [Progress.read]
  split <;> rfl

/-- Every section ends at a line that begins with the end marker of its label. -/
theorem exists_end_of_mem_sections {progress : Progress} {lines : List Bytes} {s : Section}
    (h : s ∈ (progress.read lines).sections) : ∃ line ∈ lines, endOf s.label <+: line := by
  induction lines generalizing progress with
  | nil =>
    rw [sections_read_nil] at h
    cases h
  | cons line rest ih =>
    obtain ⟨later, done, hfed, hdone | hlater⟩ := mem_sections_cons h
    · subst hdone
      cases hfed with
      | ends hbegin hlabel hend htext => exact ⟨line, List.mem_cons_self, hend⟩
    · obtain ⟨last, hlast, hend⟩ := ih hlater
      exact ⟨last, List.mem_cons_of_mem _ hlast, hend⟩

section Spoiled

/-- A section that cannot be handed out under a label without colons: a colon stands in its text,
which is then no base64, or in its own label. -/
structure Spoiled (progress : Progress) : Prop where
  inside : progress.label.isSome
  colon : 0x3A ∈ progress.text.flatten ∨ ∃ label, progress.label = some label ∧ 0x3A ∈ label

/-- `startLabel?` returns the line without its marker and its trailer. -/
theorem exists_of_startLabel? {line label : Bytes} (hlabel : startLabel? line = some label) :
    ∃ kept dashed, line = kept ++ dashed ∧ (∀ b ∈ dashed, b ∈ trailer line) ∧
      label = kept.drop beginMarker.length := by
  have htrailer : (trailer line).reverse <:+ line := by
    rw [← List.reverse_prefix, List.reverse_reverse]
    exact List.takeWhile_prefix _
  obtain ⟨kept, hkept⟩ := (List.dropWhile_suffix (· != 0x2D)).trans htrailer
  refine ⟨kept, _, hkept.symm, fun b hb => ?_, ?_⟩
  · exact List.mem_reverse.mp ((List.dropWhile_suffix _).subset hb)
  · simp only [startLabel?] at hlabel
    split_ifs at hlabel
    have htake : ∀ dashed, kept ++ dashed = line →
        line.take (line.length - dashed.length) = kept := by
      rintro dashed rfl
      simp
    rw [← Option.some.inj hlabel, htake _ hkept]

/-- The label of a begin line holds every byte of the line that is in neither the marker nor the
trailer. -/
theorem mem_label {line label : Bytes} {b : UInt8} (hbegin : beginMarker <+: line)
    (hlabel : startLabel? line = some label) (hb : b ∈ line) (hmarker : b ∉ beginMarker)
    (htrailer : b ∉ trailer line) : b ∈ label := by
  obtain ⟨kept, dashed, hline, hdashed, rfl⟩ := exists_of_startLabel? hlabel
  have hkept : b ∈ kept := by
    rw [hline] at hb
    exact (List.mem_append.mp hb).resolve_right fun hmem => htrailer (hdashed b hmem)
  rcases List.prefix_or_prefix_of_prefix (hline ▸ List.prefix_append kept dashed) hbegin with
    hshort | ⟨rest, rfl⟩
  · exact absurd (hshort.subset hkept) hmarker
  · rw [List.drop_left]
    exact (List.mem_append.mp hkept).resolve_left hmarker

theorem colon_not_mem_trailer (line : Bytes) : 0x3A ∉ trailer line := by
  intro h
  have hpassed := List.mem_takeWhile_imp h
  revert hpassed
  decide

variable {progress later : Progress} {line : Bytes} {done : Option Section}

/-- A line without an end marker ends no section. A line with a colon spoils the section, and a
spoiled section stays so up to the next begin line. -/
theorem spoiled_of_fed (hfed : Fed progress line later done) (hinside : progress.label.isSome)
    (hend : ¬ endMarker <+: line) :
    done = none ∧ later.label.isSome ∧ (0x3A ∈ line → Spoiled later) ∧
      (¬ beginMarker <+: line → Spoiled progress → Spoiled later) := by
  cases hfed with
  | @begins label hbegin hlabel =>
    refine ⟨rfl, rfl, fun hcolon => ⟨rfl, .inr ⟨label, rfl, ?_⟩⟩, fun hnot => absurd hbegin hnot⟩
    exact mem_label hbegin hlabel hcolon (by decide) (colon_not_mem_trailer line)
  | outside hbegin hlabel =>
    rw [hlabel] at hinside
    cases hinside
  | ends hbegin hlabel hends htext =>
    exact absurd ((endMarker_prefix_endOf _).trans hends) hend
  | drops hbegin hlabel hends hunknown =>
    exact absurd ((endMarker_prefix_endOf _).trans hends) hend
  | @collects label hbegin hlabel hends =>
    refine ⟨rfl, rfl, fun hcolon => ⟨rfl, .inl ?_⟩, fun _ hspoiled => ⟨rfl, ?_⟩⟩
    · exact List.mem_flatten_of_mem List.mem_cons_self hcolon
    · rcases hspoiled.colon with htext | ⟨other, hother, hmem⟩
      · exact .inl (List.mem_append_right line htext)
      · rw [hlabel] at hother
        cases hother
        exact .inr ⟨label, rfl, hmem⟩

variable {lines rest : List Bytes}

/-- Lines without markers in a spoiled section add no section to the rest, if the rest has none in a
spoiled section. -/
theorem sections_read_spoiled (hspoiled : Spoiled progress)
    (hlines : ∀ line ∈ lines, ¬ endMarker <+: line ∧ ¬ beginMarker <+: line)
    (hrest : ∀ later, Spoiled later → (later.read rest).sections = []) :
    (progress.read (lines ++ rest)).sections = [] := by
  induction lines generalizing progress with
  | nil => exact hrest progress hspoiled
  | cons line lines ih =>
    simp only [List.forall_mem_cons] at hlines
    rw [List.cons_append, List.eq_nil_iff_forall_not_mem]
    intro s hs
    obtain ⟨later, done, hfed, hfound⟩ := mem_sections_cons hs
    obtain ⟨rfl, -, -, hkeeps⟩ := spoiled_of_fed hfed hspoiled.inside hlines.1.1
    rw [ih (hkeeps hlines.1.2 hspoiled) hlines.2] at hfound
    simp at hfound

/-- Lines without end markers, with a colon in one of them and no begin marker behind the first, add
no section to the rest, if the rest has none in a spoiled section. -/
theorem sections_read_colon (hinside : progress.label.isSome)
    (hlines : ∀ line ∈ lines, ¬ endMarker <+: line)
    (hbegin : ∀ line ∈ lines.tail, ¬ beginMarker <+: line)
    (hcolon : ∃ line ∈ lines, 0x3A ∈ line)
    (hrest : ∀ later, Spoiled later → (later.read rest).sections = []) :
    (progress.read (lines ++ rest)).sections = [] := by
  induction lines generalizing progress with
  | nil =>
    obtain ⟨line, hline, -⟩ := hcolon
    cases hline
  | cons line lines ih =>
    simp only [List.forall_mem_cons] at hlines
    rw [List.tail_cons] at hbegin
    rw [List.cons_append, List.eq_nil_iff_forall_not_mem]
    intro s hs
    obtain ⟨later, done, hfed, hfound⟩ := mem_sections_cons hs
    obtain ⟨rfl, hlater, hspoils, -⟩ := spoiled_of_fed hfed hinside hlines.1
    have hnone : (later.read (lines ++ rest)).sections = [] := by
      by_cases hmem : 0x3A ∈ line
      · exact sections_read_spoiled (hspoils hmem)
          (fun other hother => ⟨hlines.2 other hother, hbegin other hother⟩) hrest
      · refine ih hlater hlines.2 (fun other hother => ?_) ?_
        · exact hbegin other (List.mem_of_mem_tail hother)
        · obtain ⟨other, hother, hcolon⟩ := hcolon
          rcases List.mem_cons.mp hother with rfl | hother
          · exact absurd hcolon hmem
          · exact ⟨other, hother, hcolon⟩
    rw [hnone] at hfound
    simp at hfound

end Spoiled

end ClientIdentity.Pem.Section
