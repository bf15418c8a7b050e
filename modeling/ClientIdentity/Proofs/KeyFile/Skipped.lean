import ClientIdentity.Proofs.KeyFile.Selected
import ClientIdentity.Proofs.Pem.Skipped
import Mathlib.Data.Nat.Digits.Defs

namespace ClientIdentity.KeyFile

open Pem Bytes

/-- The log line about a skipped piece. -/
def skippedLine (piece : Malformed) : Record where
  level := .debug
  topic := .blocks
  text := "skipping malformed PEM block '" ++ Utf8.lossy piece.label ++ "': " ++ piece.fault.message

section Events

theorem events_logSkipped (skipped : List Malformed) :
    (logSkipped skipped).events = skipped.map fun piece => .logged (skippedLine piece) := by
  induction skipped with
  | nil => rfl
  | cons piece skipped ih =>
    rw [List.map_cons, ← ih]
    rfl

variable {reader : SecretReader} {line : Record}

/-- `unlock` logs only lines about the private key. -/
theorem topic_of_mem_unlock {block : Block} (h : .logged line ∈ (unlock reader block).events) :
    line.topic = .privateKey := by
  unfold unlock at h
  split at h
  · cases h
  · rcases Run.mem_events_bind h with hlog | ⟨-, hrest⟩
    · cases List.mem_singleton.mp hlog
      rfl
    · rcases Run.mem_events_bind hrest with hask | ⟨password, hdecrypt⟩
      · cases List.mem_singleton.mp hask
      · split at hdecrypt <;> cases hdecrypt

variable {files : FileSystem} {path : String} {contents : Bytes}

/-- The lines about blocks that `loadPrivateKey` logs are those of the pieces that the search
skips. -/
theorem mem_events_loadPrivateKey (hread : files.read (Utf8.encode path) = .ok contents)
    (hline : .logged line ∈ (loadPrivateKey files reader path).events)
    (htopic : line.topic = .blocks) :
    ∃ piece, .malformed piece ∈ findings contents ∧ line = skippedLine piece := by
  simp only [loadPrivateKey, hread, privateKeyIn] at hline
  rcases Run.mem_events_bind hline with hskipped | ⟨-, hrest⟩
  · rw [events_logSkipped] at hskipped
    obtain ⟨piece, hpiece, hsame⟩ := List.mem_map.mp hskipped
    cases hsame
    exact ⟨piece, mem_findings_of_mem_skipped hpiece, rfl⟩
  · split at hrest
    · cases hrest
    · rcases Run.mem_events_bind hrest with hunlock | ⟨plain, hread⟩
      · rw [topic_of_mem_unlock hunlock] at htopic
        cases htopic
      · cases hread

end Events

section Runs

/-- At least 16 base64 bytes in a row. -/
structure KeyRun (run : Bytes) : Prop where
  length : 16 ≤ run.length
  symbols : ∀ b ∈ run, Segment.isBase64 b = true

variable {run : Bytes} (hrun : KeyRun run)

include hrun

theorem KeyRun.not_infix_short {input : Bytes} (h : input.length < 16) : ¬ run <:+: input := by
  intro hinfix
  have hlong := hrun.length
  have hle := hinfix.length_le
  omega

/-- A run of key text is no infix of an input whose words all have fewer than 16 bytes. -/
theorem KeyRun.not_infix_words {input : Bytes}
    (h : ∀ word ∈ Split.behind (fun b => !Segment.isBase64 b) input, word.length < 16) :
    ¬ run <:+: input := by
  intro hinfix
  have hne : run ≠ [] := by
    rintro rfl
    exact absurd hrun.length (by decide)
  have huncut : ∀ b ∈ run, (!Segment.isBase64 b) = false := by
    intro b hb
    rw [hrun.symbols b hb, Bool.not_true]
  obtain ⟨word, hword, hrest⟩ := Split.exists_mem_behind_of_infix hne huncut hinfix
  exact hrun.not_infix_short (h word hword) hrest

/-- A byte outside base64 is in no run: a run is an infix of what stands in front of it or of what
stands behind it. -/
theorem KeyRun.infix_append_cons_iff {b : UInt8} (hb : Segment.isBase64 b = false)
    {first second : Bytes} : run <:+: first ++ b :: second ↔ run <:+: first ∨ run <:+: second := by
  apply Bytes.infix_append_cons_iff
  intro hmem
  rw [hrun.symbols b hmem] at hb
  cases hb

/-- The digits of a number below 10^15 hold no run. -/
theorem KeyRun.not_infix_number {n : Nat} (hn : n < 10 ^ 15) : ¬ run <:+: Utf8.encode (toString n) := by
  have hdigits : ∀ c ∈ (Nat.repr n).toList, c.val ≤ 127 := by
    intro c hc
    rw [Nat.repr, String.toList_ofList] at hc
    have hdigit := Nat.isDigit_of_mem_toDigits (by decide) (by decide) hc
    rw [Char.isDigit, Bool.and_eq_true, decide_eq_true_eq, decide_eq_true_eq] at hdigit
    exact UInt32.le_trans hdigit.2 (by decide)
  apply hrun.not_infix_short
  have hlength := Nat.repr_length n 15 (by decide) hn
  have hbytes := Utf8.length_encode_of_ascii hdigits
  have hsame : toString n = Nat.repr n := rfl
  rw [hsame]
  omega

/-- Words and a blank in front of a text, if they hold no run themselves, neither add nor remove
one. -/
theorem KeyRun.infix_behind_words_iff {words rest : String}
    (hwords : ¬ run <:+: Utf8.encode words) :
    run <:+: Utf8.encode (words ++ " " ++ rest) ↔ run <:+: Utf8.encode rest := by
  have hblank : Utf8.encode " " = [0x20] := by decide
  rw [Utf8.encode_append, Utf8.encode_append, hblank, List.append_assoc, List.singleton_append,
    hrun.infix_append_cons_iff (by decide), or_iff_right hwords]

/-- The text of a byte and its offset holds no run, if both are below 10^15. -/
theorem KeyRun.not_infix_place {words : String} (hwords : ¬ run <:+: Utf8.encode words)
    {byte position : Nat} (hbyte : byte < 10 ^ 15) (hposition : position < 10 ^ 15) :
    ¬ run <:+: Utf8.encode
      (words ++ " " ++ (toString byte ++ ", offset " ++ toString position ++ ".")) := by
  have hsplit : Utf8.encode (toString byte ++ ", offset " ++ toString position ++ ".") =
      Utf8.encode (toString byte) ++ 0x2C ::
        (Utf8.encode " offset" ++ 0x20 :: (Utf8.encode (toString position) ++ 0x2E :: [])) := by
    have hoffset : Utf8.encode ", offset " = 0x2C :: (Utf8.encode " offset" ++ [0x20]) := by decide
    have hstop : Utf8.encode "." = [0x2E] := by decide
    simp only [Utf8.encode_append, hoffset, hstop, List.append_assoc, List.cons_append,
      List.nil_append]
  rw [hrun.infix_behind_words_iff hwords, hsplit]
  simp only [hrun.infix_append_cons_iff (by decide : Segment.isBase64 0x20 = false),
    hrun.infix_append_cons_iff (by decide : Segment.isBase64 0x2C = false),
    hrun.infix_append_cons_iff (by decide : Segment.isBase64 0x2E = false), not_or]
  exact ⟨hrun.not_infix_number hbyte, hrun.not_infix_short (by decide),
    hrun.not_infix_number hposition, hrun.not_infix_short (by decide)⟩

/-- The message of a base64 fault holds no run, if its offset is below 10^15. -/
theorem KeyRun.not_infix_message {reason : Base64.Fault} (hoffset : reason.offset < 10 ^ 15) :
    ¬ run <:+: Utf8.encode reason.message := by
  have hbyte : ∀ b : UInt8, b.toNat < 10 ^ 15 := by
    intro b
    have hb := b.toNat_lt
    omega
  cases reason with
  | invalidByte byte position =>
    have hwords : ¬ run <:+: Utf8.encode "Invalid symbol" := hrun.not_infix_short (by decide)
    exact hrun.not_infix_place hwords (hbyte byte) hoffset
  | invalidLength length =>
    have hwords : ¬ run <:+: Utf8.encode "Invalid input length:" :=
      hrun.not_infix_words (by decide)
    exact (hrun.infix_behind_words_iff hwords).not.mpr (hrun.not_infix_number hoffset)
  | invalidPadding => exact hrun.not_infix_words (by decide)
  | invalidLastSymbol byte position =>
    have hwords : ¬ run <:+: Utf8.encode "Invalid last symbol" := hrun.not_infix_words (by decide)
    exact hrun.not_infix_place hwords (hbyte byte) hoffset

theorem KeyRun.not_infix_badData {reason : Base64.Fault} (hoffset : reason.offset < 10 ^ 15) :
    ¬ run <:+: Utf8.encode (Segment.Fault.badData reason).message := by
  have hwords : ¬ run <:+: Utf8.encode "invalid data:" := hrun.not_infix_short (by decide)
  exact (hrun.infix_behind_words_iff hwords).not.mpr (hrun.not_infix_message hoffset)

/-- The message of `badHeader` holds the runs of the line it names. -/
theorem KeyRun.infix_badHeader_iff {line : String} :
    run <:+: Utf8.encode (Segment.Fault.badHeader line).message ↔ run <:+: Utf8.encode line := by
  have hwords : ¬ run <:+: Utf8.encode "invalid header:" := hrun.not_infix_short (by decide)
  exact hrun.infix_behind_words_iff hwords

/-- The log line of a piece with the label of a key holds the runs of the message of its fault. -/
theorem KeyRun.infix_skippedLine_iff {piece : Malformed} {kind : KeyKind}
    (hlabel : piece.label = Section.keyLabel kind) :
    run <:+: Utf8.encode (skippedLine piece).text ↔ run <:+: Utf8.encode piece.fault.message := by
  have htext : (skippedLine piece).text =
      "skipping malformed PEM block '" ++ kind.tag ++ "':" ++ " " ++ piece.fault.message := by
    have hmark : "': " = "':" ++ " " := by decide
    rw [skippedLine, hlabel, Section.keyLabel, Utf8.lossy_encode, hmark, ← String.append_assoc]
  have hfront : ¬ run <:+: Utf8.encode ("skipping malformed PEM block '" ++ kind.tag ++ "':") := by
    apply hrun.not_infix_words
    cases kind <;> decide
  rw [htext, hrun.infix_behind_words_iff hfront]

end Runs

namespace Sample

/-- A key with this text between its begin line and its end. -/
def keyPiece (body : Bytes) : Bytes :=
  beginLine (Section.keyLabel .sec1) ++ body ++ endOf (Section.keyLabel .sec1)

/-- A file system that holds nothing but such a key. -/
def keyFile (body : Bytes) : FileSystem :=
  .ofReadings [(Utf8.encode "client.key", .ok (keyPiece body))]

theorem read_keyFile (body : Bytes) :
    (keyFile body).read (Utf8.encode "client.key") = .ok (keyPiece body) := by
  simp [keyFile, FileSystem.ofReadings]

/-- A line of base64, of which two symbols are missing. -/
def short : Bytes := Utf8.encode "\nMHcCAQEEIAECAwQFBg\n"

/-- A line that may be the first one of a key. -/
def secret : Bytes := Utf8.encode "MHcCAQEEIAECAwQF"

/-- That line, and an empty line behind it. -/
def parted : Bytes := 0x0A :: (secret ++ Utf8.encode "\n\nREVG\n")

/-- What is found of it. -/
def partedPiece : Malformed := ⟨Section.keyLabel .sec1, .badHeader "MHcCAQEEIAECAwQF"⟩

theorem step?_parted : step? (keyPiece parted) =
    some (.malformed partedPiece, (keyPiece parted).drop beginMarker.length) := by
  decide

end Sample

/-- `loadPrivateKey` logs exactly one line about blocks for each piece that the search skips. For a
piece of base64 and blank lines, the line shows a run of 16 or more base64 bytes of the piece only
under the fault `badHeader`, which names the first line if an empty line and decodable base64 follow
it. Offsets are below 10^15, since their digits would be a run of their own. -/
theorem loadPrivateKey_skipped {files : FileSystem} {path : String} {contents : Bytes}
    (reader : SecretReader) (hread : files.read (Utf8.encode path) = .ok contents) :
    (∀ line, .logged line ∈ (loadPrivateKey files reader path).events → line.topic = .blocks →
      ∃ piece segment, piece.At contents segment ∧ line = skippedLine piece) ∧
    ∀ piece segment, piece.At contents segment → ∀ (kind : KeyKind) (body : Bytes),
      piece.label = Section.keyLabel kind →
      segment = beginLine piece.label ++ body ++ endOf piece.label →
      (∀ b ∈ body, Segment.isKeyText b = true) → body.length < 10 ^ 15 →
        (∀ run, KeyRun run → (run <:+: Utf8.encode (skippedLine piece).text ↔
          ∃ header, piece.fault = .badHeader header ∧ run <:+: Utf8.encode header)) ∧
        ∀ header, piece.fault = .badHeader header ↔ ∃ part data bytes,
          Segment.divide (body.dropWhile Segment.isGap) = (part, data) ∧
            Segment.contents data = .ok bytes ∧
              (Split.lines (Utf8.ascii part)).head? = some header := by
  constructor
  · intro line hline htopic
    obtain ⟨piece, hpiece, rfl⟩ := mem_events_loadPrivateKey hread hline htopic
    obtain ⟨segment, hat⟩ := exists_at_of_mem_findings hpiece
    exact ⟨piece, segment, hat, rfl⟩
  · rintro piece segment hat kind body hlabel rfl hbody hlength
    have hundashed := (Section.undashed_keyTag kind).1
    have hfails := hat.fails
    rw [hlabel, Section.keyLabel] at hfails
    constructor
    · intro run hrun
      rw [hrun.infix_skippedLine_iff hlabel]
      rcases Segment.badData_or_badHeader_of_keyText (Section.keyTag_ne kind) hundashed hbody
        hfails with ⟨reason, hreason, hoffset⟩ | ⟨line, hline⟩
      · have hnone := hrun.not_infix_badData (hoffset.trans_lt hlength)
        simp [hreason, hnone]
      · simp [hline, hrun.infix_badHeader_iff]
    · intro header
      rw [← Segment.parse_keyText_eq_badHeader_iff (Section.keyTag_ne kind) hundashed hbody, hfails,
        Except.error.injEq]

/-- The log line of a piece with bad padding holds no run. -/
theorem loadPrivateKey_skipped_short :
    (∀ run, KeyRun run → ¬ run <:+: Utf8.encode
      (skippedLine ⟨Section.keyLabel .sec1, .badData .invalidPadding⟩).text) ∧
    KeyRun (Sample.short.filter Segment.isBase64) := by
  have hat : Malformed.At ⟨Section.keyLabel .sec1, .badData .invalidPadding⟩
      (Sample.keyPiece Sample.short) (Sample.keyPiece Sample.short) := by
    have hbegin : beginMarker <+: (Sample.keyPiece Sample.short).drop 0 := by decide +kernel
    have hsegment : segment? ((Sample.keyPiece Sample.short).drop 0) =
        some (Section.keyLabel .sec1, (Sample.keyPiece Sample.short).length) := by decide +kernel
    have hwhole : ((Sample.keyPiece Sample.short).drop 0).take
        (Sample.keyPiece Sample.short).length = Sample.keyPiece Sample.short := by
      rw [List.drop_zero, List.take_length]
    have hfails : Segment.parse (Sample.keyPiece Sample.short) =
        .error (.badData .invalidPadding) := by decide +kernel
    rw [← hwhole] at hfails
    exact hwhole ▸ at_of_segment? hbegin hsegment hfails
  have hshown := (loadPrivateKey_skipped Sample.noReader (Sample.read_keyFile Sample.short)).2 _ _ hat
    .sec1 Sample.short rfl rfl (by decide +kernel) (by decide +kernel)
  constructor
  · intro run hrun hinfix
    obtain ⟨header, hfault, -⟩ := (hshown.1 run hrun).mp hinfix
    cases hfault
  · exact ⟨by decide +kernel, by decide +kernel⟩

/-- The first base64 line of a key stands in the log if an empty line follows it. -/
theorem loadPrivateKey_shows_line :
    KeyRun Sample.secret ∧ Sample.secret <:+: Sample.parted ∧
      (∀ b ∈ Sample.parted, Segment.isKeyText b = true) ∧
      ∃ line, .logged line ∈ (loadPrivateKey (Sample.keyFile Sample.parted) Sample.noReader
        "client.key").events ∧ Sample.secret <:+: Utf8.encode line.text := by
  have hrun : KeyRun Sample.secret := ⟨by decide +kernel, by decide +kernel⟩
  have hlogged : .logged (skippedLine Sample.partedPiece) ∈
      (loadPrivateKey (Sample.keyFile Sample.parted) Sample.noReader "client.key").events := by
    rw [loadPrivateKey, Sample.read_keyFile]
    apply Run.mem_events_bind_left
    rw [events_logSkipped]
    exact List.mem_map.mpr ⟨_, mem_skipped_of_step? Sample.step?_parted, rfl⟩
  refine ⟨hrun, by decide +kernel, by decide +kernel, _, hlogged, ?_⟩
  rw [hrun.infix_skippedLine_iff rfl]
  exact hrun.infix_badHeader_iff.mpr List.infix_rfl

end ClientIdentity.KeyFile
