import ClientIdentity.Pem.Block
import ClientIdentity.Proofs.Text.Blank
import ClientIdentity.Proofs.Text.Split
import Mathlib.Tactic.Common

namespace ClientIdentity.Pem

/-- The end marker of every label begins with `endMarker`. -/
theorem endMarker_prefix_endOf (label : Bytes) : endMarker <+: endOf label := by
  rw [endOf, List.append_assoc]
  exact List.prefix_append _ _

namespace Block

variable {block : Block} {name value : String}

/-- The last header of this name has this value. -/
def Says (block : Block) (name value : String) : Prop :=
  ∃ before after, block.headers = before ++ (name, value) :: after ∧
    ∀ header ∈ after, header.1 ≠ name

theorem get?_eq_some_iff : block.get? name = some value ↔ block.Says name value := by
  simp only [get?, Option.map_eq_some_iff, List.find?_eq_some_iff_append, Bool.not_eq_true',
    beq_iff_eq, beq_eq_false_iff_ne]
  constructor
  · rintro ⟨⟨_, _⟩, ⟨rfl, after, before, hheaders, hafter⟩, rfl⟩
    refine ⟨before.reverse, after.reverse, ?_, fun header h => hafter header (List.mem_reverse.mp h)⟩
    simpa using congrArg List.reverse hheaders
  · rintro ⟨before, after, hheaders, hafter⟩
    refine ⟨(name, value), ⟨rfl, after.reverse, before.reverse, ?_, fun header h => ?_⟩, rfl⟩
    · simp [hheaders]
    · exact hafter header (List.mem_reverse.mp h)

/-- `header?` ignores white space at the ends of the line. -/
theorem header?_trim (line : String) : header? (Blank.trim line) = header? line := by
  obtain ⟨before, after, hline, hbefore, hafter⟩ := Blank.exists_append_trim line
  cases hcut : Split.atFirst? ':' (Blank.trim line) with
  | none =>
    have hnone : Split.atFirst? ':' line = none := by
      rw [Split.atFirst?_eq_none_iff, Blank.mem_trim (by decide)] at hcut
      exact Split.atFirst?_eq_none_iff.mpr hcut
    rw [header?, header?, hcut, hnone]
  | some parts =>
    obtain ⟨name, value⟩ := parts
    obtain ⟨htrimmed, hname⟩ := Split.eq_of_atFirst? hcut
    have hparts : line = (String.ofList before ++ name) ++ String.singleton ':' ++
        (value ++ String.ofList after) := by
      apply String.toList_inj.mp
      rw [hline, htrimmed]
      simp
    have hfree : ':' ∉ (String.ofList before ++ name).toList := by
      rw [String.toList_append, String.toList_ofList, List.mem_append, not_or]
      exact ⟨fun hmem => absurd (hbefore ':' hmem) (by decide), hname⟩
    have hwhole : Split.atFirst? ':' line =
        some (String.ofList before ++ name, value ++ String.ofList after) := by
      rw [hparts, Split.atFirst?_append _ hfree]
    have hfront : Blank.trim (String.ofList before ++ name) = Blank.trim name :=
      Blank.trim_append (by rwa [String.toList_ofList])
    have hback : Blank.trim (value ++ String.ofList after) = Blank.trim value :=
      Blank.trim_append_blank (by rwa [String.toList_ofList])
    simp only [header?, hcut, hwhole, Option.map_some, hfront, hback]

theorem get?_eq_none_iff : block.get? name = none ↔ ∀ header ∈ block.headers, header.1 ≠ name := by
  simp [get?]

theorem isEncrypted_eq_false_iff :
    block.isEncrypted = false ↔ ∀ header ∈ block.headers, header.1 ≠ encryptionHeader := by
  rw [isEncrypted, Option.isSome_eq_false_iff, Option.isNone_iff_eq_none, get?_eq_none_iff]

end Block

end ClientIdentity.Pem
