import ClientIdentity.Text.Split
import Mathlib.Data.List.Basic
import Mathlib.Data.List.TakeWhile
import Mathlib.Tactic.Common

namespace ClientIdentity.Split

/-- `atFirst?` of a text without the mark, the mark and more returns both texts. -/
theorem atFirst?_append {mark : Char} {before : String} (after : String)
    (h : mark ∉ before.toList) :
    atFirst? mark (before ++ String.singleton mark ++ after) = some (before, after) := by
  have hall : ∀ c ∈ before.toList, (c != mark) = true := by
    intro c hc
    rw [bne_iff_ne]
    rintro rfl
    exact h hc
  have htext : (before ++ String.singleton mark ++ after).toList =
      before.toList ++ mark :: after.toList := by
    simp
  rw [atFirst?, htext, List.dropWhile_append_of_pos hall, List.takeWhile_append_of_pos hall]
  simp

/-- The texts that `atFirst?` returns are the input around a mark, and the first of them does not
hold it. -/
theorem eq_of_atFirst? {mark : Char} {text before after : String}
    (h : atFirst? mark text = some (before, after)) :
    text = before ++ String.singleton mark ++ after ∧ mark ∉ before.toList := by
  unfold atFirst? at h
  split at h
  · cases h
  · rename_i c rest hdrop
    obtain ⟨rfl, rfl⟩ := Prod.mk.inj (Option.some.inj h)
    have hmark : c = mark := by
      have hhead := List.head?_dropWhile_not (· != mark) text.toList
      rw [hdrop] at hhead
      simpa using hhead
    have hsplit := List.takeWhile_append_dropWhile (p := (· != mark)) (l := text.toList)
    rw [hdrop, hmark] at hsplit
    constructor
    · apply String.toList_inj.mp
      simpa using hsplit.symm
    · intro hmem
      rw [String.toList_ofList] at hmem
      simpa using List.mem_takeWhile_imp hmem

/-- `atFirst?` fails exactly if the text does not hold the mark. -/
theorem atFirst?_eq_none_iff {mark : Char} {text : String} :
    atFirst? mark text = none ↔ mark ∉ text.toList := by
  have hall : (text.toList.dropWhile (· != mark)) = [] ↔ mark ∉ text.toList := by
    simp only [List.dropWhile_eq_nil_iff, bne_iff_ne]
    exact ⟨fun h hmem => h mark hmem rfl, fun h c hc hmark => h (hmark ▸ hc)⟩
  rw [atFirst?, ← hall]
  cases text.toList.dropWhile (· != mark) <;> simp

/-- `behind` cuts off a line with the element that ends it. -/
theorem behind_append_cons {α : Type} {endsLine : α → Bool} {line : List α} {a : α}
    (hline : ∀ b ∈ line, endsLine b = false) (ha : endsLine a = true) (rest : List α) :
    behind endsLine (line ++ a :: rest) = (line ++ [a]) :: behind endsLine rest := by
  induction line with
  | nil => simp [behind, ha]
  | cons b line ih =>
    simp only [List.forall_mem_cons] at hline
    have hrest := ih hline.2
    unfold behind at hrest ⊢
    rw [List.cons_append, List.foldr_cons, hrest]
    simp [hline.1]

/-- `behind` of an input without an ending is one piece. -/
theorem behind_of_forall {α : Type} {endsLine : α → Bool} {line : List α} (hne : line ≠ [])
    (hline : ∀ b ∈ line, endsLine b = false) : behind endsLine line = [line] := by
  induction line with
  | nil => exact absurd rfl hne
  | cons b line ih =>
    simp only [List.forall_mem_cons] at hline
    cases line with
    | nil => simp [behind, hline.1]
    | cons c line =>
      have hrest := ih (by simp) hline.2
      unfold behind at hrest ⊢
      rw [List.foldr_cons, hrest]
      simp [hline.1]

section Pieces

variable {α : Type} {endsLine : α → Bool} {input piece : List α}

theorem behind_cons (a : α) (rest : List α) :
    behind endsLine (a :: rest) =
      if endsLine a then [a] :: behind endsLine rest
      else
        match behind endsLine rest with
        | [] => [[a]]
        | piece :: more => (a :: piece) :: more := rfl

theorem flatten_behind (endsLine : α → Bool) (input : List α) : (behind endsLine input).flatten = input := by
  induction input with
  | nil => rfl
  | cons a rest ih =>
    rw [behind_cons]
    split_ifs
    · rw [List.flatten_cons, ih, List.singleton_append]
    · split <;> rename_i hpieces <;> rw [hpieces] at ih <;> simp_all

/-- `behind` of an input that ends a line and more are the pieces of each. -/
theorem behind_append {a : α} (ha : endsLine a = true) (before rest : List α) :
    behind endsLine (before ++ a :: rest) =
      behind endsLine (before ++ [a]) ++ behind endsLine rest := by
  induction before with
  | nil => simp [ha, behind]
  | cons c before ih =>
    rw [List.cons_append, List.cons_append, behind_cons, behind_cons, ih]
    split_ifs
    · rfl
    · cases hpieces : behind endsLine (before ++ [a]) with
      | nil =>
        have hflat := flatten_behind endsLine (before ++ [a])
        simp [hpieces] at hflat
      | cons first more => rfl

/-- The first piece of `behind` begins with a run without endings at the beginning of the input. -/
theorem exists_behind_append {run : List α} (hne : run ≠ [])
    (hrun : ∀ a ∈ run, endsLine a = false) (after : List α) :
    ∃ tail more, behind endsLine (run ++ after) = (run ++ tail) :: more := by
  induction run with
  | nil => exact absurd rfl hne
  | cons a run ih =>
    rw [List.forall_mem_cons] at hrun
    rw [List.cons_append, behind_cons, if_neg (by simp [hrun.1])]
    cases run with
    | nil =>
      cases behind endsLine ([] ++ after) with
      | nil => exact ⟨[], [], rfl⟩
      | cons piece more => exact ⟨piece, more, rfl⟩
    | cons b run =>
      obtain ⟨tail, more, hpieces⟩ := ih (List.cons_ne_nil b run) hrun.2
      rw [hpieces]
      exact ⟨tail, more, rfl⟩

/-- A run without endings in the input is in one piece of `behind`. -/
theorem exists_mem_behind_of_infix {run : List α} (hne : run ≠ [])
    (hrun : ∀ a ∈ run, endsLine a = false) (h : run <:+: input) :
    ∃ piece ∈ behind endsLine input, run <:+: piece := by
  obtain ⟨before, after, rfl⟩ := h
  rw [List.append_assoc]
  induction before with
  | nil =>
    obtain ⟨tail, more, hpieces⟩ := exists_behind_append hne hrun after
    rw [List.nil_append, hpieces]
    exact ⟨_, List.mem_cons_self, (List.prefix_append run tail).isInfix⟩
  | cons c before ih =>
    obtain ⟨piece, hpiece, hinfix⟩ := ih
    rw [List.cons_append, behind_cons]
    split_ifs
    · exact ⟨piece, List.mem_cons_of_mem _ hpiece, hinfix⟩
    · split
      · rename_i hpieces
        rw [hpieces] at hpiece
        cases hpiece
      · rename_i first more hpieces
        rw [hpieces] at hpiece
        rcases List.mem_cons.mp hpiece with rfl | hlater
        · exact ⟨_, List.mem_cons_self, List.infix_cons hinfix⟩
        · exact ⟨piece, List.mem_cons_of_mem _ hlater, hinfix⟩

/-- A piece of `behind` is not empty and has an ending at its end only. -/
theorem exists_of_mem_behind (h : piece ∈ behind endsLine input) :
    ∃ front last, piece = front ++ [last] ∧ ∀ a ∈ front, endsLine a = false := by
  induction input generalizing piece with
  | nil => cases h
  | cons a rest ih =>
    rw [behind_cons] at h
    split_ifs at h with ha
    · rcases List.mem_cons.mp h with rfl | hlater
      · exact ⟨[], a, rfl, List.forall_mem_nil _⟩
      · exact ih hlater
    · split at h
      · obtain rfl := List.mem_singleton.mp h
        exact ⟨[], a, rfl, List.forall_mem_nil _⟩
      · rename_i first more hpieces
        rw [hpieces] at ih
        rcases List.mem_cons.mp h with rfl | hlater
        · obtain ⟨front, last, rfl, hfront⟩ := ih List.mem_cons_self
          refine ⟨a :: front, last, rfl, List.forall_mem_cons.mpr ⟨?_, hfront⟩⟩
          rwa [Bool.not_eq_true] at ha
        · exact ih (List.mem_cons_of_mem _ hlater)

/-- Every piece of `behind` but the last one ends a line. -/
theorem ends_of_mem_dropLast_behind (h : piece ∈ (behind endsLine input).dropLast) :
    ∀ a ∈ piece.getLast?, endsLine a = true := by
  induction input generalizing piece with
  | nil => cases h
  | cons a rest ih =>
    rw [behind_cons] at h
    split_ifs at h with ha
    · cases hrest : behind endsLine rest with
      | nil => simp [hrest] at h
      | cons first more =>
        rw [hrest, List.dropLast_cons_cons] at h
        rw [hrest] at ih
        rcases List.mem_cons.mp h with rfl | hlater
        · simpa using ha
        · exact ih hlater
    · split at h
      · simp at h
      · rename_i first more hpieces
        rw [hpieces] at ih
        cases more with
        | nil => simp at h
        | cons second more =>
          rw [List.dropLast_cons_cons] at h ih
          rcases List.mem_cons.mp h with rfl | hlater
          · have hfirst := ih List.mem_cons_self
            have hne : first ≠ [] := by
              obtain ⟨front, last, rfl, -⟩ := exists_of_mem_behind
                (hpieces ▸ List.mem_cons_self : first ∈ behind endsLine rest)
              simp
            rwa [List.getLast?_cons_of_ne_nil hne]
          · exact ih (List.mem_cons_of_mem _ hlater)

/-- A piece of `behind` stands at the beginning of the input or behind an ending. -/
theorem eq_append_of_behind_eq {before after : List (List α)}
    (h : behind endsLine input = before ++ piece :: after) :
    input = before.flatten ++ piece ++ after.flatten ∧
      (before = [] ∨ ∃ front a, before.flatten = front ++ [a] ∧ endsLine a = true) := by
  refine ⟨?_, ?_⟩
  · rw [← flatten_behind endsLine input, h]
    simp
  · rcases List.eq_nil_or_concat before with rfl | ⟨front, last, rfl⟩
    · exact .inl rfl
    · rw [List.concat_eq_append] at h ⊢
      have hmem : last ∈ (behind endsLine input).dropLast := by
        rw [h, List.dropLast_append_of_ne_nil (by simp)]
        simp
      obtain ⟨line, a, rfl, -⟩ := exists_of_mem_behind ((List.dropLast_sublist _).subset hmem)
      refine .inr ⟨front.flatten ++ line, a, ?_, ends_of_mem_dropLast_behind hmem a (by simp)⟩
      rw [List.flatten_append, List.flatten_singleton, List.append_assoc]

theorem exists_append_of_mem_behind (h : piece ∈ behind endsLine input) :
    ∃ before after, input = before ++ piece ++ after ∧
      (before = [] ∨ ∃ front a, before = front ++ [a] ∧ endsLine a = true) := by
  obtain ⟨before, after, hpieces⟩ := List.append_of_mem h
  obtain ⟨hinput, hbefore⟩ := eq_append_of_behind_eq hpieces
  refine ⟨before.flatten, after.flatten, hinput, hbefore.imp_left ?_⟩
  rintro rfl
  rfl

/-- Every piece of `behind` but the first one stands behind an ending. -/
theorem exists_append_of_mem_tail_behind (h : piece ∈ (behind endsLine input).tail) :
    ∃ front a after, input = front ++ a :: (piece ++ after) ∧ endsLine a = true := by
  obtain ⟨before, after, htail⟩ := List.append_of_mem h
  cases hpieces : behind endsLine input with
  | nil => simp [hpieces] at h
  | cons first more =>
    rw [hpieces, List.tail_cons] at htail
    rw [htail, ← List.cons_append] at hpieces
    obtain ⟨hinput, hnil | ⟨front, a, hfront, ha⟩⟩ := eq_append_of_behind_eq hpieces
    · cases hnil
    · refine ⟨front, a, after.flatten, ?_, ha⟩
      rw [hinput, hfront]
      simp

end Pieces

/-- The result of `dropEnding` is a prefix of the line. -/
theorem dropEnding_prefix (line : List Char) : dropEnding line <+: line := by
  unfold dropEnding
  split_ifs
  · exact (List.dropLast_prefix _).trans (List.dropLast_prefix _)
  · exact List.dropLast_prefix _
  · exact List.prefix_rfl

theorem not_mem_dropEnding {front : List Char} {last : Char} (hfront : '\n' ∉ front) :
    '\n' ∉ dropEnding (front ++ [last]) := by
  unfold dropEnding
  rw [List.getLast?_concat, List.dropLast_concat]
  split_ifs with hlast
  · exact fun h => hfront ((List.dropLast_sublist _).subset h)
  · exact hfront
  · intro h
    rcases List.mem_append.mp h with hmem | hmem
    · exact hfront hmem
    · exact hlast (congrArg some (List.mem_singleton.mp hmem).symm)

/-- A line of a text has no line feed and stands at the beginning or behind a line feed. -/
theorem exists_append_of_mem_lines {text line : String} (h : line ∈ lines text) :
    '\n' ∉ line.toList ∧ ∃ before after, text.toList = before ++ line.toList ++ after ∧
      (before = [] ∨ ∃ front, before = front ++ ['\n']) := by
  obtain ⟨piece, hpiece, rfl⟩ := List.mem_map.mp h
  obtain ⟨before, after, htext, hbefore⟩ := exists_append_of_mem_behind hpiece
  obtain ⟨ending, hending⟩ := dropEnding_prefix piece
  rw [String.toList_ofList]
  refine ⟨?_, before, ending ++ after, ?_, hbefore.imp_right ?_⟩
  · obtain ⟨front, last, rfl, hfront⟩ := exists_of_mem_behind hpiece
    refine not_mem_dropEnding fun hlf => ?_
    simpa using hfront _ hlf
  · rw [htext]
    conv_lhs => rw [← hending]
    simp
  · rintro ⟨front, c, rfl, hc⟩
    exact ⟨front, by rw [beq_iff_eq.mp hc]⟩

theorem dropEnding_of_not_mem {line : List Char} (h : '\n' ∉ line) : dropEnding line = line := by
  rw [dropEnding, if_neg]
  intro hlast
  exact h (List.mem_of_getLast? hlast)

theorem dropEnding_lf {line : List Char} (h : line.getLast? ≠ some '\r') :
    dropEnding (line ++ ['\n']) = line := by
  rw [dropEnding, if_pos (by simp), List.dropLast_concat, if_neg h]

theorem dropEnding_crlf (line : List Char) : dropEnding (line ++ ['\r', '\n']) = line := by
  have happend : line ++ ['\r', '\n'] = (line ++ ['\r']) ++ ['\n'] := by simp
  rw [dropEnding, happend, if_pos (by simp), List.dropLast_concat, if_pos (by simp),
    List.dropLast_concat]

end ClientIdentity.Split
