/- # The first lines of a text — where a text can be cut

The lines of a text are the pieces between its line feeds, each without its
carriage return, but for the piece at the end (`linesBy_eq`).  A line is known
once its line feed has been read.  So the lines can be found from the front,
one after the other (`linesBy_append_cons`), and the text through its `k`-th
line feed has the first `k` lines of the text, or all of them if there are no
more (`lines_firstLines`).  Lines that were put together come apart again
(`linesBy_flatMap`, `lines_join`), and so do lines with an empty one after each
of them, which are the paragraphs of a text (`paragraphs_join`).
-/
import Mathlib.Data.List.Basic
import ProductLine.Text.Blank
import ProductLine.Text.Lines

namespace ProductLine.Text

section Pieces

variable {α : Type} [BEq α] {feed ret : α} {text piece : List α} {before after : List (List α)}

/-- All pieces but the last are lines, and the last one is unless it is empty. -/
theorem linesBy_eq : linesBy feed ret text =
    (text.splitOn feed).dropLast.map (dropFinal ret) ++
      (text.splitOn feed).getLast?.toList.filter (!·.isEmpty) := by
  unfold linesBy
  dsimp only
  cases (text.splitOn feed).getLast? with
  | none => rw [Option.toList_none, List.filter_nil, List.append_nil]
  | some last =>
    cases last with
    | nil => exact (List.append_nil _).symm
    | cons => rfl

/-- A piece that is not empty is the line in its place, as it is or without a mark at its end. -/
theorem exists_linesBy (ret : α) (cut : text.splitOn feed = before ++ piece :: after)
    (some : piece ≠ []) :
    ∃ line more, linesBy feed ret text = before.map (dropFinal ret) ++ line :: more ∧
      (line = piece ∨ line = dropFinal ret piece) := by
  rw [linesBy_eq, cut]
  cases after with
  | nil =>
    refine ⟨piece, [], ?_, .inl rfl⟩
    rw [List.dropLast_concat, List.getLast?_concat, Option.toList_some,
      List.filter_cons_of_pos (by simpa using some), List.filter_nil]
  | cons next after =>
    refine ⟨dropFinal ret piece, ?_, ?_, .inr rfl⟩
    · exact (next :: after).dropLast.map (dropFinal ret) ++
        (next :: after).getLast?.toList.filter (!·.isEmpty)
    · rw [List.dropLast_append_of_ne_nil (List.cons_ne_nil _ _), List.dropLast_cons_cons,
        List.getLast?_append_of_ne_nil _ (List.cons_ne_nil _ _), List.getLast?_cons_cons,
        List.map_append, List.map_cons, List.append_assoc, List.cons_append]

end Pieces

section Cut

variable {α : Type} [BEq α] [LawfulBEq α] {feed ret : α} {piece rest : List α}

/-- The pieces of a mark have no mark in them. -/
theorem notMem_of_mem_splitOn {mark : α} {text : List α} (h : piece ∈ text.splitOn mark) :
    mark ∉ piece := by
  induction text generalizing piece with
  | nil =>
    rw [List.splitOn_nil, List.mem_singleton] at h
    rw [h]
    exact List.not_mem_nil
  | cons x text ih =>
    rw [List.splitOn_cons_eq_if_modifyHead] at h
    split at h
    case isTrue =>
      rcases List.mem_cons.mp h with rfl | h
      · exact List.not_mem_nil
      · exact ih h
    case isFalse other =>
      have other : ¬ mark = x := fun same => other (beq_iff_eq.mpr same.symm)
      have nonempty := List.splitOn_ne_nil mark text
      generalize text.splitOn mark = pieces at h ih nonempty
      cases pieces with
      | nil => exact absurd rfl nonempty
      | cons first pieces =>
        rw [List.modifyHead_cons] at h
        rcases List.mem_cons.mp h with rfl | h
        · rw [List.mem_cons, not_or]
          exact ⟨other, ih List.mem_cons_self⟩
        · exact ih (List.mem_cons_of_mem first h)

/-- What stands before the first line feed is a line. -/
theorem linesBy_append_cons (h : feed ∉ piece) :
    linesBy feed ret (piece ++ feed :: rest) = dropFinal ret piece :: linesBy feed ret rest := by
  have nonempty := List.splitOn_ne_nil feed rest
  rw [linesBy_eq, linesBy_eq, List.splitOn_append_cons_self_of_not_mem h,
    List.dropLast_cons_of_ne_nil nonempty, List.getLast?_cons_of_ne_nil nonempty, List.map_cons,
    List.cons_append]

/-- A text without a line feed is one line, unless it is empty. -/
theorem linesBy_of_notMem (h : feed ∉ piece) :
    linesBy feed ret piece = if piece = [] then [] else [piece] := by
  unfold linesBy
  rw [List.splitOn_eq_singleton h]
  cases piece <;> rfl

/-- Lines that are put together, with a line feed after each of them, come apart again. -/
theorem linesBy_flatMap {pieces : List (List α)} (clean : ∀ piece ∈ pieces, feed ∉ piece) :
    linesBy feed ret (pieces.flatMap (· ++ [feed])) = pieces.map (dropFinal ret) := by
  induction pieces with
  | nil => rw [List.flatMap_nil, linesBy_of_notMem List.not_mem_nil, if_pos rfl, List.map_nil]
  | cons piece pieces ih =>
    obtain ⟨hpiece, others⟩ := List.forall_mem_cons.mp clean
    rw [List.flatMap_cons, List.append_assoc, List.singleton_append, linesBy_append_cons hpiece,
      ih others, List.map_cons]

end Cut

/-- The text through its `k`-th line feed, or all of it if there are fewer. -/
def firstLines : Nat → List Char → List Char
  | 0, _ => []
  | _ + 1, [] => []
  | k + 1, c :: rest => c :: firstLines (if c = '\n' then k else k + 1) rest

theorem firstLines_append_cons {k : Nat} {piece rest : List Char} (h : '\n' ∉ piece) :
    firstLines (k + 1) (piece ++ '\n' :: rest) = piece ++ '\n' :: firstLines k rest := by
  induction piece with
  | nil => rfl
  | cons c piece ih =>
    rw [List.mem_cons, not_or] at h
    obtain ⟨other, hpiece⟩ := h
    rw [List.cons_append, firstLines, if_neg (Ne.symm other), ih hpiece, List.cons_append]

theorem firstLines_of_notMem {k : Nat} {text : List Char} (h : '\n' ∉ text) :
    firstLines (k + 1) text = text := by
  induction text with
  | nil => rfl
  | cons c text ih =>
    rw [List.mem_cons, not_or] at h
    obtain ⟨other, htext⟩ := h
    rw [firstLines, if_neg (Ne.symm other), ih htext]

/-- The first lines of a text are the lines of what stands first in it. -/
theorem lines_firstLines (k : Nat) (text : List Char) :
    lines (firstLines k text) = (lines text).take k := by
  induction k generalizing text with
  | zero => rw [firstLines, lines, linesBy_of_notMem List.not_mem_nil, if_pos rfl, List.take_zero]
  | succ k ih =>
    by_cases h : '\n' ∈ text
    case pos =>
      obtain ⟨piece, rest, rfl, hpiece⟩ := List.eq_append_cons_of_mem h
      have cut := ih rest
      unfold lines at cut ⊢
      rw [firstLines_append_cons hpiece, linesBy_append_cons hpiece, linesBy_append_cons hpiece,
        List.take_succ_cons, cut]
    case neg =>
      have short : (lines text).length ≤ 1 := by
        rw [lines, linesBy_of_notMem h]
        split <;> simp
      rw [firstLines_of_notMem h, List.take_of_length_le (by omega)]

/-- The lines that have been put together come apart again. -/
theorem lines_join {ls : List String} (h : ∀ l ∈ ls, ∀ c ∈ l.toList, c ≠ '\n' ∧ c ≠ '\r') :
    lines (String.join (ls.map (· ++ "\n"))).toList = ls.map String.toList := by
  have spelled : (String.join (ls.map (· ++ "\n"))).toList =
      (ls.map String.toList).flatMap (· ++ ['\n']) := by
    simp [List.flatMap_map]
  have noFeed : ∀ l ∈ ls.map String.toList, '\n' ∉ l :=
    List.forall_mem_map.mpr fun l hl feed => (h l hl _ feed).1 rfl
  have noReturn : ∀ l ∈ ls.map String.toList, dropFinal '\r' l = l := by
    refine List.forall_mem_map.mpr fun l hl => if_neg fun last => ?_
    exact (h l hl '\r' (List.mem_of_getLast? (beq_iff_eq.mp last))).2 rfl
  rw [spelled, lines, linesBy_flatMap noFeed, List.map_congr_left noReturn, List.map_id']

/-! ## Paragraphs -/

/-- What stands between the blank lines of a text. -/
def paragraphs (text : String) : List String :=
  (((lines text.toList).splitOnP (·.all isBlank)).filter (!·.isEmpty)).map fun ls =>
    String.ofList (['\n'].intercalate ls)

/-- Lines that are not blank, with an empty one after each of them, are cut one by one. -/
theorem splitOnP_isBlank {ls : List (List Char)} (visible : ∀ l ∈ ls, ∃ c ∈ l, isBlank c = false) :
    (ls.flatMap fun l => [l, []]).splitOnP (·.all isBlank) = ls.map ([·]) ++ [[]] := by
  induction ls with
  | nil => rfl
  | cons l ls ih =>
    obtain ⟨⟨c, hc, ink⟩, others⟩ := List.forall_mem_cons.mp visible
    have seen : ∀ l' ∈ [l], l'.all isBlank = false := by
      rw [List.forall_mem_singleton, Bool.eq_false_iff]
      intro all
      exact absurd (List.all_eq_true.mp all c hc) (Bool.eq_false_iff.mp ink)
    have first := List.splitOnP_append_cons_of_forall_mem seen [] rfl
      (ls.flatMap fun l => [l, []])
    rw [ih others] at first
    exact first

/-- Texts of one line that are not blank, with an empty line after each of them, are paragraphs. -/
theorem paragraphs_join {es : List String} (oneLine : ∀ e ∈ es, ∀ c ∈ e.toList, c ≠ '\n' ∧ c ≠ '\r')
    (visible : ∀ e ∈ es, ∃ c ∈ e.toList, isBlank c = false) :
    paragraphs (String.join (es.map (· ++ "\n\n"))) = es := by
  have spelled : String.join (es.map (· ++ "\n\n")) =
      String.join ((es.flatMap fun e => [e, ""]).map (· ++ "\n")) := by
    clear oneLine visible
    induction es with
    | nil => rfl
    | cons e es ih => simp [String.join_cons, ih, String.append_assoc, ← String.toList_inj]
  have cut : lines (String.join (es.map (· ++ "\n\n"))).toList =
      (es.map String.toList).flatMap fun l => [l, []] := by
    rw [spelled, lines_join]
    · simp [List.map_flatMap, List.flatMap_map]
    · intro l hl
      obtain ⟨e, he, hl⟩ := List.mem_flatMap.mp hl
      rcases List.mem_cons.mp hl with rfl | hl
      · exact oneLine l he
      · rw [List.mem_singleton.mp hl]
        intro c hc
        exact absurd hc List.not_mem_nil
  rw [paragraphs, cut, splitOnP_isBlank (List.forall_mem_map.mpr visible)]
  simp [List.filter_map, Function.comp_def]

/-! ## Bytes -/

/-- A text comes back from its bytes. -/
theorem decode?_encode (cs : List Char) : decode? (encode cs) = some cs := by
  have bytes : (⟨(encode cs).toArray⟩ : ByteArray) = cs.utf8Encode :=
    ByteArray.ext List.data_toByteArray.symm
  have valid : cs.utf8Encode.IsValidUTF8 := ByteArray.isValidUTF8_utf8Encode
  have text : String.fromUTF8 cs.utf8Encode valid = String.ofList cs :=
    String.toByteArray_inj.mp String.toByteArray_ofList.symm
  rw [decode?, bytes, String.fromUTF8?, dif_pos valid, text, Option.map_some,
    String.toList_ofList]

end ProductLine.Text
