import Statechart.Path.Dotted
import Statechart.Proofs.Path.Prefix

/-!
# Reading dotted text

Cutting a text at its dots and joining pieces with dots undo each other, as long as
no piece has a dot of its own (`Dotted.pieces_join`). A path whose ids are neither
empty nor dotted is therefore read back from its text (`Path.ofDotted_dotted`), and
every path that has been read is such a path (`Path.isStateId_of_mem_ofDotted`).
-/

namespace Statechart

namespace Dotted

variable {text piece : List Char} {ids : List (List Char)}

theorem pieces_eq_splitOn (text : List Char) : pieces text = text.splitOn '.' := by
  induction text with
  | nil => rfl
  | cons char rest ih =>
    rw [pieces, ih, List.splitOn_eq_splitOnP, List.splitOn_eq_splitOnP,
      List.splitOnP_cons_eq_if_modifyHead]
    simp only [beq_iff_eq]
    split
    · rfl
    · cases hpieces : rest.splitOnP (· == '.') with
      | nil => exact absurd hpieces (List.splitOnP_ne_nil _ _)
      | cons first others => rfl

theorem join_eq_intercalate (ids : List (List Char)) : join ids = ['.'].intercalate ids := by
  induction ids with
  | nil => rfl
  | cons id rest ih =>
    cases rest with
    | nil => simp [join]
    | cons next others =>
      rw [join, ih, List.intercalate_cons_cons, List.append_assoc, List.singleton_append]

/-- **Pieces without dots** are found again once they have been joined. -/
theorem pieces_join (hne : ids ≠ []) (h : ∀ id ∈ ids, '.' ∉ id) : pieces (join ids) = ids := by
  rw [pieces_eq_splitOn, join_eq_intercalate]
  exact List.splitOn_intercalate '.' h hne

/-- A text is cut at all of its dots. -/
theorem not_mem_of_mem_pieces (h : piece ∈ pieces text) : '.' ∉ piece := by
  induction text generalizing piece with
  | nil =>
    rw [pieces, List.mem_singleton] at h
    exact h ▸ List.not_mem_nil
  | cons char rest ih =>
    rw [pieces] at h
    split at h
    · obtain rfl | hmem := List.mem_cons.mp h
      · exact List.not_mem_nil
      · exact ih hmem
    · rename_i hchar
      split at h
      · rw [List.mem_singleton.mp h, List.mem_singleton]
        exact Ne.symm hchar
      · rename_i first others hpieces
        rw [hpieces] at ih
        obtain rfl | hmem := List.mem_cons.mp h
        · exact List.not_mem_cons_of_ne_of_not_mem (Ne.symm hchar) (ih List.mem_cons_self)
        · exact ih (List.mem_cons_of_mem first hmem)

end Dotted

theorem isStateId_iff {text : String} :
    isStateId text = true ↔ text.toList ≠ [] ∧ '.' ∉ text.toList := by
  unfold isStateId hasDot
  rw [Bool.and_eq_true, Bool.not_eq_true', Bool.not_eq_true', List.contains_eq_mem,
    decide_eq_false_iff_not, Ne, String.toList_eq_nil_iff]
  refine and_congr_left' ?_
  rw [← String.isEmpty_iff, Bool.not_eq_true]

namespace Path

variable {path : Path} {id text : String}

@[simp] theorem toList_dotted (path : Path) :
    path.dotted.toList = Dotted.join (path.segments.map String.toList) :=
  String.toList_ofList

/-- **Every id of a path that was read** can be one. -/
theorem isStateId_of_mem_ofDotted (h : id ∈ (ofDotted text).segments) : isStateId id = true := by
  obtain ⟨piece, hmem, rfl⟩ := List.mem_map.mp h
  obtain ⟨hpiece, hne⟩ := List.mem_filter.mp hmem
  rw [isStateId_iff, String.toList_ofList]
  refine ⟨?_, Dotted.not_mem_of_mem_pieces hpiece⟩
  rintro rfl
  exact nomatch hne

/-- What is read from joined pieces are the pieces, less those that are empty. -/
theorem ofDotted_join {pieces : List (List Char)} (hne : pieces ≠ [])
    (h : ∀ piece ∈ pieces, '.' ∉ piece) :
    ofDotted (String.ofList (Dotted.join pieces))
      = ⟨(pieces.filter (!·.isEmpty)).map String.ofList⟩ := by
  unfold ofDotted
  rw [String.toList_ofList, Dotted.pieces_join hne h]

/-- Ids are not lost when they are taken for pieces. -/
theorem map_filter_toList {ids : List String} (h : ∀ id ∈ ids, isStateId id = true) :
    ((ids.map String.toList).filter (!·.isEmpty)).map String.ofList = ids := by
  rw [List.filter_eq_self.mpr, List.map_map]
  · exact List.map_id'' (fun id => String.ofList_toList) ids
  · intro piece hmem
    obtain ⟨id, hid, rfl⟩ := List.mem_map.mp hmem
    simpa using (isStateId_iff.mp (h id hid)).1

/-- The pieces of a path's text are its ids, if there are any and none has a dot. -/
theorem pieces_dotted (hne : path.segments ≠ []) (h : ∀ id ∈ path.segments, '.' ∉ id.toList) :
    Dotted.pieces path.dotted.toList = path.segments.map String.toList := by
  rw [toList_dotted]
  refine Dotted.pieces_join (fun hnil => hne (List.map_eq_nil_iff.mp hnil)) ?_
  intro piece hmem
  obtain ⟨id, hid, rfl⟩ := List.mem_map.mp hmem
  exact h id hid

/-- **A path of usable ids is read back from its text.** -/
theorem ofDotted_dotted (h : ∀ id ∈ path.segments, isStateId id = true) :
    ofDotted path.dotted = path := by
  by_cases hsegments : path.segments = []
  · obtain rfl : path = root := ext_segments hsegments
    rfl
  · unfold ofDotted
    rw [pieces_dotted hsegments fun id hid => (isStateId_iff.mp (h id hid)).2, map_filter_toList h]

end Path

end Statechart
