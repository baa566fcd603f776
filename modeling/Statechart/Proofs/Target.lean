import Statechart.Proofs.Path.Dotted
import Statechart.Target

/-!
# Targets written out and read again

What a text means as a target is written out as a text, and that should mean the
same. It does for every sibling, because its text is the one it was read from, and
for a path of at most one id, because it is written with its mark. A longer path is
written without the mark, as its dots show that it is a path; but if its first id
begins with the mark itself, the text does too, and the id loses it in reading
(`Target.ofText_text_of_mark`).

That is the only exception (`Target.ofText_text_eq_self_iff`).
-/

namespace Statechart

namespace Target

variable {input first second : String} {others : List String} {path : Path}

/-- **A target that its text does not keep**: a path of several ids, the first of which begins
with the mark of a path. -/
def LosesMark (target : Target) : Prop :=
  ∃ first second others, target = .absolute ⟨first :: second :: others⟩
    ∧ first.toList.head? = some '#'

/-! ## Reading -/

/-- What follows the mark is a path. -/
theorem ofText_of_mark {rest : List Char} (h : input.toList = '#' :: rest) :
    ofText input = .absolute (.ofDotted (String.ofList rest)) := by
  unfold ofText
  split
  · rename_i rest' heq
    rw [(List.cons.inj (h.symm.trans heq)).2]
  · rename_i hnot
    exact absurd h (hnot rest)

/-- What does not begin with the mark is a path if it has a dot, and else a sibling. -/
theorem ofText_of_no_mark (h : input.toList.head? ≠ some '#') :
    ofText input = if hasDot input then .absolute (.ofDotted input) else .sibling input := by
  unfold ofText
  split
  · rename_i rest heq
    rw [heq] at h
    exact absurd rfl h
  · rfl

/-- **What a text can mean**: itself, as a sibling, or a path of usable ids. -/
theorem ofText_cases (input : String) :
    (ofText input = .sibling input)
      ∨ ∃ path, ofText input = .absolute path ∧ ∀ id ∈ path.segments, isStateId id = true := by
  by_cases hmark : input.toList.head? = some '#'
  · obtain ⟨rest, hrest⟩ := List.head?_eq_some_iff.mp hmark
    exact Or.inr ⟨_, ofText_of_mark hrest, fun id => Path.isStateId_of_mem_ofDotted⟩
  · rw [ofText_of_no_mark hmark]
    cases hasDot input with
    | false => exact Or.inl rfl
    | true => exact Or.inr ⟨_, rfl, fun id => Path.isStateId_of_mem_ofDotted⟩

/-! ## Reading what was written -/

/-- A path of at most one id is written with its mark, and read back. -/
theorem ofText_text_of_short (hids : ∀ id ∈ path.segments, isStateId id = true)
    (hshort : ¬ 1 < path.length) : ofText (absolute path).text = .absolute path := by
  have htext : (absolute path).text.toList = '#' :: path.dotted.toList := by
    rw [text, if_neg hshort, String.toList_append]
    rfl
  rw [ofText_of_mark htext, String.ofList_toList, Path.ofDotted_dotted hids]

/-- A longer path is written without the mark. -/
theorem text_of_long (first second : String) (others : List String) :
    (absolute ⟨first :: second :: others⟩).text
      = Path.dotted ⟨first :: second :: others⟩ := by
  have hlong : 1 < Path.length ⟨first :: second :: others⟩ := by
    rw [Path.length, List.length_cons, List.length_cons]
    omega
  rw [text, if_pos hlong]

/-- Its text begins with the first id, and then there is a dot. -/
theorem toList_text_of_long (first second : String) (others : List String) :
    (absolute ⟨first :: second :: others⟩).text.toList
      = first.toList ++ '.' :: Dotted.join ((second :: others).map String.toList) := by
  rw [text_of_long, Path.toList_dotted]
  rfl

/-- A longer path is read back if its text does not begin with the mark. -/
theorem ofText_text_of_long
    (hids : ∀ id ∈ first :: second :: others, isStateId id = true)
    (hmark : first.toList.head? ≠ some '#') :
    ofText (absolute ⟨first :: second :: others⟩).text
      = .absolute ⟨first :: second :: others⟩ := by
  have hfirst := (isStateId_iff.mp (hids first List.mem_cons_self)).1
  have hhead : (absolute ⟨first :: second :: others⟩).text.toList.head? ≠ some '#' := by
    rw [toList_text_of_long]
    cases hchars : first.toList with
    | nil => exact absurd hchars hfirst
    | cons char rest =>
      rw [hchars] at hmark
      exact hmark
  have hdot : hasDot (absolute ⟨first :: second :: others⟩).text = true := by
    unfold hasDot
    rw [toList_text_of_long, List.contains_iff_mem]
    exact List.mem_append_right _ List.mem_cons_self
  rw [ofText_of_no_mark hhead, if_pos hdot, text_of_long, Path.ofDotted_dotted hids]

/-- **A first id that begins with the mark** loses it, and is lost if there is nothing
else to it. -/
theorem ofText_text_of_mark {tail : List Char}
    (hids : ∀ id ∈ first :: second :: others, isStateId id = true)
    (hfirst : first.toList = '#' :: tail) :
    ofText (absolute ⟨first :: second :: others⟩).text
      = .absolute ⟨if tail = [] then second :: others
          else String.ofList tail :: second :: others⟩ := by
  have htext := toList_text_of_long first second others
  rw [hfirst, List.cons_append] at htext
  rw [ofText_of_mark htext]
  -- what is left are joined pieces again, and the first of them may be empty
  show absolute (.ofDotted (String.ofList
    (Dotted.join (tail :: (second :: others).map String.toList)))) = _
  have hothers : ∀ id ∈ second :: others, isStateId id = true :=
    fun id hmem => hids id (List.mem_cons_of_mem first hmem)
  rw [Path.ofDotted_join (List.cons_ne_nil _ _), List.filter_cons]
  · cases tail with
    | nil => exact congrArg (absolute ⟨·⟩) (Path.map_filter_toList hothers)
    | cons char rest =>
      exact congrArg (fun ids => absolute ⟨String.ofList (char :: rest) :: ids⟩)
        (Path.map_filter_toList hothers)
  · refine List.forall_mem_cons.mpr ⟨fun hdot => ?_, fun piece hmem => ?_⟩
    · have hnot := (isStateId_iff.mp (hids first List.mem_cons_self)).2
      rw [hfirst] at hnot
      exact hnot (List.mem_cons_of_mem _ hdot)
    · obtain ⟨id, hid, rfl⟩ := List.mem_map.mp hmem
      exact (isStateId_iff.mp (hothers id hid)).2

/-- A target that keeps its mark, if it needs one, is read back. -/
theorem ofText_text_of_keeps (h : ¬ (ofText input).LosesMark) :
    ofText (ofText input).text = ofText input := by
  obtain hsibling | ⟨path, hpath, hids⟩ := ofText_cases input
  · rw [hsibling]
    exact hsibling
  · rw [hpath] at h ⊢
    by_cases hshort : 1 < path.length
    · obtain ⟨segments⟩ := path
      match segments, hshort with
      | first :: second :: others, _ =>
        exact ofText_text_of_long hids fun hmark => h ⟨first, second, others, rfl, hmark⟩
    · exact ofText_text_of_short hids hshort

/-- A target that loses its mark is read back as another path. -/
theorem exists_ne_of_losesMark (h : (ofText input).LosesMark) :
    ∃ path path', ofText input = .absolute path ∧ ofText (ofText input).text = .absolute path'
      ∧ path' ≠ path := by
  obtain ⟨first, second, others, htarget, hmark⟩ := h
  obtain ⟨tail, hfirst⟩ := List.head?_eq_some_iff.mp hmark
  have hids : ∀ id ∈ first :: second :: others, isStateId id = true := by
    obtain hsibling | ⟨path, hpath, hids⟩ := ofText_cases input
    · exact nomatch hsibling.symm.trans htarget
    · obtain rfl := absolute.inj (hpath.symm.trans htarget)
      exact hids
  rw [htarget]
  refine ⟨_, _, rfl, ofText_text_of_mark hids hfirst, fun heq => ?_⟩
  have hsegments := congrArg Path.segments heq
  dsimp only at hsegments
  split at hsegments
  · -- the first id is gone
    exact List.cons_ne_self _ _ hsegments.symm
  · -- the first id is shorter
    have htail := congrArg String.toList (List.cons.inj hsegments).1
    rw [String.toList_ofList, hfirst] at htail
    exact List.cons_ne_self _ _ htail.symm

/-- **What was read from a text is read from its own text again**, and leads to the same path
from every state that handles it, but for a path of several ids whose first id begins with the
mark. Such a target is another one when it is read again, and leads elsewhere from every
state. -/
theorem ofText_text_eq_self_iff (input : String) :
    (ofText (ofText input).text = ofText input ↔ ¬ (ofText input).LosesMark)
      ∧ ∀ source,
        (ofText (ofText input).text).resolveFrom source = (ofText input).resolveFrom source
          ↔ ¬ (ofText input).LosesMark := by
  have hleads (source : Path) : (ofText (ofText input).text).resolveFrom source
      = (ofText input).resolveFrom source → ¬ (ofText input).LosesMark := by
    intro hsame hloses
    obtain ⟨path, path', hpath, hpath', hne⟩ := exists_ne_of_losesMark hloses
    rw [hpath', hpath] at hsame
    exact hne hsame
  refine ⟨⟨fun hsame => hleads .root (by rw [hsame]), ofText_text_of_keeps⟩, fun source => ?_⟩
  exact ⟨hleads source, fun hkeeps => by rw [ofText_text_of_keeps hkeeps]⟩

/-- **A target with two marks** loses one of them when it is written out, and when it is read
again, it leads from below the state `#a` to below the state `a`. -/
theorem ofText_text_ne_self : ofText "##a.b" = .absolute ⟨["#a", "b"]⟩
    ∧ (ofText "##a.b").text = "#a.b"
    ∧ ofText (ofText "##a.b").text = .absolute ⟨["a", "b"]⟩
    ∧ ofText (ofText "##a.b").text ≠ ofText "##a.b" := by
  decide

end Target

end Statechart
