import Statechart.Proofs.Path.Dotted

/-!
# The dotted texts of paths

A path can be written in dotted text if all of its ids are neither empty nor dotted
(`Path.IsPlain`), and it can be read strictly if it is not the root. Its text is then tight: not
empty, without a dot at either end, and without two dots in a row (`Dotted.IsTight`). Strict
reading accepts the tight texts, which are those of plain paths (`Path.ofExactDotted_eq_ok_iff`,
`Dotted.nil_mem_pieces_iff`), so writing and strict reading undo each other in both directions.

Lenient reading makes a plain path of every text, and takes a path for another one exactly if it
is not plain (`Path.ofDotted_dotted_iff`). `Path.dotted_grammar` has it all.
-/

namespace Statechart

namespace Dotted

variable {text : List Char}

/-- **Cutting a text at its dots** can be undone. -/
theorem join_pieces (text : List Char) : join (pieces text) = text := by
  rw [pieces_eq_splitOn, join_eq_intercalate, List.intercalate_splitOn]

theorem pieces_ne_nil (text : List Char) : pieces text ≠ [] := by
  rw [pieces_eq_splitOn]
  exact List.splitOn_ne_nil '.' text

/-- **A text in which dots only separate**: it is not empty, has no dot at either end, and no two
dots in a row. -/
def IsTight (text : List Char) : Prop :=
  text ≠ [] ∧ text.head? ≠ some '.' ∧ text.getLast? ≠ some '.' ∧ ¬ ['.', '.'] <:+: text

/-- The first piece is empty if there is nothing before the first dot. -/
theorem head?_pieces_eq_nil_iff (text : List Char) :
    (pieces text).head? = some [] ↔ text = [] ∨ text.head? = some '.' := by
  cases text with
  | nil => exact iff_of_true rfl (Or.inl rfl)
  | cons char rest =>
    rw [pieces]
    split
    · rename_i hdot
      rw [hdot]
      exact iff_of_true rfl (Or.inr rfl)
    · rename_i hdot
      split <;> simp [hdot]

/-- Any other piece is empty if there is nothing between two dots or after the last one. -/
theorem nil_mem_tail_pieces_iff (text : List Char) :
    [] ∈ (pieces text).tail ↔ text.getLast? = some '.' ∨ ['.', '.'] <:+: text := by
  induction text with
  | nil => simp [pieces]
  | cons char rest ih =>
    have hhead := head?_pieces_eq_nil_iff rest
    rw [pieces, List.infix_cons_iff, List.cons_prefix_cons]
    by_cases hdot : char = '.'
    · -- every piece of the rest comes after this dot
      rw [if_pos hdot, List.tail_cons, hdot]
      cases hpieces : pieces rest with
      | nil => exact absurd hpieces (pieces_ne_nil rest)
      | cons first others =>
        rw [hpieces, List.head?_cons, Option.some.injEq] at hhead
        rw [hpieces, List.tail_cons] at ih
        rw [List.mem_cons, eq_comm, hhead, ih]
        cases rest with
        | nil => simp
        | cons next others =>
          rw [List.cons_prefix_cons, List.getLast?_cons_cons, List.head?_cons, Option.some.injEq]
          simp only [List.cons_ne_nil, false_or, List.nil_prefix, and_true, true_and,
            eq_comm (a := '.')]
          exact or_left_comm
    · -- the character goes to the first piece
      rw [if_neg hdot]
      have hlast : (char :: rest).getLast? = some '.' ↔ rest.getLast? = some '.' := by
        cases rest with
        | nil => simp [hdot]
        | cons next others => rw [List.getLast?_cons_cons]
      rw [hlast, and_iff_left_of_imp (fun h => absurd h (Ne.symm hdot))]
      cases hpieces : pieces rest with
      | nil => exact absurd hpieces (pieces_ne_nil rest)
      | cons first others =>
        rw [hpieces, List.tail_cons] at ih
        rw [List.tail_cons, ih]
        simp [Ne.symm hdot]

/-- **A text has an empty piece** exactly if it is not tight. -/
theorem nil_mem_pieces_iff : [] ∈ pieces text ↔ ¬ IsTight text := by
  have hhead := head?_pieces_eq_nil_iff text
  have htail := nil_mem_tail_pieces_iff text
  unfold IsTight
  cases hpieces : pieces text with
  | nil => exact absurd hpieces (pieces_ne_nil text)
  | cons first others =>
    rw [hpieces, List.head?_cons, Option.some.injEq] at hhead
    rw [hpieces, List.tail_cons] at htail
    rw [List.mem_cons, eq_comm, hhead, htail]
    tauto

end Dotted

namespace Path

variable {path : Path} {text : String} {error : MachineError}

/-- **A path that can be written in dotted text**: its ids are not empty and have no dot. -/
def IsPlain (path : Path) : Prop := ∀ id ∈ path.segments, id ≠ "" ∧ '.' ∉ id.toList

instance (path : Path) : Decidable path.IsPlain :=
  inferInstanceAs (Decidable (∀ id ∈ path.segments, _))

theorem isPlain_iff : path.IsPlain ↔ ∀ id ∈ path.segments, isStateId id = true := by
  refine forall₂_congr fun id _ => ?_
  rw [isStateId_iff, Ne, Ne, String.toList_eq_nil_iff]

/-! ## Strict reading -/

/-- Strict reading cuts a text at its dots, unless a piece is empty. -/
theorem ofExactDotted_eq (text : String) : ofExactDotted text
    = if [] ∈ Dotted.pieces text.toList then .error (.unknownState text)
      else .ok ⟨(Dotted.pieces text.toList).map String.ofList⟩ := by
  refine if_congr ?_ rfl rfl
  rw [List.any_eq_true]
  constructor
  · rintro ⟨piece, hmem, hempty⟩
    exact List.isEmpty_iff.mp hempty ▸ hmem
  · exact fun hmem => ⟨[], hmem, rfl⟩

/-- **Strict reading accepts the texts of plain paths**, the root apart. -/
theorem ofExactDotted_eq_ok_iff :
    ofExactDotted text = .ok path
      ↔ path.segments ≠ [] ∧ path.IsPlain ∧ text = path.dotted := by
  rw [ofExactDotted_eq]
  constructor
  · intro hok
    split at hok
    · exact nomatch hok
    · rename_i hnil
      obtain rfl := Except.ok.inj hok
      refine ⟨?_, isPlain_iff.mpr fun id hmem => ?_, ?_⟩
      · exact fun hempty => Dotted.pieces_ne_nil _ (List.map_eq_nil_iff.mp hempty)
      · obtain ⟨piece, hpiece, rfl⟩ := List.mem_map.mp hmem
        rw [isStateId_iff, String.toList_ofList]
        exact ⟨ne_of_mem_of_not_mem hpiece hnil, Dotted.not_mem_of_mem_pieces hpiece⟩
      · have hsame : String.toList ∘ String.ofList = id := funext fun _ => String.toList_ofList
        rw [dotted, List.map_map, hsame, List.map_id, Dotted.join_pieces, String.ofList_toList]
  · rintro ⟨hne, hplain, rfl⟩
    rw [pieces_dotted hne fun id hid => (hplain id hid).2, if_neg, List.map_map]
    · exact congrArg Except.ok (ext_segments (List.map_id'' (fun id => String.ofList_toList) _))
    · intro hnil
      obtain ⟨id, hid, hempty⟩ := List.mem_map.mp hnil
      exact (hplain id hid).1 (String.toList_eq_nil_iff.mp hempty)

/-- **Strict reading refuses the texts that are not tight**, each with itself. -/
theorem ofExactDotted_eq_error_iff :
    ofExactDotted text = .error error
      ↔ error = .unknownState text ∧ ¬ Dotted.IsTight text.toList := by
  rw [← Dotted.nil_mem_pieces_iff, ofExactDotted_eq]
  split
  · rename_i hnil
    rw [Except.error.injEq, and_iff_left hnil, eq_comm]
  · rename_i hnil
    exact iff_of_false nofun fun h => hnil h.2

/-- Tight texts are read. -/
theorem exists_ofExactDotted_iff :
    (∃ path, ofExactDotted text = .ok path) ↔ Dotted.IsTight text.toList := by
  cases hread : ofExactDotted text with
  | ok path =>
    refine iff_of_true ⟨path, rfl⟩ ?_
    by_contra hloose
    exact nomatch hread.symm.trans (ofExactDotted_eq_error_iff.mpr ⟨rfl, hloose⟩)
  | error error => exact iff_of_false nofun (ofExactDotted_eq_error_iff.mp hread).2

/-! ## Lenient reading -/

/-- **Every text is read as a plain path.** -/
theorem isPlain_ofDotted (text : String) : (ofDotted text).IsPlain :=
  isPlain_iff.mpr fun _ => isStateId_of_mem_ofDotted

/-- **The plain paths are read back from their texts**, and no others. -/
theorem ofDotted_dotted_iff : ofDotted path.dotted = path ↔ path.IsPlain := by
  refine ⟨fun h => ?_, fun hplain => ofDotted_dotted (isPlain_iff.mp hplain)⟩
  rw [← h]
  exact isPlain_ofDotted _

/-- **The dotted texts of paths.** Read strictly, a text means a path exactly if it is the text of
the path, which has at least one id, and all of them neither empty nor dotted; any other text is
refused as itself. So reading strictly and writing are inverse to each other, between the texts
that are not empty, have no dot at either end and no two in a row, and the plain paths other than
the root. Read leniently, every text means a plain path, which is read back from its own text, as
any path is exactly if it is plain. -/
theorem dotted_grammar :
    (∀ text path, ofExactDotted text = .ok path
        ↔ path.segments ≠ [] ∧ path.IsPlain ∧ text = path.dotted)
      ∧ (∀ text error, ofExactDotted text = .error error ↔ error = .unknownState text
          ∧ ¬ ∃ path : Path, path.segments ≠ [] ∧ path.IsPlain ∧ text = path.dotted)
      ∧ (∀ text : String, Dotted.IsTight text.toList →
          ∃ path, ofExactDotted text = .ok path ∧ path.dotted = text)
      ∧ (∀ path : Path, path.segments ≠ [] → path.IsPlain →
          Dotted.IsTight path.dotted.toList ∧ ofExactDotted path.dotted = .ok path)
      ∧ (∀ text, (ofDotted text).IsPlain ∧ ofDotted (ofDotted text).dotted = ofDotted text)
      ∧ ∀ ids : List String, (ofDotted (dotted ⟨ids⟩)).segments = ids
          ↔ ∀ id ∈ ids, id ≠ "" ∧ '.' ∉ id.toList := by
  refine ⟨fun _ _ => ofExactDotted_eq_ok_iff, fun text error => ?_, fun text htight => ?_,
    fun path hne hplain => ?_, fun text => ?_, fun ids => ?_⟩
  · rw [ofExactDotted_eq_error_iff, ← exists_ofExactDotted_iff]
    simp only [ofExactDotted_eq_ok_iff]
  · obtain ⟨path, hok⟩ := exists_ofExactDotted_iff.mpr htight
    exact ⟨path, hok, (ofExactDotted_eq_ok_iff.mp hok).2.2.symm⟩
  · have hok := ofExactDotted_eq_ok_iff.mpr ⟨hne, hplain, rfl⟩
    exact ⟨exists_ofExactDotted_iff.mp ⟨path, hok⟩, hok⟩
  · exact ⟨isPlain_ofDotted text, ofDotted_dotted_iff.mpr (isPlain_ofDotted text)⟩
  · have hsame : (ofDotted (dotted ⟨ids⟩)).segments = ids ↔ ofDotted (dotted ⟨ids⟩) = ⟨ids⟩ :=
      ⟨fun h => ext_segments h, congrArg segments⟩
    exact hsame.trans ofDotted_dotted_iff

/-- Ids may have blanks and marks. A text with two dots in a row is refused, though not if it is
read leniently, and an id with a dot falls into two. -/
theorem dotted_grammar_odd :
    ofExactDotted (dotted ⟨["left #1", "über"]⟩) = .ok ⟨["left #1", "über"]⟩
      ∧ (∃ path, ofExactDotted "left.right" = .ok path ∧ path.dotted = "left.right")
      ∧ ofExactDotted "left..right" = .error (.unknownState "left..right")
      ∧ ofDotted (dotted (ofDotted "left..right")) = ofDotted "left..right"
      ∧ (ofDotted (dotted ⟨["left.right"]⟩)).segments ≠ ["left.right"] := by
  obtain ⟨-, -, htexts, hpaths, hlenient, hids⟩ := dotted_grammar
  have htight : Dotted.IsTight "left.right".toList :=
    ⟨by decide, by decide, by decide, by simp [List.infix_cons_iff]⟩
  refine ⟨(hpaths _ (List.cons_ne_nil _ _) (by decide)).2, htexts _ htight, rfl,
    (hlenient _).2, fun h => ?_⟩
  exact absurd ((hids _).mp h) (by decide)

end Path

end Statechart
