import Mathlib.Data.List.Chain
import Statechart.Proofs.Path.Prefix

/-!
# The prefixes of paths

The paths at or around a path are its prefixes, and a path is known once it is known
what they are (`Path.ext_startsWith`). The prefixes of two paths at once are those of
what the two share, so the laws of `Path.commonPrefix` are those of "and": it does not
matter in which order paths are compared, nor in which order several of them are, nor
whether one is compared twice.

The prefixes of one path are a chain. There is one of each length up to that of the
path, so each of them is the path cut to its own length, and the two enumerations go
through the chain in opposite directions: `Path.ancestors` from the path outwards, each
path followed by its parent, and `Path.lineage` back from the outermost to the path.
-/

namespace Statechart

namespace Path

/-! ## Paths and what lies around them -/

/-- Two paths that lie around each other are equal. -/
theorem startsWith_antisymm {left right : Path} (h : left.startsWith right = true)
    (h' : right.startsWith left = true) : left = right := by
  have hlength := Nat.le_antisymm (length_le_of_startsWith h') (length_le_of_startsWith h)
  exact eq_of_startsWith_of_length_eq (startsWith_self left) h hlength

/-- **A path is determined by what lies around it.** -/
theorem ext_startsWith {left right : Path}
    (h : ∀ outer, left.startsWith outer = true ↔ right.startsWith outer = true) :
    left = right :=
  startsWith_antisymm ((h right).mpr (startsWith_self right))
    ((h left).mp (startsWith_self left))

/-- **What lies around a path** is the path cut to some length. -/
theorem startsWith_iff_eq_truncated {path outer : Path} :
    path.startsWith outer = true ↔ outer = path.truncated outer.length := by
  rw [startsWith_iff, List.prefix_iff_eq_take]
  exact ⟨fun h => ext_segments h, congrArg segments⟩

/-! ## What paths share -/

theorem commonPrefix_comm (left right : Path) :
    left.commonPrefix right = right.commonPrefix left := by
  apply ext_startsWith
  intro outer
  rw [startsWith_commonPrefix_iff, startsWith_commonPrefix_iff, and_comm]

theorem commonPrefix_assoc (left middle right : Path) :
    (left.commonPrefix middle).commonPrefix right
      = left.commonPrefix (middle.commonPrefix right) := by
  apply ext_startsWith
  intro outer
  simp only [startsWith_commonPrefix_iff, and_assoc]

@[simp] theorem commonPrefix_self (path : Path) : path.commonPrefix path = path := by
  apply ext_startsWith
  intro outer
  rw [startsWith_commonPrefix_iff, and_self_iff]

/-- **A path lies around another** exactly if it is all that they share. -/
theorem startsWith_iff_commonPrefix_eq {path outer : Path} :
    path.startsWith outer = true ↔ path.commonPrefix outer = outer := by
  constructor
  · intro h
    apply ext_startsWith
    intro further
    rw [startsWith_commonPrefix_iff, and_iff_right_iff_imp]
    exact startsWith_trans h
  · intro h
    rw [← h]
    exact startsWith_commonPrefix_left path outer

/-- The ids that two lists share are the first ones of either, as many as agree in both
lists before two do not. -/
theorem commonIds_eq_take (left right : List String) :
    commonIds left right
      = left.take ((left.zip right).takeWhile fun ids => ids.1 == ids.2).length := by
  fun_induction commonIds left right with
  | case1 rest id rest' ih =>
    rw [List.zip_cons_cons, List.takeWhile_cons_of_pos (by simp), List.length_cons,
      List.take_succ_cons, ← ih]
  | case2 id rest id' rest' hne =>
    rw [List.zip_cons_cons, List.takeWhile_cons_of_neg (by simpa using hne), List.length_nil,
      List.take_zero]
  | case3 left right hcons =>
    cases left with
    | nil => rfl
    | cons id rest =>
      cases right with
      | nil => rfl
      | cons id' rest' => exact absurd rfl (hcons id rest id' rest' rfl)

/-- **What two paths share** is the first one, cut where they part. -/
theorem commonPrefix_eq_truncated (left right : Path) :
    left.commonPrefix right = left.truncated
      ((left.segments.zip right.segments).takeWhile fun ids => ids.1 == ids.2).length :=
  ext_segments (commonIds_eq_take _ _)

/-! ## The two enumerations -/

@[simp] theorem parent?_child (path : Path) (id : String) :
    (path.child id).parent? = some path := by
  unfold parent?
  rw [isRoot_child]
  exact congrArg some (parentOrRoot_child path id)

/-- **The ancestors of a path** are the root and its lineage, the other way round. -/
theorem ancestors_eq_reverse (path : Path) : path.ancestors = (root :: path.lineage).reverse := by
  induction path using induction with
  | root => rfl
  | child path id ih =>
    rw [ancestors_child, lineage_child, ih, ← List.cons_append, List.reverse_concat]

/-- The last of the ancestors of a path is the root. -/
@[simp] theorem getLast?_ancestors (path : Path) : path.ancestors.getLast? = some root := by
  rw [ancestors_eq_reverse, List.getLast?_reverse, List.head?_cons]

/-- No path is twice among the ancestors of another. -/
theorem nodup_ancestors (path : Path) : path.ancestors.Nodup := by
  refine (pairwise_ancestors path).imp ?_
  rintro inner outer hlt rfl
  exact Nat.lt_irrefl _ hlt

/-- **Each of the ancestors of a path** is followed by its parent. -/
theorem isChain_ancestors (path : Path) :
    path.ancestors.IsChain fun inner outer => inner.parent? = some outer := by
  induction path using induction with
  | root => exact .singleton root
  | child path id ih =>
    rw [ancestors_child, List.isChain_cons, head?_ancestors]
    refine ⟨?_, ih⟩
    rintro outer ⟨⟩
    exact parent?_child path id

/-- A path comes before every path below it, also if the two are compared. -/
theorem compare_of_liesBelow {path outer : Path} (h : path.LiesBelow outer) :
    compare outer path = .lt :=
  if_pos (lt_of_liesBelow h)

/-! ## The semilattice of paths -/

/-- **Paths are a semilattice under their prefixes, and each of them lists its own.** A
path lies around two others exactly if it lies around what they share; so to take what
paths share is commutative, associative and idempotent, and one path lies around another
exactly if it is what they share. What two paths share is the first one, cut where they
part.

The ancestors of a path are the paths around it, each of them once, ever shorter from the
path to the root, each followed by its parent; they are the root and the lineage of the
path, the other way round. A path lies around another exactly if it is the other cut to
its length, and it comes before the other unless they are equal. -/
theorem prefixes_semilattice (path path' : Path) :
    (∀ outer, path.startsWith outer = true ∧ path'.startsWith outer = true
        ↔ (path.commonPrefix path').startsWith outer = true)
      ∧ path.commonPrefix path' = path'.commonPrefix path
      ∧ (∀ path'', (path.commonPrefix path').commonPrefix path''
          = path.commonPrefix (path'.commonPrefix path''))
      ∧ path.commonPrefix path = path
      ∧ (∀ outer, path.startsWith outer = true ↔ path.commonPrefix outer = outer)
      ∧ path.commonPrefix path' = path.truncated
          ((path.segments.zip path'.segments).takeWhile fun ids => ids.1 == ids.2).length
      ∧ (∀ outer, path.startsWith outer = true ↔ outer ∈ path.ancestors)
      ∧ path.ancestors.Nodup
      ∧ (path.ancestors.Pairwise fun inner outer => outer.length < inner.length)
      ∧ path.ancestors.head? = some path
      ∧ path.ancestors.getLast? = some root
      ∧ path.ancestors = (root :: path.lineage).reverse
      ∧ (path.ancestors.IsChain fun inner outer => inner.parent? = some outer)
      ∧ (∀ outer, path.startsWith outer = true ↔ outer = path.truncated outer.length)
      ∧ ∀ outer, path.startsWith outer = true → outer ≠ path →
          outer < path ∧ compare outer path = .lt := by
  refine ⟨fun _ => startsWith_commonPrefix_iff.symm, commonPrefix_comm path path',
    commonPrefix_assoc path path', commonPrefix_self path,
    fun _ => startsWith_iff_commonPrefix_eq, commonPrefix_eq_truncated path path',
    fun _ => mem_ancestors.symm, nodup_ancestors path, pairwise_ancestors path,
    head?_ancestors path, getLast?_ancestors path, ancestors_eq_reverse path,
    isChain_ancestors path, fun _ => startsWith_iff_eq_truncated, fun outer h hne => ?_⟩
  have hbelow : path.LiesBelow outer := ⟨h, hne.symm⟩
  exact ⟨lt_of_liesBelow hbelow, compare_of_liesBelow hbelow⟩

/-- A sink and a stove share the kitchen they are in, which comes before both of them.
Ids may be empty and may have dots. -/
theorem prefixes_semilattice_kitchen :
    commonPrefix ⟨["house", "", "kitchen.1", "sink"]⟩ ⟨["house", "", "kitchen.1", "stove"]⟩
        = ⟨["house", "", "kitchen.1"]⟩
      ∧ startsWith ⟨["house", "", "kitchen.1", "stove"]⟩ ⟨["house", "", "kitchen.1"]⟩ = true
      ∧ ⟨["house", ""]⟩ ∈ ancestors ⟨["house", "", "kitchen.1", "sink"]⟩
      ∧ compare (Path.mk ["house", "", "kitchen.1"]) ⟨["house", "", "kitchen.1", "sink"]⟩
        = .lt := by
  obtain ⟨hshared, -, -, -, -, hcut, hmem, -, -, -, -, -, -, -, hbefore⟩ :=
    prefixes_semilattice ⟨["house", "", "kitchen.1", "sink"]⟩
      ⟨["house", "", "kitchen.1", "stove"]⟩
  exact ⟨hcut, ((hshared ⟨["house", "", "kitchen.1"]⟩).mpr (by decide)).2,
    (hmem _).mp (by decide), (hbefore ⟨["house", "", "kitchen.1"]⟩ (by decide) (by decide)).2⟩

end Path

end Statechart
