import Mathlib.Data.List.Induction
import Statechart.Path.Basic

/-!
# Paths grow at the inner end

Every path is the root or a child of a shorter path, so what is said of paths is
proved for the root and carried one id inwards (`Path.induction`). Both
enumerations of the paths around a path follow that shape:
`Path.ancestors_child` puts the new path in front, `Path.lineage_child` puts it
at the end.

`Path.startsWith` is the order of paths: `Path.startsWith_child_iff` says that a
child lies below itself and below whatever its parent lies below, and
`Path.mem_ancestors` that the ancestors of a path are exactly the paths it lies
at or below.
-/

namespace Statechart

namespace Path

/-- Paths are equal if their ids are. -/
theorem ext_segments {left right : Path} (h : left.segments = right.segments) : left = right := by
  cases left
  cases right
  exact congrArg Path.mk h

@[simp] theorem segments_root : root.segments = [] := rfl

@[simp] theorem length_root : root.length = 0 := rfl

@[simp] theorem segments_child (path : Path) (id : String) :
    (path.child id).segments = path.segments ++ [id] := rfl

@[simp] theorem length_child (path : Path) (id : String) :
    (path.child id).length = path.length + 1 := by
  simp [length]

theorem isRoot_iff {path : Path} : path.isRoot = true ↔ path = root :=
  List.isEmpty_iff.trans ⟨ext_segments, congrArg segments⟩

@[simp] theorem isRoot_root : root.isRoot = true := rfl

@[simp] theorem isRoot_child (path : Path) (id : String) : (path.child id).isRoot = false := by
  simp [isRoot]

@[simp] theorem child_ne_root (path : Path) (id : String) : path.child id ≠ root := by
  intro h
  simpa using congrArg length h

/-- Children of one path differ in their last ids. -/
theorem child_inj {path : Path} {id id' : String} : path.child id = path.child id' ↔ id = id' := by
  refine ⟨fun h => ?_, congrArg path.child⟩
  exact List.singleton_inj.mp (List.append_cancel_left (congrArg segments h))

@[simp] theorem parentOrRoot_root : root.parentOrRoot = root := rfl

@[simp] theorem parentOrRoot_child (path : Path) (id : String) :
    (path.child id).parentOrRoot = path := by
  apply ext_segments
  simp [parentOrRoot]

/-- **Every path is the root or a child**, and what holds of the root and goes
from every path to its children holds of all paths. -/
@[elab_as_elim] theorem induction {motive : Path → Prop} (root : motive root)
    (child : ∀ path id, motive path → motive (path.child id)) (path : Path) : motive path := by
  obtain ⟨segments⟩ := path
  induction segments using List.reverseRecOn with
  | nil => exact root
  | append_singleton outer id ih => exact child ⟨outer⟩ id ih

/-! ## Truncation and the two enumerations -/

theorem truncated_of_length_le {path : Path} {depth : Nat} (h : path.length ≤ depth) :
    path.truncated depth = path :=
  ext_segments (List.take_of_length_le h)

theorem truncated_child_of_le {path : Path} {depth : Nat} (h : depth ≤ path.length) (id : String) :
    (path.child id).truncated depth = path.truncated depth :=
  ext_segments (List.take_append_of_le_length h)

@[simp] theorem ancestors_root : root.ancestors = [root] := rfl

/-- **The ancestors of a child** are the child and then those of its parent. -/
@[simp] theorem ancestors_child (path : Path) (id : String) :
    (path.child id).ancestors = path.child id :: path.ancestors := by
  unfold ancestors
  -- the greatest depth gives the child itself, any other an ancestor of its parent
  rw [length_child, List.range_succ, List.reverse_append, List.reverse_singleton,
    List.singleton_append, List.map_cons,
    truncated_of_length_le (Nat.le_of_eq (length_child path id))]
  refine congrArg (path.child id :: ·) (List.map_congr_left fun depth hmem => ?_)
  have hlt : depth < path.length + 1 := List.mem_range.mp (List.mem_reverse.mp hmem)
  exact truncated_child_of_le (Nat.le_of_lt_succ hlt) id

/-- The first of the ancestors of a path is the path itself. -/
@[simp] theorem head?_ancestors (path : Path) : path.ancestors.head? = some path := by
  cases path using induction with
  | root => rfl
  | child outer id =>
    rw [ancestors_child]
    rfl

@[simp] theorem lineage_root : root.lineage = [] := rfl

/-- **The lineage of a child** is that of its parent and then the child. -/
@[simp] theorem lineage_child (path : Path) (id : String) :
    (path.child id).lineage = path.lineage ++ [path.child id] := by
  unfold lineage
  rw [length_child, List.range_succ, List.map_append, List.map_singleton,
    truncated_of_length_le (Nat.le_of_eq (length_child path id))]
  refine congrArg (· ++ [path.child id]) (List.map_congr_left fun depth hmem => ?_)
  exact truncated_child_of_le (List.mem_range.mp hmem) id

@[simp] theorem length_lineage (path : Path) : path.lineage.length = path.length := by
  simp [lineage]

/-! ## Paths at or below another -/

theorem startsWith_iff {path outer : Path} :
    path.startsWith outer = true ↔ outer.segments <+: path.segments :=
  List.isPrefixOf_iff_prefix

@[simp] theorem startsWith_self (path : Path) : path.startsWith path = true :=
  startsWith_iff.mpr (List.prefix_refl _)

@[simp] theorem startsWith_root (path : Path) : path.startsWith root = true :=
  startsWith_iff.mpr (List.nil_prefix)

theorem startsWith_trans {inner path outer : Path} (h : inner.startsWith path = true)
    (h' : path.startsWith outer = true) : inner.startsWith outer = true :=
  startsWith_iff.mpr ((startsWith_iff.mp h').trans (startsWith_iff.mp h))

/-- A path below another is no shorter. -/
theorem length_le_of_startsWith {path outer : Path} (h : path.startsWith outer = true) :
    outer.length ≤ path.length :=
  (startsWith_iff.mp h).length_le

/-- The root lies only below itself. -/
theorem eq_root_of_startsWith {outer : Path} (h : root.startsWith outer = true) : outer = root :=
  ext_segments (List.prefix_nil.mp (startsWith_iff.mp h))

/-- **A child lies below itself and below what its parent lies below**, and below
nothing else. -/
theorem startsWith_child_iff {path outer : Path} {id : String} :
    (path.child id).startsWith outer = true
      ↔ outer = path.child id ∨ path.startsWith outer = true := by
  rw [startsWith_iff, startsWith_iff, segments_child, List.prefix_concat_iff]
  exact or_congr_left ⟨fun h => ext_segments h, congrArg segments⟩

theorem startsWith_child (path : Path) (id : String) : (path.child id).startsWith path = true :=
  startsWith_child_iff.mpr (Or.inr (startsWith_self path))

theorem startsWith_parentOrRoot (path : Path) : path.startsWith path.parentOrRoot = true := by
  cases path using induction with
  | root => rfl
  | child outer id =>
    rw [parentOrRoot_child]
    exact startsWith_child outer id

/-- A path at or below a child lies below the parent. -/
theorem startsWith_of_child {inner path : Path} {id : String}
    (h : inner.startsWith (path.child id) = true) : inner.startsWith path = true :=
  startsWith_trans h (startsWith_child path id)

/-- **The ancestors of a path** are the paths it lies at or below. -/
theorem mem_ancestors {path outer : Path} :
    outer ∈ path.ancestors ↔ path.startsWith outer = true := by
  induction path using induction with
  | root =>
    rw [ancestors_root, List.mem_singleton]
    exact ⟨fun h => h ▸ startsWith_self root, eq_root_of_startsWith⟩
  | child path id ih => rw [ancestors_child, List.mem_cons, startsWith_child_iff, ih]

/-- The lineage of a path holds only paths that it lies at or below. -/
theorem startsWith_of_mem_lineage {path outer : Path} (h : outer ∈ path.lineage) :
    path.startsWith outer = true := by
  induction path using induction with
  | root => exact absurd h (by simp)
  | child path id ih =>
    rw [lineage_child, List.mem_append, List.mem_singleton] at h
    exact startsWith_child_iff.mpr (h.symm.imp_right ih)

/-- What two paths share lies around both of them. -/
theorem commonIds_isPrefix (left right : List String) :
    commonIds left right <+: left ∧ commonIds left right <+: right := by
  fun_induction commonIds left right with
  | case1 id rest rest' ih =>
    exact ⟨List.cons_prefix_cons.mpr ⟨rfl, ih.1⟩, List.cons_prefix_cons.mpr ⟨rfl, ih.2⟩⟩
  | case2 => exact ⟨List.nil_prefix, List.nil_prefix⟩
  | case3 => exact ⟨List.nil_prefix, List.nil_prefix⟩

theorem startsWith_commonPrefix_left (left right : Path) :
    left.startsWith (left.commonPrefix right) = true :=
  startsWith_iff.mpr (commonIds_isPrefix _ _).1

theorem startsWith_commonPrefix_right (left right : Path) :
    right.startsWith (left.commonPrefix right) = true :=
  startsWith_iff.mpr (commonIds_isPrefix _ _).2

theorem startsWith_truncated (path : Path) (depth : Nat) :
    path.startsWith (path.truncated depth) = true :=
  startsWith_iff.mpr (List.take_prefix _ _)

@[simp] theorem length_truncated (path : Path) (depth : Nat) :
    (path.truncated depth).length = min depth path.length :=
  List.length_take

/-! ## Paths around the same path

The paths around a path form a chain, so two of them are compared by their
lengths alone. -/

/-- **Of two paths around the same path** the shorter one lies around the
other. -/
theorem startsWith_iff_length_le {path outer inner : Path} (houter : path.startsWith outer = true)
    (hinner : path.startsWith inner = true) :
    inner.startsWith outer = true ↔ outer.length ≤ inner.length :=
  ⟨length_le_of_startsWith, fun hle => startsWith_iff.mpr
    (List.prefix_of_prefix_length_le (startsWith_iff.mp houter) (startsWith_iff.mp hinner) hle)⟩

/-- Paths of the same length around the same path are equal. -/
theorem eq_of_startsWith_of_length_eq {path outer inner : Path}
    (houter : path.startsWith outer = true) (hinner : path.startsWith inner = true)
    (hlength : outer.length = inner.length) : outer = inner := by
  have hle := (startsWith_iff_length_le houter hinner).mpr (Nat.le_of_eq hlength)
  exact ext_segments ((startsWith_iff.mp hle).eq_of_length hlength)

/-- **A path lies properly below another.** -/
def LiesBelow (path outer : Path) : Prop := path.startsWith outer = true ∧ path ≠ outer

instance (path outer : Path) : Decidable (path.LiesBelow outer) :=
  inferInstanceAs (Decidable (_ ∧ _))

/-- What lies around a path is the path itself or lies properly around it. -/
theorem startsWith_iff_eq_or_liesBelow {path outer : Path} :
    path.startsWith outer = true ↔ outer = path ∨ path.LiesBelow outer := by
  constructor
  · intro h
    by_cases heq : outer = path
    · exact Or.inl heq
    · exact Or.inr ⟨h, Ne.symm heq⟩
  · rintro (rfl | h)
    · exact startsWith_self outer
    · exact h.1

/-- What lies around a path lies properly around it if it is shorter. -/
theorem liesBelow_iff_length_lt {path outer : Path} (h : path.startsWith outer = true) :
    path.LiesBelow outer ↔ outer.length < path.length := by
  have hle := length_le_of_startsWith h
  constructor
  · rintro ⟨-, hne⟩
    refine Nat.lt_of_le_of_ne hle fun heq => hne ?_
    exact (eq_of_startsWith_of_length_eq h (startsWith_self path) heq).symm
  · intro hlt
    refine ⟨h, ?_⟩
    rintro rfl
    exact Nat.lt_irrefl _ hlt

/-- **What lies properly around a path** has a child on the way to it. -/
theorem liesBelow_iff_exists_child {path outer : Path} :
    path.LiesBelow outer ↔ ∃ id, path.startsWith (outer.child id) = true := by
  constructor
  · rintro ⟨h, hne⟩
    obtain ⟨rest, hrest⟩ := startsWith_iff.mp h
    cases rest with
    | nil =>
      rw [List.append_nil] at hrest
      exact absurd (ext_segments hrest.symm) hne
    | cons id rest =>
      refine ⟨id, startsWith_iff.mpr ⟨rest, ?_⟩⟩
      rw [segments_child, List.append_assoc, List.singleton_append, hrest]
  · rintro ⟨id, h⟩
    have hle := length_le_of_startsWith h
    rw [length_child] at hle
    exact (liesBelow_iff_length_lt (startsWith_of_child h)).mpr hle

/-! ## The order of paths -/

/-- **A path comes before every path below it.** -/
theorem lt_of_liesBelow {path outer : Path} (h : path.LiesBelow outer) : outer < path := by
  obtain ⟨⟨below, hbelow⟩, hne⟩ := h.imp_left startsWith_iff.mp
  cases below with
  | nil =>
    rw [List.append_nil] at hbelow
    exact absurd (ext_segments hbelow.symm) hne
  | cons id below =>
    show outer.segments < path.segments
    have hlt : outer.segments ++ [] < outer.segments ++ id :: below :=
      List.append_left_lt (List.nil_lt_cons id below)
    rwa [List.append_nil, hbelow] at hlt

/-- No path comes before itself. -/
theorem lt_irrefl (path : Path) : ¬ path < path := List.lt_irrefl path.segments

/-- Of two paths at most one comes before the other. -/
theorem lt_asymm {path path' : Path} (h : path < path') : ¬ path' < path := List.lt_asymm h

/-- **What lies around a truncated path** lies around the whole one and is short
enough. -/
theorem startsWith_truncated_iff {path outer : Path} {depth : Nat} :
    (path.truncated depth).startsWith outer = true
      ↔ path.startsWith outer = true ∧ outer.length ≤ depth := by
  constructor
  · intro h
    have hle := length_le_of_startsWith h
    rw [length_truncated] at hle
    exact ⟨startsWith_trans (startsWith_truncated path depth) h, by omega⟩
  · rintro ⟨h, hdepth⟩
    have hle := length_le_of_startsWith h
    refine (startsWith_iff_length_le h (startsWith_truncated path depth)).mpr ?_
    rw [length_truncated]
    omega

theorem isPrefix_commonIds_iff {ids left right : List String} :
    ids <+: commonIds left right ↔ ids <+: left ∧ ids <+: right := by
  refine ⟨fun h => ⟨h.trans (commonIds_isPrefix left right).1,
    h.trans (commonIds_isPrefix left right).2⟩, ?_⟩
  rintro ⟨⟨others, rfl⟩, hright⟩
  induction ids generalizing right with
  | nil => exact List.nil_prefix
  | cons id ids ih =>
    obtain ⟨others', rfl⟩ := hright
    rw [List.cons_append, List.cons_append, commonIds, if_pos rfl]
    exact List.cons_prefix_cons.mpr ⟨rfl, ih (List.prefix_append ids others')⟩

/-- **What lies around two paths** lies around what they share. -/
theorem startsWith_commonPrefix_iff {left right outer : Path} :
    (left.commonPrefix right).startsWith outer = true
      ↔ left.startsWith outer = true ∧ right.startsWith outer = true := by
  rw [startsWith_iff, startsWith_iff, startsWith_iff]
  exact isPrefix_commonIds_iff

/-! ## The paths around a path below some depth -/

/-- The ancestors of a path are strictly shortening. -/
theorem pairwise_ancestors (path : Path) :
    path.ancestors.Pairwise fun inner outer => outer.length < inner.length := by
  induction path using induction with
  | root => exact List.pairwise_singleton _ _
  | child path id ih =>
    rw [ancestors_child]
    refine List.Pairwise.cons (fun outer hmem => ?_) ih
    have hle := length_le_of_startsWith (mem_ancestors.mp hmem)
    rw [length_child]
    exact Nat.lt_succ_of_le hle

/-- The lineage of a path is strictly lengthening. -/
theorem pairwise_lineage (path : Path) :
    path.lineage.Pairwise fun outer inner => outer.length < inner.length := by
  induction path using induction with
  | root => exact List.Pairwise.nil
  | child path id ih =>
    rw [lineage_child, List.pairwise_append]
    refine ⟨ih, List.pairwise_singleton _ _, fun outer hmem inner hinner => ?_⟩
    have hle := length_le_of_startsWith (startsWith_of_mem_lineage hmem)
    rw [List.mem_singleton.mp hinner, length_child]
    exact Nat.lt_succ_of_le hle

/-- **The innermost part of a lineage** from some depth holds what is longer. -/
theorem mem_drop_lineage {path outer : Path} {depth : Nat} :
    outer ∈ path.lineage.drop depth ↔ path.startsWith outer = true ∧ depth < outer.length := by
  induction path using induction with
  | root =>
    rw [lineage_root, List.drop_nil]
    refine iff_of_false nofun ?_
    rintro ⟨h, hlt⟩
    rw [eq_root_of_startsWith h] at hlt
    exact Nat.not_lt_zero _ hlt
  | child path id ih =>
    by_cases hle : depth ≤ path.length
    · rw [lineage_child, List.drop_append_of_le_length (by rwa [length_lineage]), List.mem_append,
        List.mem_singleton, ih, startsWith_child_iff]
      constructor
      · rintro (⟨h, hdepth⟩ | rfl)
        · exact ⟨Or.inr h, hdepth⟩
        · rw [length_child]
          exact ⟨Or.inl rfl, Nat.lt_succ_of_le hle⟩
      · rintro ⟨h, hdepth⟩
        exact (h.imp_right (⟨·, hdepth⟩)).symm
    · have hnil : (path.child id).lineage.length ≤ depth := by
        rw [length_lineage, length_child]
        omega
      rw [List.drop_of_length_le hnil]
      refine iff_of_false nofun ?_
      rintro ⟨h, hdepth⟩
      have hlength := length_le_of_startsWith h
      rw [length_child] at hlength
      omega

/-- **The innermost ancestors of a path** down to some depth are the innermost part of its
lineage, read the other way round. -/
theorem takeWhile_ancestors (path : Path) (depth : Nat) :
    path.ancestors.takeWhile (fun outer => depth < outer.length)
      = (path.lineage.drop depth).reverse := by
  induction path using induction with
  | root => simp
  | child path id ih =>
    rw [ancestors_child, lineage_child]
    by_cases hle : depth ≤ path.length
    · have hlt : depth < (path.child id).length := by
        rw [length_child]
        exact Nat.lt_succ_of_le hle
      rw [List.takeWhile_cons_of_pos (by simpa using hlt), ih,
        List.drop_append_of_le_length (by rwa [length_lineage]), List.reverse_append]
      rfl
    · have hge : (path.child id).length ≤ depth := by
        rw [length_child]
        exact Nat.lt_of_not_le hle
      have hnil : (path.lineage ++ [path.child id]).length ≤ depth := by
        rwa [← lineage_child, length_lineage]
      rw [List.takeWhile_cons_of_neg (by simpa using hge), List.drop_of_length_le hnil,
        List.reverse_nil]

/-- They are those that are longer. -/
theorem mem_takeWhile_ancestors {path outer : Path} {depth : Nat} :
    outer ∈ path.ancestors.takeWhile (fun outer => depth < outer.length)
      ↔ path.startsWith outer = true ∧ depth < outer.length := by
  rw [takeWhile_ancestors, List.mem_reverse, mem_drop_lineage]

end Path

end Statechart
