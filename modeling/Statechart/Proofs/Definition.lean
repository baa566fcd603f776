import Statechart.Definition
import Statechart.Proofs.Node.Document
import Statechart.Proofs.Tree.Visit

/-!
# A definition goes through JSON unchanged

The text of a definition is read as the definition (`Definition.ofText_text`),
whatever strings it holds, whether or not its root is a tree and with a start path or
without, provided that its targets are what their texts mean and that it nests no
deeper than the reader goes. The fields of the root and the start path stand in one
object and do not get in each other's way, because no field of a node is called
`startPath` (`Node.ne_startPath_of_mem_fields`).
-/

namespace Statechart

open Json (Document)
open Json.Document (named named_nil named_cons named_append record_eq)

namespace Node

theorem ne_startPath_of_mem_fields {node : Node} {field : String × Document}
    (h : field ∈ node.fields) : field.1 ≠ "startPath" := by
  intro heq
  have hname := (mem_fields h).1
  rw [heq] at hname
  exact absurd hname (by decide)

/-- Whether all targets read back can be seen from the nodes one by one. -/
theorem targetsReadBack_iff {root : Node} : root.TargetsReadBack
    ↔ ∀ visit ∈ root.visits, ∀ entry ∈ visit.2.transitions.toList,
      Target.ofText entry.2.text = entry.2 := by
  constructor
  · rintro h ⟨path, node⟩ hvisit ⟨event, target⟩ hentry
    exact h path node event target (mem_visits.mp hvisit) (KeyMap.mem_toList_iff.mp hentry)
  · intro h path node event target hnode htarget
    exact h (path, node) (mem_visits.mpr hnode) (event, target) (KeyMap.mem_toList_iff.mpr htarget)

instance (root : Node) : Decidable root.TargetsReadBack :=
  decidable_of_iff _ targetsReadBack_iff.symm

end Node

namespace Definition

theorem textual_toDocument (definition : Definition) : definition.toDocument.Textual := by
  refine .record _ fun field hmem => ?_
  obtain hfield | hstart := List.mem_append.mp hmem
  · exact Node.textual_of_mem_fields hfield
  · obtain ⟨text, rfl⟩ := Node.mem_optionalField hstart
    exact .text text

/-- Fields with other names are passed over in the search for the start path. -/
theorem startPathsOf?_append {fields : List (String × Document)}
    (h : ∀ field ∈ fields, field.1 ≠ "startPath") (members : List (Option String × Document)) :
    startPathsOf? (named fields ++ members) = startPathsOf? members := by
  induction fields with
  | nil => rw [named_nil, List.nil_append]
  | cons field rest ih =>
    have hfield := h field List.mem_cons_self
    have hrest := ih fun field hmem => h field (List.mem_cons_of_mem _ hmem)
    rw [named_cons, List.cons_append, startPathsOf?, hrest]
    simp [hfield]

theorem startPathsOf?_optionalField (startPath : Option String) :
    startPathsOf? (named (Node.optionalField "startPath" startPath))
      = some (startPath.toList.map some) := by
  cases startPath <;> rfl

/-- Without the start path the fields of the root are left. -/
theorem rootMembers_append {fields : List (String × Document)}
    (h : ∀ field ∈ fields, field.1 ≠ "startPath") (startPath : Option String) :
    rootMembers (named fields ++ named (Node.optionalField "startPath" startPath))
      = named fields := by
  have hfields : rootMembers (named fields) = named fields := by
    refine List.filter_eq_self.mpr fun member hmem => ?_
    obtain ⟨field, hfield, rfl⟩ := List.mem_map.mp hmem
    simpa using h field hfield
  have hstart : rootMembers (named (Node.optionalField "startPath" startPath)) = [] := by
    cases startPath <;> rfl
  unfold rootMembers at hfields hstart ⊢
  rw [List.filter_append, hfields, hstart, List.append_nil]

/-- **The document of a definition is read as the definition.** -/
theorem ofDocument?_toDocument {definition : Definition}
    (htargets : definition.root.TargetsReadBack)
    (hdepth : definition.toDocument.depth ≤ Document.deepest) :
    ofDocument? definition.toDocument = some definition := by
  obtain ⟨root, startPath⟩ := definition
  have hnames : ∀ field ∈ root.fields, field.1 ≠ "startPath" :=
    fun _ => Node.ne_startPath_of_mem_fields
  obtain ⟨value, hvalue⟩ := (textual_toDocument ⟨root, startPath⟩).exists_value? hdepth
  have hstart : startPathsOf? (named root.fields
      ++ named (Node.optionalField "startPath" startPath)) = some (startPath.toList.map some) := by
    rw [startPathsOf?_append hnames, startPathsOf?_optionalField]
  have hroot : Node.draftOfMembers? Document.deepest {} (named root.fields)
      = some (Node.written root) := by
    refine Node.draftOfMembers?_fields htargets fun field hmem => ?_
    obtain ⟨inner, heq, hfields⟩ := Document.exists_room hdepth
    exact heq ▸ Nat.le_succ_of_le (hfields field (List.mem_append_left _ hmem))
  rw [toDocument, record_eq, named_append] at hvalue ⊢
  rw [ofDocument?, hvalue, hstart, rootMembers_append hnames, hroot]
  simp only [Option.bind_eq_bind, Option.bind_some, Node.node_written]
  cases startPath <;> rfl

/-- **A definition goes through JSON unchanged.** -/
theorem ofText_text (definition : Definition) (htargets : definition.root.TargetsReadBack)
    (hdepth : definition.toDocument.depth ≤ 127) :
    Definition.ofText definition.text = .ok definition := by
  rw [Definition.ofText, text, Document.ofText?_pretty (textual_toDocument definition),
    Option.bind_some, ofDocument?_toDocument htargets hdepth]

/-- A definition that means no tree: names and keys are missing or hold what has to be
escaped, and fields are there that hold the empty string. -/
def odd : Definition where
  root :=
    { Node.leaf "" with
      initial := some ""
      children := .ofList [
        ("", .leaf "nameless"),
        ("startPath",
          { Node.leaf "line\nbreak" with
            children := .ofList [("say \"on\"", .leaf "")]
            transitions := .ofList [
              ("\x01\\", .absolute ⟨["startPath", "on"]⟩), ("", .sibling "")]
            exit := some "" })]
      entry := some "id" }
  startPath := some ""

/-- The odd definition comes back as it is. -/
theorem ofText_text_odd : odd.root.TargetsReadBack ∧ odd.toDocument.depth = 5
    ∧ Definition.ofText odd.text = .ok odd := by
  have htargets : odd.root.TargetsReadBack := by decide
  have hdepth : odd.toDocument.depth = 5 := by decide
  exact ⟨htargets, hdepth, ofText_text odd htargets (hdepth ▸ by decide)⟩

end Definition

end Statechart
