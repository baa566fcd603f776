import Statechart.Node.Document
import Statechart.Proofs.Json.Textual
import Statechart.Proofs.Tree.Lookup

/-!
# A node is read as it was written

Writing leaves a field out if it holds nothing, and reading takes a missing field to
hold nothing. That these two fit together at every level is proved here by induction
on the node: the fields of a node give a draft with exactly the fields that were
written (`Node.draftOfMembers?_fields`), and the draft gives the node
(`Node.node_written`). So the document of a node is read as the node
(`Node.ofDocument?_toDocument`), as long as there is room for its nesting and every
target in it is what its own text means (`Node.TargetsReadBack`).
-/

namespace Statechart

open Json (Document)
open Json.Document (named named_nil named_cons named_append record_eq Textual)

namespace Node

/-- **Every target in a node and below it is what its text means.** -/
def TargetsReadBack (node : Node) : Prop :=
  ∀ path inner event target, node.get? path = some inner →
    inner.transition? event = some target → Target.ofText target.text = target

variable {node : Node} {room : Nat}

theorem TargetsReadBack.own (h : node.TargetsReadBack) {event : String} {target : Target}
    (htarget : node.transition? event = some target) : Target.ofText target.text = target :=
  h .root node event target (descend?_nil node) htarget

theorem TargetsReadBack.child (h : node.TargetsReadBack) {key : String} {child : Node}
    (hchild : node.child? key = some child) : child.TargetsReadBack := by
  intro path inner event target hinner
  refine h ⟨key :: path.segments⟩ inner event target ?_
  show node.descend? (key :: path.segments) = some inner
  rw [descend?, hchild, Option.bind_some]
  exact hinner

/-! ## The fields of a node -/

/-- The field `id`, left out if it is empty. -/
def idField (id : String) : List (String × Document) :=
  if id.isEmpty then [] else [("id", .text id)]

/-- The children with their keys and documents. -/
def childDocuments {bound : Option String} (children : KeyMap Node bound) :
    List (String × Document) :=
  children.toList.map fun entry => (entry.1, entry.2.toDocument)

/-- The events with the texts of their targets. -/
def targetDocuments (transitions : KeyMap Target) : List (String × Document) :=
  transitions.toList.map fun entry => (entry.1, .text entry.2.text)

/-- A field for the entries of a map, left out if there are none. -/
def mapField {α : Type} (name : String) (map : KeyMap α) (documents : List (String × Document)) :
    List (String × Document) :=
  if map.isEmpty then [] else [(name, .record documents)]

theorem childFields_eq {bound : Option String} (children : KeyMap Node bound) :
    childFields children = childDocuments children := by
  induction children with
  | nil => rw [childFields]; rfl
  | cons key above node rest ih => rw [childFields, ih]; rfl

/-- A node is written field by field. -/
theorem fields_eq (node : Node) :
    node.fields = idField node.id ++ optionalField "initial" node.initial
      ++ mapField "states" node.children (childDocuments node.children)
      ++ mapField "on" node.transitions (targetDocuments node.transitions)
      ++ optionalField "entry" node.entry ++ optionalField "exit" node.exit := by
  obtain ⟨id, initial, children, transitions, entry, exit⟩ := node
  rw [fields, childFields_eq]
  rfl

theorem mem_optionalField {name : String} {value : Option String} {field : String × Document}
    (h : field ∈ optionalField name value) : ∃ text, field = (name, .text text) := by
  cases value with
  | none => exact nomatch h
  | some text => exact ⟨text, List.mem_singleton.mp h⟩

theorem mem_mapField {α : Type} {name : String} {map : KeyMap α}
    {documents : List (String × Document)} {field : String × Document}
    (h : field ∈ mapField name map documents) : field = (name, .record documents) := by
  unfold mapField at h
  split at h
  · exact nomatch h
  · exact List.mem_singleton.mp h

/-- A field has one of six names, and holds a string, the children or the
transitions. -/
theorem mem_fields {field : String × Document} (h : field ∈ node.fields) :
    field.1 ∈ Draft.names ∧ ((∃ text, field.2 = .text text)
      ∨ field.2 = .record (childDocuments node.children)
      ∨ field.2 = .record (targetDocuments node.transitions)) := by
  rw [fields_eq] at h
  simp only [List.mem_append] at h
  obtain ((((hid | hinitial) | hchildren) | htransitions) | hentry) | hexit := h
  · unfold idField at hid
    split at hid
    · exact nomatch hid
    · obtain rfl := List.mem_singleton.mp hid
      exact ⟨(by decide : "id" ∈ Draft.names), Or.inl ⟨_, rfl⟩⟩
  · obtain ⟨text, rfl⟩ := mem_optionalField hinitial
    exact ⟨(by decide : "initial" ∈ Draft.names), Or.inl ⟨text, rfl⟩⟩
  · obtain rfl := mem_mapField hchildren
    exact ⟨(by decide : "states" ∈ Draft.names), Or.inr (Or.inl rfl)⟩
  · obtain rfl := mem_mapField htransitions
    exact ⟨(by decide : "on" ∈ Draft.names), Or.inr (Or.inr rfl)⟩
  · obtain ⟨text, rfl⟩ := mem_optionalField hentry
    exact ⟨(by decide : "entry" ∈ Draft.names), Or.inl ⟨text, rfl⟩⟩
  · obtain ⟨text, rfl⟩ := mem_optionalField hexit
    exact ⟨(by decide : "exit" ∈ Draft.names), Or.inl ⟨text, rfl⟩⟩

/-- The fields of a node are made of strings and objects. -/
theorem textual_of_mem_fields {field : String × Document} (h : field ∈ node.fields) :
    field.2.Textual := by
  induction node using Node.induction generalizing field with
  | step node ih =>
    obtain ⟨-, ⟨text, heq⟩ | heq | heq⟩ := mem_fields h <;> rw [heq]
    · exact .text text
    · refine .record _ fun member hmember => ?_
      obtain ⟨entry, hentry, rfl⟩ := List.mem_map.mp hmember
      exact .record _ fun _ => ih entry.1 entry.2 (KeyMap.mem_toList_iff.mp hentry)
    · refine .record _ fun member hmember => ?_
      obtain ⟨entry, -, rfl⟩ := List.mem_map.mp hmember
      exact .text _

/-! ## What is read from the fields -/

/-- The draft of what is written of a node. -/
def written (node : Node) : Draft where
  id := if node.id.isEmpty then none else some node.id
  initial := node.initial.map some
  children := if node.children.isEmpty then none else some node.children
  transitions := if node.transitions.isEmpty then none else some node.transitions
  entry := node.entry.map some
  exit := node.exit.map some

theorem getD_ite_isEmpty {α : Type} (map : KeyMap α) :
    (if map.isEmpty then none else some map).getD .nil = map := by
  cases map <;> rfl

/-- **What is left out is what a missing field means.** -/
theorem node_written (node : Node) : (written node).node = node := by
  obtain ⟨id, initial, children, transitions, entry, exit⟩ := node
  have hid : (if id.isEmpty then none else some id).getD "" = id := by
    split
    · exact (String.isEmpty_iff.mp ‹_›).symm
    · rfl
  have hoptional : ∀ value : Option String, (value.map some).getD none = value := by
    intro value
    cases value <;> rfl
  simp only [written, Draft.node, hid, hoptional, getD_ite_isEmpty]

theorem draftOfMembers?_append (room : Nat) (draft : Draft)
    (members members' : List (Option String × Document)) :
    draftOfMembers? room draft (members ++ members')
      = (draftOfMembers? room draft members).bind fun draft =>
          draftOfMembers? room draft members' := by
  induction members generalizing draft with
  | nil => rw [List.nil_append, draftOfMembers?, Option.bind_some]
  | cons member rest ih =>
    obtain ⟨key, value⟩ := member
    rw [List.cons_append, draftOfMembers?, draftOfMembers?]
    simp only [Option.bind_eq_bind, Option.bind_assoc, ih]

theorem draftOfMembers?_single (room : Nat) (draft : Draft) (name : String) (value : Document) :
    draftOfMembers? room draft (named [(name, value)]) = draftOfField? room draft name value := by
  rw [named_cons, named_nil, draftOfMembers?]
  simp only [draftOfMembers?, Option.bind_eq_bind, Option.bind_some, Option.bind_fun_some]

section

variable {draft : Draft}

theorem draftOfMembers?_idField (h : draft.id = none) (id : String) :
    draftOfMembers? room draft (named (idField id))
      = some { draft with id := if id.isEmpty then none else some id } := by
  unfold idField
  split
  · rw [named_nil, draftOfMembers?, ← h]
  · rw [draftOfMembers?_single]
    simp [Document.text, draftOfField?, Draft.withText?, h]

/-- A field that may be left out changes the draft by what it holds. -/
theorem draftOfMembers?_optionalField {name : String}
    (change : Draft → Option (Option String) → Draft) (hnone : change draft none = draft)
    (hsome : ∀ text, draft.withText? name (some text) = some (change draft (some (some text))))
    (value : Option String) :
    draftOfMembers? room draft (named (optionalField name value))
      = some (change draft (value.map some)) := by
  cases value with
  | none => rw [optionalField, named_nil, draftOfMembers?, Option.map_none, hnone]
  | some text =>
    rw [optionalField, draftOfMembers?_single, Document.text, draftOfField?, hsome, Option.map_some]

/-- A field for a map changes the draft by the map, if what it holds is read as the
map with the room that is left. -/
theorem draftOfMembers?_mapField {α : Type} {name : String} {map : KeyMap α}
    {documents : List (String × Document)} (change : Draft → Option (KeyMap α) → Draft)
    (hnone : change draft none = draft)
    (hroom : ∀ field ∈ mapField name map documents, field.2.depth ≤ room)
    (hsome : ∀ inner, (∀ member ∈ documents, member.2.depth ≤ inner) →
      draftOfField? (inner + 1) draft name (.record documents) = some (change draft (some map))) :
    draftOfMembers? room draft (named (mapField name map documents))
      = some (change draft (if map.isEmpty then none else some map)) := by
  unfold mapField at hroom ⊢
  split
  · rw [named_nil, draftOfMembers?, hnone]
  · rename_i hne
    rw [if_neg hne, List.forall_mem_singleton] at hroom
    obtain ⟨inner, rfl, hdepth⟩ := Document.exists_room hroom
    rw [draftOfMembers?_single]
    exact hsome inner hdepth

theorem childrenOf?_named {entries : List (String × Node)}
    (h : ∀ entry ∈ entries, ofDocument? room entry.2.toDocument = some entry.2) :
    childrenOf? room (named (entries.map fun entry => (entry.1, entry.2.toDocument)))
      = some entries := by
  induction entries with
  | nil => rw [List.map_nil, named_nil, childrenOf?]
  | cons entry rest ih =>
    have hrest := ih fun entry hmem => h entry (List.mem_cons_of_mem _ hmem)
    rw [List.map_cons, named_cons, childrenOf?, h entry List.mem_cons_self, hrest]
    rfl

/-- The children are read if each of them is, with the room that is left. -/
theorem draftOfField?_states (h : draft.children = none) {children : KeyMap Node}
    (hread : ∀ key child, children.get? key = some child →
      ∀ room, child.toDocument.depth ≤ room → ofDocument? room child.toDocument = some child)
    (hroom : ∀ member ∈ childDocuments children, member.2.depth ≤ room) :
    draftOfField? (room + 1) draft "states" (.record (childDocuments children))
      = some { draft with children := some children } := by
  have hchildren : childrenOf? room (named (childDocuments children)) = some children.toList := by
    refine childrenOf?_named fun entry hmem => ?_
    refine hread entry.1 entry.2 (KeyMap.mem_toList_iff.mp hmem) room ?_
    exact hroom _ (List.mem_map.mpr ⟨entry, hmem, rfl⟩)
  rw [record_eq]
  simp [draftOfField?, hchildren, Draft.withChildren?, h, KeyMap.ofList_toList]

theorem targetsOf?_named {entries : List (String × Target)}
    (h : ∀ entry ∈ entries, Target.ofText entry.2.text = entry.2) :
    targetsOf? (named (entries.map fun entry => (entry.1, .text entry.2.text))) = some entries := by
  induction entries with
  | nil => rfl
  | cons entry rest ih =>
    have hrest := ih fun entry hmem => h entry (List.mem_cons_of_mem _ hmem)
    have htarget := h entry List.mem_cons_self
    rw [List.map_cons, named_cons, Document.text, targetsOf?, hrest]
    simp [htarget]

/-- The transitions are read if every target is what its text means. -/
theorem draftOfField?_on (h : draft.transitions = none) {transitions : KeyMap Target}
    (hread : ∀ event target, transitions.get? event = some target →
      Target.ofText target.text = target) :
    draftOfField? (room + 1) draft "on" (.record (targetDocuments transitions))
      = some { draft with transitions := some transitions } := by
  have htargets : targetsOf? (named (targetDocuments transitions)) = some transitions.toList :=
    targetsOf?_named fun entry hmem => hread entry.1 entry.2 (KeyMap.mem_toList_iff.mp hmem)
  rw [record_eq]
  simp [draftOfField?, htargets, Draft.withTransitions?, h, KeyMap.ofList_toList]

end

/-- A node comes back if its fields are read as they were written. -/
theorem ofDocument?_of_fields
    (h : ∀ room, (∀ field ∈ node.fields, field.2.depth ≤ room) →
      draftOfMembers? room {} (named node.fields) = some (written node))
    (hroom : node.toDocument.depth ≤ room) : ofDocument? room node.toDocument = some node := by
  obtain ⟨inner, rfl, hdepth⟩ := Document.exists_room hroom
  rw [toDocument, record_eq, ofDocument?, h inner hdepth, Option.map_some, node_written]

/-- **The fields of a node give the draft that was written.** -/
theorem draftOfMembers?_fields (h : node.TargetsReadBack)
    (hroom : ∀ field ∈ node.fields, field.2.depth ≤ room) :
    draftOfMembers? room {} (named node.fields) = some (written node) := by
  induction node using Node.induction generalizing room with
  | step node ih =>
    have hchildren : ∀ key child, node.children.get? key = some child → ∀ room,
        child.toDocument.depth ≤ room → ofDocument? room child.toDocument = some child :=
      fun key child hchild room => ofDocument?_of_fields fun room =>
        ih key child hchild (h.child hchild)
    rw [fields_eq] at hroom ⊢
    simp only [List.forall_mem_append] at hroom
    obtain ⟨⟨⟨⟨-, hstates⟩, hon⟩, -⟩, -⟩ := hroom
    simp only [named_append, draftOfMembers?_append]
    rw [draftOfMembers?_idField rfl, Option.bind_some,
      draftOfMembers?_optionalField (fun draft initial => { draft with initial }) rfl fun _ => rfl,
      Option.bind_some,
      draftOfMembers?_mapField (fun draft children => { draft with children }) rfl hstates
        fun _ => draftOfField?_states rfl hchildren,
      Option.bind_some,
      draftOfMembers?_mapField (fun draft transitions => { draft with transitions }) rfl hon
        fun _ _ => draftOfField?_on rfl fun _ _ => h.own,
      Option.bind_some,
      draftOfMembers?_optionalField (fun draft entry => { draft with entry }) rfl fun _ => rfl,
      Option.bind_some,
      draftOfMembers?_optionalField (fun draft exit => { draft with exit }) rfl fun _ => rfl]
    rfl

/-- **The document of a node is read as the node.** -/
theorem ofDocument?_toDocument (h : node.TargetsReadBack) (hroom : node.toDocument.depth ≤ room) :
    ofDocument? room node.toDocument = some node :=
  ofDocument?_of_fields (fun _ => draftOfMembers?_fields h) hroom

end Node

end Statechart
