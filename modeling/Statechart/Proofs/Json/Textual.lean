import Mathlib.Data.List.Basic
import Statechart.Json.Document.Printer
import Statechart.Json.Document.Reader

/-!
# Documents of strings and objects

A definition is written as strings and objects and nothing else. For such documents
(`Json.Document.Textual`) printing over several lines and reading are inverse
(`Json.Document.ofText?_pretty`), whatever characters the strings hold and however
often a name is repeated, and they have a value wherever there is room for their
nesting (`Json.Document.Textual.exists_value?`).

That a printed document reads as itself is proved by way of the tokens
(`Json.Document.tokens`). What the lexer makes of a text does not depend on the tokens
before it, so that texts and tokens can be put together side by side
(`Json.Spells.append`): a string gives one token, whatever has been escaped in it
(`Json.spells_quoted`), and line breaks and indentation give none
(`Json.Document.spells_newline`). The reader takes the tokens of a document as one
step to the complete document (`Json.Document.Textual.read`).
-/

namespace Statechart

namespace Json

/-! ## Texts and their tokens -/

/-- **The lexer makes these tokens of a text**, whatever the tokens before it, and is
through with all of them when the text ends. -/
def Spells (text : List Char) (tokens : List Token) : Prop :=
  ∀ finished : List Token, text.foldlM Lexer.step? ⟨finished, .nothing⟩
    = some ⟨tokens.reverse ++ finished, .nothing⟩

theorem Spells.nil : Spells [] [] := fun _ => rfl

theorem Spells.append {text text' : List Char} {tokens tokens' : List Token}
    (h : Spells text tokens) (h' : Spells text' tokens') :
    Spells (text ++ text') (tokens ++ tokens') := by
  intro finished
  rw [List.foldlM_append, h finished, Option.bind_eq_bind, Option.bind_some, h',
    List.reverse_append, List.append_assoc]

/-- A text with one more character in front. -/
theorem Spells.cons {char : Char} {text : List Char} {tokens tokens' : List Token}
    (h : Spells [char] tokens) (h' : Spells text tokens') :
    Spells (char :: text) (tokens ++ tokens') :=
  h.append h'

theorem spells_openObject : Spells ['\x7b'] [.openObject] := fun _ => rfl

theorem spells_closeObject : Spells ['\x7d'] [.closeObject] := fun _ => rfl

theorem spells_comma : Spells [','] [.comma] := fun _ => rfl

theorem spells_colon : Spells [':'] [.colon] := fun _ => rfl

theorem spells_blank : Spells [' '] [] := fun _ => rfl

theorem spells_lineBreak : Spells ['\n'] [] := fun _ => rfl

/-! ## Strings -/

theorem hexValue?_digitChar : ∀ digit < 16, hexValue? (Nat.digitChar digit) = some digit := by
  decide

/-- A control character is read from its number. -/
theorem foldlM_step?_unit {char : Char} (h : char.toNat < 0x20) (finished : List Token)
    (reversed : List Char) :
    ['\\', 'u', '0', '0', Nat.digitChar (char.toNat / 16), Nat.digitChar (char.toNat % 16)].foldlM
        Lexer.step? ⟨finished, .string { reversed }⟩
      = some ⟨finished, .string { reversed := char :: reversed }⟩ := by
  have hhigh := hexValue?_digitChar (char.toNat / 16) (by omega)
  have hlow := hexValue?_digitChar (char.toNat % 16) (by omega)
  have hzero : hexValue? '0' = some 0 := rfl
  have hvalue : char.toNat / 16 * 16 + char.toNat % 16 = char.toNat := by omega
  -- so small a number is not half a character
  have hpush : Spelling.pushUnit { reversed } char.toNat = { reversed := char :: reversed } := by
    have hfirst : Spelling.isFirstHalf char.toNat = false := by
      rw [Spelling.isFirstHalf, decide_eq_false (by omega), Bool.false_and]
    have hsecond : Spelling.isSecondHalf char.toNat = false := by
      rw [Spelling.isSecondHalf, decide_eq_false (by omega), Bool.false_and]
    simp [Spelling.pushUnit, hfirst, hsecond, Spelling.push]
  simp [Lexer.step?, hhigh, hlow, hzero, hvalue, hpush]

/-- **A character of a string is read as it was written**, escaped or not. -/
theorem foldlM_step?_escape (char : Char) (finished : List Token) (reversed : List Char) :
    (escape char).foldlM Lexer.step? ⟨finished, .string { reversed }⟩
      = some ⟨finished, .string { reversed := char :: reversed }⟩ := by
  unfold escape
  split_ifs with hquote hbackslash hback hfeed hbreak hreturn htab hcontrol
  · rw [hquote]; rfl
  · rw [hbackslash]; rfl
  · rw [hback]; rfl
  · rw [hfeed]; rfl
  · rw [hbreak]; rfl
  · rw [hreturn]; rfl
  · rw [htab]; rfl
  · exact foldlM_step?_unit hcontrol finished reversed
  · simp [Lexer.step?, hquote, hbackslash, hcontrol, Spelling.push]

theorem foldlM_step?_flatMap_escape (text : List Char) (finished : List Token)
    (reversed : List Char) :
    (text.flatMap escape).foldlM Lexer.step? ⟨finished, .string { reversed }⟩
      = some ⟨finished, .string { reversed := text.reverse ++ reversed }⟩ := by
  induction text generalizing reversed with
  | nil => rfl
  | cons char rest ih =>
    rw [List.flatMap_cons, List.foldlM_append, foldlM_step?_escape, Option.bind_eq_bind,
      Option.bind_some, ih, List.reverse_cons, List.append_assoc, List.singleton_append]

/-- **A string between its quotes is one token**, that of the string. -/
theorem spells_quoted (text : String) : Spells (quoted text) [.string (some text)] := by
  intro finished
  have hopen : Lexer.step? ⟨finished, .nothing⟩ '"' = some ⟨finished, .string {}⟩ := rfl
  have hclose : Lexer.step? ⟨finished, .string { reversed := text.toList.reverse }⟩ '"'
      = some ⟨.string (some text) :: finished, .nothing⟩ := by
    simp [Lexer.step?, Lexer.emit, Spelling.text?]
  rw [quoted, List.foldlM_cons, hopen, Option.bind_eq_bind, Option.bind_some, List.foldlM_append,
    foldlM_step?_flatMap_escape, List.append_nil, Option.bind_eq_bind, Option.bind_some,
    List.foldlM_cons, hclose]
  rfl

namespace Document

/-! ## Documents of strings and objects -/

/-- Members whose names are whole. -/
def named (members : List (String × Document)) : List (Option String × Document) :=
  members.map fun member => (some member.1, member.2)

@[simp] theorem named_nil : named [] = [] := rfl

@[simp] theorem named_cons (member : String × Document) (rest : List (String × Document)) :
    named (member :: rest) = (some member.1, member.2) :: named rest :=
  rfl

@[simp] theorem named_append (members members' : List (String × Document)) :
    named (members ++ members') = named members ++ named members' :=
  List.map_append

theorem record_eq (members : List (String × Document)) : record members = .object (named members) :=
  rfl

/-- **A document of whole strings and objects**, as definitions are written. -/
inductive Textual : Document → Prop where
  | text (text : String) : Textual (.text text)
  | record (members : List (String × Document)) (h : ∀ member ∈ members, Textual member.2) :
    Textual (.record members)

mutual

/-- The tokens of a document. -/
def tokens : Document → List Token
  | .null => [.null]
  | .bool value => [.bool value]
  | .number literal => [.number literal]
  | .string text => [.string text]
  | .array [] => [.openArray, .closeArray]
  | .array (item :: rest) => .openArray :: (item.tokens ++ (tokensOfItems rest ++ [.closeArray]))
  | .object [] => [.openObject, .closeObject]
  | .object ((key, value) :: rest) =>
    .openObject :: .string key :: .colon
      :: (value.tokens ++ (tokensOfMembers rest ++ [.closeObject]))

/-- The tokens of the items after the first. -/
def tokensOfItems : List Document → List Token
  | [] => []
  | item :: rest => .comma :: (item.tokens ++ tokensOfItems rest)

/-- The tokens of the members after the first. -/
def tokensOfMembers : List (Option String × Document) → List Token
  | [] => []
  | (key, value) :: rest =>
    .comma :: .string key :: .colon :: (value.tokens ++ tokensOfMembers rest)

end

/-- The beginning of a line gives no tokens. -/
theorem spells_newline (level : Nat) : Spells (newline level) [] := by
  have hblanks : ∀ width : Nat, Spells (List.replicate width ' ') [] := by
    intro width
    induction width with
    | zero => exact .nil
    | succ width ih => exact spells_blank.cons ih
  exact spells_lineBreak.cons (hblanks _)

theorem spells_prettyMembers {members : List (String × Document)} (level : Nat)
    (h : ∀ member ∈ members, ∀ level, Spells (member.2.prettyText level) member.2.tokens) :
    Spells (prettyMembers level (named members)) (tokensOfMembers (named members)) := by
  induction members with
  | nil => exact .nil
  | cons member rest ih =>
    obtain ⟨key, value⟩ := member
    rw [named_cons, prettyMembers, tokensOfMembers]
    have hvalue := h (key, value) List.mem_cons_self (level + 1)
    have hrest := ih fun member hmem => h member (List.mem_cons_of_mem _ hmem)
    exact spells_comma.cons ((spells_newline (level + 1)).append ((spells_quoted key).append
      (spells_colon.cons (spells_blank.cons (hvalue.append hrest)))))

/-- **The text of a document has the tokens of the document.** -/
theorem Textual.spells {document : Document} (h : document.Textual) (level : Nat) :
    Spells (document.prettyText level) document.tokens := by
  induction h generalizing level with
  | text text => exact spells_quoted text
  | record members h ih =>
    cases members with
    | nil => exact spells_openObject.append spells_closeObject
    | cons member rest =>
      obtain ⟨key, value⟩ := member
      rw [record_eq, named_cons, prettyText, tokens]
      have hvalue := ih (key, value) List.mem_cons_self (level + 1)
      have hrest := spells_prettyMembers level fun member hmem =>
        ih member (List.mem_cons_of_mem _ hmem)
      exact spells_openObject.cons ((spells_newline (level + 1)).append
        ((spells_quoted key).append (spells_colon.cons (spells_blank.cons (hvalue.append
          (hrest.append ((spells_newline level).append spells_closeObject)))))))

/-! ## Reading the tokens -/

theorem foldlM_step?_tokensOfMembers {members : List (String × Document)}
    (h : ∀ member ∈ members, ∀ frames : List Frame,
      member.2.tokens.foldlM Reader.step? (.value frames)
        = some (Reader.complete member.2 frames))
    (before : List (Option String × Document)) (frames : List Frame) :
    (tokensOfMembers (named members)).foldlM Reader.step? (.afterMember before frames)
      = some (.afterMember ((named members).reverse ++ before) frames) := by
  induction members generalizing before with
  | nil => rfl
  | cons member rest ih =>
    obtain ⟨key, value⟩ := member
    have hvalue := h (key, value) List.mem_cons_self (.object before (some key) :: frames)
    have hrest := ih (fun member hmem => h member (List.mem_cons_of_mem _ hmem))
      ((some key, value) :: before)
    rw [named_cons, tokensOfMembers, List.reverse_cons, List.append_assoc, List.singleton_append]
    show (value.tokens ++ _).foldlM Reader.step? (.value (.object before (some key) :: frames)) = _
    rw [List.foldlM_append, hvalue]
    exact hrest

/-- **Where a value may come, the tokens of a document are read as the document.** -/
theorem Textual.read {document : Document} (h : document.Textual) (frames : List Frame) :
    document.tokens.foldlM Reader.step? (.value frames)
      = some (Reader.complete document frames) := by
  induction h generalizing frames with
  | text text => rfl
  | record members h ih =>
    cases members with
    | nil => rfl
    | cons member rest =>
      obtain ⟨key, value⟩ := member
      have hvalue := ih (key, value) List.mem_cons_self (.object [] (some key) :: frames)
      have hrest := foldlM_step?_tokensOfMembers
        (fun member hmem => ih member (List.mem_cons_of_mem _ hmem)) [(some key, value)] frames
      rw [record_eq, named_cons, tokens]
      show (value.tokens ++ _).foldlM Reader.step? (.value (.object [] (some key) :: frames)) = _
      rw [List.foldlM_append, hvalue]
      show (_ ++ [Token.closeObject]).foldlM Reader.step?
        (.afterMember [(some key, value)] frames) = _
      rw [List.foldlM_append, hrest]
      show some (Reader.complete (.object _) frames) = _
      rw [List.reverse_append, List.reverse_reverse]
      rfl

/-- **A printed document reads as itself.** -/
theorem ofText?_pretty {document : Document} (h : document.Textual) :
    ofText? document.pretty = some document := by
  have htokens : Token.ofText? document.pretty.toList = some document.tokens := by
    rw [Token.ofText?, pretty, String.toList_ofList]
    show (List.foldlM Lexer.step? ⟨[], .nothing⟩ _).bind _ = _
    rw [h.spells 0, Option.bind_some, List.append_nil, Lexer.finish?, List.reverse_reverse]
  rw [ofText?, htokens, Option.bind_some, ofTokens?, h.read]
  rfl

/-! ## Nesting -/

mutual

/-- **How many arrays and objects of a document lie within each other** at most. -/
def depth : Document → Nat
  | .null | .bool _ | .number _ | .string _ => 0
  | .array items => depthOfItems items + 1
  | .object members => depthOfMembers members + 1

/-- The greatest depth among some items. -/
def depthOfItems : List Document → Nat
  | [] => 0
  | item :: rest => max item.depth (depthOfItems rest)

/-- The greatest depth among the values of some members. -/
def depthOfMembers : List (Option String × Document) → Nat
  | [] => 0
  | (_, value) :: rest => max value.depth (depthOfMembers rest)

end

theorem depth_record (members : List (String × Document)) :
    (record members).depth = depthOfMembers (named members) + 1 := by
  rw [record_eq, depth]

theorem depthOfMembers_le_iff {members : List (String × Document)} {room : Nat} :
    depthOfMembers (named members) ≤ room ↔ ∀ member ∈ members, member.2.depth ≤ room := by
  induction members with
  | nil => simp [depthOfMembers]
  | cons member rest ih => rw [named_cons, depthOfMembers, Nat.max_le, ih, List.forall_mem_cons]

/-- Where there is room for an object, there is room for its members with one level
less. -/
theorem exists_room {members : List (String × Document)} {room : Nat}
    (h : (record members).depth ≤ room) :
    ∃ inner, room = inner + 1 ∧ ∀ member ∈ members, member.2.depth ≤ inner := by
  rw [depth_record] at h
  obtain ⟨inner, rfl⟩ := Nat.exists_eq_add_of_le' (Nat.le_of_add_left_le h)
  exact ⟨inner, rfl, depthOfMembers_le_iff.mp (Nat.le_of_add_le_add_right h)⟩

theorem exists_memberValues? {members : List (String × Document)} {room : Nat}
    (h : ∀ member ∈ members, ∃ value, member.2.value? room = some value) :
    ∃ values, memberValues? room (named members) = some values := by
  induction members with
  | nil => exact ⟨[], by rw [named_nil, memberValues?]⟩
  | cons member rest ih =>
    obtain ⟨value, hvalue⟩ := h member List.mem_cons_self
    obtain ⟨values, hvalues⟩ := ih fun member hmem => h member (List.mem_cons_of_mem _ hmem)
    exact ⟨(member.1, value) :: values, by rw [named_cons, memberValues?, hvalue, hvalues]; rfl⟩

/-- **Where there is room for its nesting, a document has a value.** -/
theorem Textual.exists_value? {document : Document} (h : document.Textual) {room : Nat}
    (hroom : document.depth ≤ room) : ∃ value, document.value? room = some value := by
  induction h generalizing room with
  | text content => exact ⟨.string content, by rw [Document.text, value?, Option.map_some]⟩
  | record members h ih =>
    obtain ⟨inner, rfl, hmembers⟩ := exists_room hroom
    obtain ⟨values, hvalues⟩ := exists_memberValues? fun member hmem =>
      ih member hmem (hmembers member hmem)
    exact ⟨.object (.ofList values), by rw [record_eq, value?, hvalues, Option.map_some]⟩

end Document

end Json

end Statechart
