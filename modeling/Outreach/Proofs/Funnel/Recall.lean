import Outreach.Funnel.File
import Outreach.Proofs.Source.HandedOut

/-!
# What is read back of a funnel

A funnel that was read from a text is the same after it is written and read again
(`Funnel.ofJsonText_compact`). Reading and writing treat every field in their own way: some have
defaults, some are left out when they are empty, a label may have two words for one meaning, an
operand that is null is not an absent one. What makes them agree is stated of each part of a funnel
(`Condition.IsProper` up to `Funnel.IsProper`): whatever is read is proper, and whatever is proper
is read back.
-/

namespace Outreach

open Source (depthLimit)

/-! ## Reading back inside containers -/

/-- A value fits inside `depth` containers, and `a` is read back from it there. -/
structure Reader.Recalls {α : Type} (read : Reader α) (depth : Nat) (v : Json) (a : α) : Prop where
  back : read.ReadsBack v a
  fits : v.Fits depth

namespace Reader

variable {α : Type} {depth : Nat} {read : Reader α}

theorem recalls_text (hdepth : depth ≤ depthLimit) (s : String) :
    text.Recalls depth (.string s) s :=
  ⟨readsBack_text s, .string s, hdepth⟩

theorem recalls_any {v : Json} (h : v.Fits depth) : any.Recalls depth v v :=
  ⟨readsBack_any h.proper, h⟩

theorem Recalls.listOf (hopen : depth < depthLimit) {write : α → Json} {items : List α}
    (h : ∀ item ∈ items, read.Recalls (depth + 1) (write item) item) :
    (listOf read).Recalls depth (.array (items.map write)) items := by
  have hback : (Reader.listOf read).ReadsBack (.array (items.map write))
      (items.map fun item => item) :=
    ReadsBack.listOf fun item hitem => (h item hitem).back
  rw [List.map_id'] at hback
  exact ⟨hback, .array hopen (List.forall_mem_map.mpr fun item hitem => (h item hitem).fits)⟩

theorem recalls_membersOf_any {members : Members Json} (h : (Json.object members).Fits depth) :
    (membersOf any).Recalls depth (.object members) members :=
  ⟨readsBack_membersOf_any h.proper, h⟩

theorem Recalls.optional {v : Json} {a : α} (h : read.Recalls depth v a) (hv : v.isNull = false) :
    (optional read).Recalls depth v (some a) :=
  ⟨h.back.optional hv, h.fits⟩

end Reader

namespace Layout

variable {α β γ : Type} {layout : Layout α} {depth : Nat} {name : String} {read : Reader β}
  {set : β → α → α}

/-- An entry fits one container further in, and its field takes it. -/
structure Keeps (layout : Layout α) (depth : Nat) (entry : WrittenEntry α) : Prop where
  takes : layout.Takes entry
  fits : entry.value.Fits (depth + 1)

theorem keeps_required {v : Json} {b : β}
    (hfield : (layout.fields.find? fun f => f.name == name) = some (.required name read set))
    (h : read.Recalls (depth + 1) v b) : layout.Keeps depth (.of name v set b) :=
  ⟨takes_required hfield h.back, h.fits⟩

theorem keeps_defaulted {v : Json} {b : β}
    (hfield : (layout.fields.find? fun f => f.name == name) = some (.defaulted name read set))
    (h : read.Recalls (depth + 1) v b) : layout.Keeps depth (.of name v set b) :=
  ⟨takes_defaulted hfield h.back, h.fits⟩

theorem keeps_present {value : Option γ} {write : γ → Json} {back : γ → β}
    (hfield : (layout.fields.find? fun f => f.name == name) = some (.defaulted name read set))
    (h : ∀ v ∈ value, read.Recalls (depth + 1) (write v) (back v)) :
    ∀ entry ∈ WrittenEntry.present name value write set back, layout.Keeps depth entry := by
  cases value with
  | none => nofun
  | some v => exact List.forall_mem_singleton.mpr (keeps_defaulted hfield (h v rfl))

/-- A record is read back where its entries fit. -/
theorem recalls {entries : List (WrittenEntry α)} (hopen : depth < depthLimit)
    (h : ∀ entry ∈ entries, layout.Keeps depth entry)
    (hascending : Members.IsAscending (written entries))
    (hrequired : ∀ f ∈ layout.fields, f.absence = .refused →
      f.name ∈ entries.map WrittenEntry.name) :
    layout.read.Recalls depth (.object (written entries)) (updateAll entries layout.blank) where
  back := readsBack (fun entry hentry => (h entry hentry).takes) hascending hrequired
  fits := .object hopen hascending
    (List.forall_mem_map.mpr fun entry hentry => (h entry hentry).fits)

end Layout

/-! ## Conditions -/

/-- Writing an operator keeps the label that it was read from. -/
theorem Operator.label_ofLabel (label : String) : (ofLabel label).label = label := by
  unfold ofLabel
  cases hfound : known.find? fun o => o.label == label with
  | none => rfl
  | some o =>
    have hlabel := List.find?_some hfound
    exact beq_iff_eq.mp hlabel

namespace Condition

/-- A condition that is read back inside `depth` containers: its operator is the one that its label
names, and its operand fits. -/
structure IsProper (depth : Nat) (c : Condition) : Prop where
  operator : Operator.ofLabel c.operator.label = c.operator
  value : ∀ v ∈ c.value, v.Fits (depth + 1)

/-- The entries of a condition, in the order in which they are written. -/
def entries (c : Condition) : List (WrittenEntry Condition) :=
  [.of "field" (.string c.field) (fun v c => { c with field := v }) c.field,
    .of "operator" (.string c.operator.label) (fun v c => { c with operator := .ofLabel v })
      c.operator.label] ++
  WrittenEntry.present "value" c.value (fun v => v) (fun v c => { c with value := some v }) fun v => v

theorem toJson_eq (c : Condition) : c.toJson = .object (Layout.written c.entries) := by
  obtain ⟨field, operator, value⟩ := c
  cases value <;>
    simp only [toJson, entries, Json.record, WrittenEntry.present, WrittenEntry.of, Layout.written,
      Members.ofEntries, Members.merge, Members.insert, Option.map_some, Option.map_none,
      Option.toList_some, Option.toList_none, List.cons_append, List.nil_append, List.append_nil,
      List.map_cons, List.map_nil, List.foldl_cons, List.foldl_nil, String.reduceLT,
      String.reduceEq, if_false]

variable {depth : Nat} {c : Condition}

theorem updateAll_entries (h : c.IsProper depth) :
    Layout.updateAll c.entries layout.blank = c := by
  obtain ⟨field, operator, value⟩ := c
  have hoperator : Operator.ofLabel operator.label = operator := h.operator
  cases value <;>
    simp [layout, Layout.updateAll, entries, WrittenEntry.present, WrittenEntry.of, hoperator]

theorem recalls (hopen : depth < depthLimit) (h : c.IsProper depth) :
    layout.read.Recalls depth c.toJson c := by
  have hkeeps : ∀ entry ∈ c.entries, layout.Keeps depth entry := by
    simp only [entries, List.forall_mem_append, List.forall_mem_cons]
    refine ⟨⟨?_, ?_, nofun⟩, ?_⟩
    · exact Layout.keeps_required rfl (Reader.recalls_text hopen c.field)
    · exact Layout.keeps_required rfl (Reader.recalls_text hopen c.operator.label)
    · exact Layout.keeps_present rfl fun v hv => Reader.recalls_any (h.value v hv)
  have hback := Layout.recalls hopen hkeeps (Layout.isAscending_of_record c.toJson_eq)
    (by simp [layout, entries, Field.required, Field.defaulted, WrittenEntry.of])
  rwa [← toJson_eq, updateAll_entries h] at hback

theorem hands (hopen : depth < depthLimit) : layout.read.Hands depth (IsProper depth) := by
  have hblank : layout.blank.IsProper depth := ⟨by decide, nofun⟩
  refine Layout.hands_read hblank ?_
  simp only [layout, List.forall_mem_cons]
  refine ⟨?_, ?_, ?_, nofun⟩
  · exact Field.keeps_required (Reader.hands_anything _ _) fun _ _ _ h => ⟨h.operator, h.value⟩
  · refine Field.keeps_required (Reader.hands_anything _ _) fun label _ _ h => ⟨?_, h.value⟩
    exact congrArg Operator.ofLabel (Operator.label_ofLabel label)
  · refine Field.keeps_defaulted (Reader.hands_any hopen) fun v _ hv h => ⟨h.operator, ?_⟩
    rintro _ ⟨⟩
    exact hv

end Condition

/-- A value that is written as a record is not null. -/
theorem Json.isNull_record (entries : List (String × Json)) : (Json.record entries).isNull = false :=
  rfl

/-! ## Connections -/

namespace Connection

/-- A connection that is read back inside `depth` containers. -/
structure IsProper (depth : Nat) (c : Connection) : Prop where
  condition : ∀ g ∈ c.condition, g.IsProper (depth + 1)

/-- The entries of a connection, in the order in which they are written. -/
def entries (c : Connection) : List (WrittenEntry Connection) :=
  WrittenEntry.present "condition" c.condition Condition.toJson
      (fun v c => { c with condition := v }) some ++
    [.of "id" (.string c.id) (fun v c => { c with id := v }) c.id,
      .of "sourceNodeId" (.string c.source) (fun v c => { c with source := v }) c.source,
      .of "targetNodeId" (.string c.target) (fun v c => { c with target := v }) c.target]

theorem toJson_eq (c : Connection) : c.toJson = .object (Layout.written c.entries) := by
  obtain ⟨id, source, target, condition⟩ := c
  cases condition <;>
    simp only [toJson, entries, Json.record, WrittenEntry.present, WrittenEntry.of, Layout.written,
      Members.ofEntries, Members.merge, Members.insert, Option.map_some, Option.map_none,
      Option.toList_some, Option.toList_none, List.cons_append, List.nil_append, List.append_nil,
      List.map_cons, List.map_nil, List.foldl_cons, List.foldl_nil, String.reduceLT,
      String.reduceEq, if_true, if_false]

theorem updateAll_entries (c : Connection) : Layout.updateAll c.entries layout.blank = c := by
  obtain ⟨id, source, target, condition⟩ := c
  cases condition <;> rfl

variable {depth : Nat} {c : Connection}

theorem recalls (hopen : depth + 1 < depthLimit) (h : c.IsProper depth) :
    layout.read.Recalls depth c.toJson c := by
  have htext (s : String) : Reader.text.Recalls (depth + 1) (.string s) s :=
    Reader.recalls_text hopen.le s
  have hkeeps : ∀ entry ∈ c.entries, layout.Keeps depth entry := by
    simp only [entries, List.forall_mem_append, List.forall_mem_cons]
    refine ⟨?_, ?_, ?_, ?_, nofun⟩
    · refine Layout.keeps_present rfl fun g hg => ?_
      exact (Condition.recalls hopen (h.condition g hg)).optional (Json.isNull_record _)
    · exact Layout.keeps_required rfl (htext c.id)
    · exact Layout.keeps_required rfl (htext c.source)
    · exact Layout.keeps_required rfl (htext c.target)
  have hback := Layout.recalls (by omega) hkeeps (Layout.isAscending_of_record c.toJson_eq)
    (by simp [layout, entries, Field.required, Field.defaulted, WrittenEntry.of])
  rwa [← toJson_eq, updateAll_entries] at hback

theorem hands (hopen : depth + 1 < depthLimit) : layout.read.Hands depth (IsProper depth) := by
  have hblank : layout.blank.IsProper depth := ⟨nofun⟩
  refine Layout.hands_read hblank ?_
  simp only [layout, List.forall_mem_cons]
  refine ⟨?_, ?_, ?_, ?_, nofun⟩
  · exact Field.keeps_required (Reader.hands_anything _ _) fun _ _ _ h => ⟨h.condition⟩
  · exact Field.keeps_required (Reader.hands_anything _ _) fun _ _ _ h => ⟨h.condition⟩
  · exact Field.keeps_required (Reader.hands_anything _ _) fun _ _ _ h => ⟨h.condition⟩
  · exact Field.keeps_defaulted (Condition.hands hopen).optional fun _ _ hv _ => ⟨hv⟩

end Connection

/-! ## Positions -/

namespace Position

/-- A position that is read back: both places are numbers in range. -/
structure IsProper (p : Position) : Prop where
  x : (Number.double p.x).IsProper
  y : (Number.double p.y).IsProper

/-- The entries of a position, in the order in which they are written. -/
def entries (p : Position) : List (WrittenEntry Position) :=
  [.of "x" (.double p.x) (fun v p => { p with x := v }) p.x,
    .of "y" (.double p.y) (fun v p => { p with y := v }) p.y]

theorem toJson_eq (p : Position) : p.toJson = .object (Layout.written p.entries) := by
  simp only [toJson, entries, Json.record, WrittenEntry.of, Layout.written, Members.ofEntries,
    Members.merge, Members.insert, List.map_cons, List.map_nil, List.foldl_cons, List.foldl_nil,
    String.reduceLT, String.reduceEq, if_false]

variable {depth : Nat} {p : Position}

theorem recalls (hopen : depth < depthLimit) (h : p.IsProper) :
    layout.read.Recalls depth p.toJson p := by
  have hdouble {d : Double} (hd : (Number.double d).IsProper) :
      Reader.double.Recalls (depth + 1) (.double d) d := by
    rw [Json.double_of_isProper hd]
    exact ⟨Reader.readsBack_double hd, .number hd, hopen⟩
  have hkeeps : ∀ entry ∈ p.entries, layout.Keeps depth entry := by
    simp only [entries, List.forall_mem_cons]
    exact ⟨Layout.keeps_required rfl (hdouble h.x), Layout.keeps_required rfl (hdouble h.y), nofun⟩
  have hback := Layout.recalls hopen hkeeps (Layout.isAscending_of_record p.toJson_eq)
    (by simp [layout, entries, Field.required, WrittenEntry.of])
  rw [← toJson_eq] at hback
  exact hback

theorem hands : layout.read.Hands depth IsProper := by
  have hblank : layout.blank.IsProper := ⟨⟨rfl, rfl⟩, ⟨rfl, rfl⟩⟩
  refine Layout.hands_read hblank ?_
  simp only [layout, List.forall_mem_cons]
  refine ⟨?_, ?_, nofun⟩
  · exact Field.keeps_required Reader.hands_double fun _ _ hv h => ⟨hv, h.y⟩
  · exact Field.keeps_required Reader.hands_double fun _ _ hv h => ⟨h.x, hv⟩

end Position

/-! ## Nodes -/

/-- A label with a meaning of its own names the type that it is written for, and so does any other,
but for the second word for the last type. -/
theorem NodeType.ofLabel_label_ofLabel (label : String) :
    ofLabel (ofLabel label).label = ofLabel label := by
  by_cases hexit : label = "exit"
  · subst hexit
    rfl
  · have hlabel : (ofLabel label).label = label := by
      unfold ofLabel
      rw [if_neg hexit]
      cases hfound : builtIn.find? fun t => t.label == label with
      | none => rfl
      | some t =>
        have hsame := List.find?_some hfound
        exact beq_iff_eq.mp hsame
    rw [hlabel]

namespace Node

/-- A node that is read back inside `depth` containers: its type is the one that its label names,
and its parts fit. -/
structure IsProper (depth : Nat) (n : Node) : Prop where
  type : NodeType.ofLabel n.type.label = n.type
  settings : n.settings.Fits (depth + 1)
  connections : ∀ c ∈ n.connections, c.IsProper (depth + 2)
  position : ∀ p ∈ n.position, p.IsProper

/-- The entries of a node, in the order in which they are written. -/
def entries (n : Node) : List (WrittenEntry Node) :=
  [.of "config" n.settings (fun v n => { n with settings := v }) n.settings,
    .of "connections" (.array (n.connections.map Connection.toJson))
      (fun v n => { n with connections := v }) n.connections,
    .of "id" (.string n.id) (fun v n => { n with id := v }) n.id,
    .of "name" (.string n.name) (fun v n => { n with name := v }) n.name] ++
  WrittenEntry.present "position" n.position Position.toJson
    (fun v n => { n with position := v }) some ++
  [.of "type" (.string n.type.label) (fun v n => { n with type := .ofLabel v }) n.type.label]

theorem toJson_eq (n : Node) : n.toJson = .object (Layout.written n.entries) := by
  obtain ⟨id, type, name, settings, connections, position⟩ := n
  cases position <;>
    simp only [toJson, entries, Json.record, WrittenEntry.present, WrittenEntry.of, Layout.written,
      Members.ofEntries, Members.merge, Members.insert, Option.map_some, Option.map_none,
      Option.toList_some, Option.toList_none, List.cons_append, List.nil_append, List.append_nil,
      List.map_cons, List.map_nil, List.foldl_cons, List.foldl_nil, String.reduceLT,
      String.reduceEq, if_true, if_false]

variable {depth : Nat} {n : Node}

theorem updateAll_entries (h : n.IsProper depth) :
    Layout.updateAll n.entries layout.blank = n := by
  obtain ⟨id, type, name, settings, connections, position⟩ := n
  have htype : NodeType.ofLabel type.label = type := h.type
  cases position <;>
    simp [layout, Layout.updateAll, entries, WrittenEntry.present, WrittenEntry.of, htype]

theorem recalls (hopen : depth + 3 < depthLimit) (h : n.IsProper depth) :
    layout.read.Recalls depth n.toJson n := by
  have htext (s : String) : Reader.text.Recalls (depth + 1) (.string s) s :=
    Reader.recalls_text (by omega) s
  have hkeeps : ∀ entry ∈ n.entries, layout.Keeps depth entry := by
    simp only [entries, List.forall_mem_append, List.forall_mem_cons]
    refine ⟨⟨⟨?_, ?_, ?_, ?_, nofun⟩, ?_⟩, ?_, nofun⟩
    · exact Layout.keeps_defaulted rfl (Reader.recalls_any h.settings)
    · refine Layout.keeps_defaulted rfl (.listOf (by omega) fun c hc => ?_)
      exact Connection.recalls hopen (h.connections c hc)
    · exact Layout.keeps_required rfl (htext n.id)
    · exact Layout.keeps_defaulted rfl (htext n.name)
    · refine Layout.keeps_present rfl fun p hp => ?_
      exact (Position.recalls (by omega) (h.position p hp)).optional (Json.isNull_record _)
    · exact Layout.keeps_required rfl (htext n.type.label)
  have hback := Layout.recalls (by omega) hkeeps (Layout.isAscending_of_record n.toJson_eq)
    (by simp [layout, entries, Field.required, Field.defaulted, WrittenEntry.of])
  rwa [← toJson_eq, updateAll_entries h] at hback

theorem hands (hopen : depth + 3 < depthLimit) : layout.read.Hands depth (IsProper depth) := by
  have hblank : layout.blank.IsProper depth :=
    ⟨by decide, .object (by omega) List.Pairwise.nil nofun, List.forall_mem_nil _, nofun⟩
  refine Layout.hands_read hblank ?_
  simp only [layout, List.forall_mem_cons]
  refine ⟨?_, ?_, ?_, ?_, ?_, ?_, nofun⟩
  · exact Field.keeps_required (Reader.hands_anything _ _) fun _ _ _ h => { h with }
  · refine Field.keeps_required (Reader.hands_anything _ _) fun label _ _ h => { h with type := ?_ }
    exact NodeType.ofLabel_label_ofLabel label
  · exact Field.keeps_defaulted (Reader.hands_anything _ _) fun _ _ _ h => { h with }
  · exact Field.keeps_defaulted (Reader.hands_any (by omega)) fun _ _ hv h =>
      { h with settings := hv }
  · exact Field.keeps_defaulted (Connection.hands hopen).listOf fun _ _ hv h =>
      { h with connections := hv }
  · exact Field.keeps_defaulted Position.hands.optional fun _ _ hv h => { h with position := hv }

end Node

/-! ## Funnels -/

/-- The entry of a list that is left out when it is empty. -/
def WrittenEntry.unlessEmpty {α γ : Type} (name : String) (values : List γ)
    (write : List γ → Json) (set : List γ → α → α) : List (WrittenEntry α) :=
  if values.isEmpty then [] else [.of name (write values) set values]

theorem Layout.keeps_unlessEmpty {α γ : Type} {layout : Layout α} {depth : Nat} {name : String}
    {read : Reader (List γ)} {set : List γ → α → α} {values : List γ} {write : List γ → Json}
    (hfield : (layout.fields.find? fun f => f.name == name) = some (.defaulted name read set))
    (h : read.Recalls (depth + 1) (write values) values) :
    ∀ entry ∈ WrittenEntry.unlessEmpty name values write set, layout.Keeps depth entry := by
  unfold WrittenEntry.unlessEmpty
  split
  next => nofun
  next => exact List.forall_mem_singleton.mpr (keeps_defaulted hfield h)

namespace Funnel

/-- A funnel that is read back. -/
structure IsProper (f : Funnel) : Prop where
  version : f.version < 2 ^ 32
  nodes : ∀ n ∈ f.nodes, n.IsProper 2
  metadata : (Json.object f.metadata).Fits 1

/-- The entries of a funnel, in the order in which they are written. -/
def entries (f : Funnel) : List (WrittenEntry Funnel) :=
  WrittenEntry.present "description" f.description .string
      (fun v f => { f with description := v }) some ++
    [.of "id" (.string f.id) (fun v f => { f with id := v }) f.id] ++
    WrittenEntry.unlessEmpty "metadata" f.metadata .object (fun v f => { f with metadata := v }) ++
    [.of "name" (.string f.name) (fun v f => { f with name := v }) f.name,
      .of "nodes" (.array (f.nodes.map Node.toJson)) (fun v f => { f with nodes := v }) f.nodes] ++
    WrittenEntry.unlessEmpty "tags" f.tags (fun tags => .array (tags.map .string))
      (fun v f => { f with tags := v }) ++
    [.of "version" (.nat f.version) (fun v f => { f with version := v }) f.version]

theorem toJson_eq (f : Funnel) : f.toJson = .object (Layout.written f.entries) := by
  obtain ⟨id, name, description, version, nodes, tags, metadata⟩ := f
  cases description <;> cases tags <;> cases metadata <;>
    simp only [toJson, entries, Json.record, WrittenEntry.present, WrittenEntry.unlessEmpty,
      WrittenEntry.of, Layout.written, Members.ofEntries, Members.merge, Members.insert,
      List.isEmpty_nil, List.isEmpty_cons, Bool.false_eq_true, Option.map_some, Option.map_none,
      Option.toList_some, Option.toList_none, List.cons_append, List.nil_append, List.append_nil,
      List.map_cons, List.map_nil, List.foldl_cons, List.foldl_nil, String.reduceLT,
      String.reduceEq, if_true, if_false]

theorem updateAll_entries (f : Funnel) : Layout.updateAll f.entries layout.blank = f := by
  obtain ⟨id, name, description, version, nodes, tags, metadata⟩ := f
  cases description <;> cases tags <;> cases metadata <;> rfl

/-- A proper funnel is read back. -/
theorem recalls {f : Funnel} (h : f.IsProper) : layout.read.Recalls 0 f.toJson f := by
  have htext (s : String) : Reader.text.Recalls 1 (.string s) s := Reader.recalls_text (by decide) s
  have hnodes : (Reader.listOf Node.layout.read).Recalls 1 (.array (f.nodes.map Node.toJson))
      f.nodes := .listOf (by decide) fun n hn => Node.recalls (by decide) (h.nodes n hn)
  have htags : (Reader.listOf .text).Recalls 1 (.array (f.tags.map .string)) f.tags :=
    .listOf (by decide) fun s _ => Reader.recalls_text (by decide) s
  have hkeeps : ∀ entry ∈ f.entries, layout.Keeps 0 entry := by
    simp only [entries, List.forall_mem_append, List.forall_mem_cons]
    refine ⟨⟨⟨⟨⟨?_, ?_, nofun⟩, ?_⟩, ?_, ?_, nofun⟩, ?_⟩, ?_, nofun⟩
    · exact Layout.keeps_present rfl fun s _ => (htext s).optional rfl
    · exact Layout.keeps_required rfl (htext f.id)
    · exact Layout.keeps_unlessEmpty rfl (Reader.recalls_membersOf_any h.metadata)
    · exact Layout.keeps_defaulted rfl (htext f.name)
    · exact Layout.keeps_required rfl hnodes
    · exact Layout.keeps_unlessEmpty rfl htags
    · have hversion := Reader.readsBack_nat32 h.version
      have hfits : 1 ≤ depthLimit := by decide
      exact Layout.keeps_defaulted rfl ⟨hversion, hversion.proper, hfits⟩
  have hback := Layout.recalls (by decide) hkeeps (Layout.isAscending_of_record f.toJson_eq)
    (by simp [layout, entries, Field.required, Field.defaulted, WrittenEntry.of])
  rwa [← toJson_eq, updateAll_entries] at hback

/-- A funnel that is read of a text is proper. -/
theorem hands : layout.read.Hands 0 IsProper := by
  have hblank : layout.blank.IsProper :=
    ⟨by decide, List.forall_mem_nil _, .object (by decide) List.Pairwise.nil nofun⟩
  refine Layout.hands_read hblank ?_
  simp only [layout, List.forall_mem_cons]
  refine ⟨?_, ?_, ?_, ?_, ?_, ?_, ?_, nofun⟩
  · exact Field.keeps_required (Reader.hands_anything _ _) fun _ _ _ h => { h with }
  · exact Field.keeps_defaulted (Reader.hands_anything _ _) fun _ _ _ h => { h with }
  · exact Field.keeps_defaulted (Reader.hands_anything _ _) fun _ _ _ h => { h with }
  · exact Field.keeps_defaulted Reader.hands_nat32 fun _ _ hv h => { h with version := hv }
  · exact Field.keeps_required (Node.hands (by decide)).listOf fun _ _ hv h =>
      { h with nodes := hv }
  · exact Field.keeps_defaulted (Reader.hands_anything _ _) fun _ _ _ h => { h with }
  · exact Field.keeps_defaulted (Reader.hands_membersOf_any (by decide)) fun _ _ hv h =>
      { h with metadata := hv }

end Funnel

/-- What is handed out at the top of a text is what its reader hands out of the whole. -/
theorem Reader.Hands.ofJsonText {α : Type} {read : Reader α} {P : α → Prop} (h : read.Hands 0 P)
    {text : String} {a : α} (hread : read.ofJsonText text = .ok a) : P a := by
  have hfits := Source.fits_fst_scan text
  unfold Reader.ofJsonText at hread
  generalize Source.scan text = scanned at hfits hread
  obtain ⟨source, ended⟩ := scanned
  obtain ⟨given, hgiven, hend⟩ := Reads.bind_eq_ok_iff.mp hread
  cases ended with
  | true =>
    cases hend
    exact h hfits hgiven
  | false => cases hend

/-- A value that is written as a whole text is read back from it. -/
theorem Reader.Recalls.ofJsonText {α : Type} {read : Reader α} {v : Json} {a : α}
    (h : read.Recalls 0 v a) : read.ofJsonText v.compact = .ok a := by
  rw [Reader.ofJsonText, Source.scan_compact h.back.proper]
  dsimp only
  rw [h.back.within 0 (Nat.zero_le _), Reads.within_of_le h.fits.nesting]
  rfl

/-- **A funnel that was read from a text is the same after it is written and read again.** -/
theorem Funnel.ofJsonText_compact {text : String} {f : Funnel} (h : ofJsonText text = .ok f) :
    ofJsonText f.toJson.compact = .ok f :=
  (recalls (hands.ofJsonText h)).ofJsonText

/-- A funnel as an author may have written it: its nodes, a connection and a condition are lists, a
type stands under its second word, two labels have no meaning, and settings and an operand are null. -/
def Funnel.sketch : Json :=
  let condition : Json := .array [.string "x", .string "?", .null]
  let connection : Json := .array [.string "c", .string "a", .string "b", condition]
  .object [("id", .string "f"), ("nodes", .array [
    .array [.string "a", .string "exit", .string "", .null, .array [connection]],
    .array [.string "b", .string "zap"]])]

theorem Json.isProper_array_iff {items : List Json} :
    (Json.array items).IsProper ↔ ∀ item ∈ items, item.IsProper := by
  constructor
  · intro h
    cases h with
    | array hitems => exact hitems
  · exact .array

theorem Funnel.isProper_sketch : sketch.IsProper := by
  have hnames : "id" < "nodes" := by decide
  refine .object (List.pairwise_pair.mpr hnames) ?_
  simp [Json.isProper_array_iff, Json.IsProper.string, Json.IsProper.null]

/-- All of this stays what it is: the type has its one label, the other labels are kept, and what is
null is not absent. -/
theorem Funnel.sketch_read_again :
    let f : Funnel := ⟨"f", "", none, 1, [⟨"a", .finish, "", .null,
      [⟨"c", "a", "b", some ⟨"x", .unknown "?", some .null⟩⟩], none⟩,
      ⟨"b", .custom "zap", "", .object [], [], none⟩], [], []⟩
    ofJsonText sketch.compact = .ok f ∧ ofJsonText f.toJson.compact = .ok f := by
  intro f
  have hread : ofJsonText sketch.compact = .ok f := by
    rw [ofJsonText, Reader.ofJsonText, Source.scan_compact isProper_sketch]
    rfl
  exact ⟨hread, ofJsonText_compact hread⟩

end Outreach
