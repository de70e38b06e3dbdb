import Caret.Proofs.Typing
/-!
# `Caret.Proofs.Names` — which names of a document are looked up

A type name is known if it is built in or the name of a class that the document declares. Loading looks names up in the
table of types, and a name that is not there makes it fail; so a document that gives a script has known names wherever
loading looks (`hostTypeNames_known`, `Loads.typeNames_known`).

There are three places where loading does not look: an empty type of a written symbol, the type of a property access
whose member was found, and the member of a property access whose callee has no type. `Attended` says that no name is
hidden in these places. The names of a record resolve exactly if it holds (`Script.names_resolve_exactly`).

## Contents
- **Names in a document.** `Data.Knows`, `Data.hostTypeNames`, `Data.typeNames`, `Data.notes`.
- **Names in the table.** `get?_isSome_iff`, `knows_iff`, `hostTypeNames_known`.
- **Names in the tree.** `Loads.typeNames_known`, `Loads.notes_known`.
- **Resolving.** `Resolves`, `Attended`, `Script.names_resolve_exactly`.
- **Names passed over.** `PassedOver`; one document for each of the three places (`Script.unresolved_names_load`).
-/

namespace Caret

/-! ## Names in a document -/

/-- The keys under which a kind of record has type names. -/
def NodeKind.typeKeys : NodeKind → List String
  | .nameExpression | .propertyAccess | .operation _ | .binaryOperator | .predefinedType => ["type"]
  | .method => ["owner"]
  | _ => []

namespace Data

/-- **Known type names**: those of built-in types and of the classes that the document declares. -/
def Knows (doc : Data) (name : String) : Prop :=
  (∃ p ∈ Predefined.all, p.name = name) ∨ ∃ c ∈ doc.slotItems "types", c.textAt? "name" = some name

instance (doc : Data) (name : String) : Decidable (doc.Knows name) :=
  inferInstanceAs (Decidable (_ ∨ _))

/-- The type names in the members of a class of the host. -/
def memberTypeNames (c : Data) : List String :=
  (c.slotItems "properties").filterMap (·.textAt? "type") ++ (c.slotItems "methods").flatMap fun m =>
    (m.textAt? "return").toList ++ (m.slotItems "parameters").filterMap (·.textAt? "type")

/-- The type names in what a document says about the host. -/
def hostTypeNames (doc : Data) : List String :=
  (doc.slotItems "types").flatMap memberTypeNames ++ (doc.slotItems "constants").filterMap (·.textAt? "type")

/-- The type names in a record of the tree, apart from those in its parts and in a written symbol. -/
def typeNames (d : Data) : List String :=
  match d.kind? with
  | some kind => kind.typeKeys.filterMap d.textAt?
  | none => []

/-- The symbols that are written at a name. -/
def notes (d : Data) : List Data :=
  match d.kind? with
  | some .nameExpression => d.slot "symbol"
  | _ => []

end Data

/-! ## Names in the table -/

/-- The type names of a method. -/
def Method.typeNames (m : Method String) : List String := m.returnType :: m.parameters.map Field.type

/-- The type names of a class. -/
def HostClass.typeNames (c : HostClass String) : List String :=
  c.properties.map Field.type ++ c.methods.flatMap Method.typeNames

namespace Schema

open Reading

variable {d : Data} {ds : List Data}

theorem type_of_field {f : Field String} (h : field d = .done f) : d.textAt? "type" = some f.type := by
  cases d with
  | table fs =>
    simp only [field, tableOf, seq_eq_done_iff, map_eq_done_iff] at h
    obtain ⟨_, type, ⟨name, -, rfl⟩, htype, rfl⟩ := h
    exact textAt?_of_required htype
  | _ => contradiction

theorem types_of_fields {fs : List (Field String)} (h : List.Forall₂ (Reads field) ds fs) :
    ds.filterMap (·.textAt? "type") = fs.map Field.type := by
  induction h with
  | nil => rfl
  | @cons d f ds fs hf _ ih => simp only [List.filterMap_cons, type_of_field hf, ih, List.map_cons]

/-- The names in a record of a method are those of the method that was read. -/
theorem types_of_method {m : Method String} (h : method d = .done m) {name : String}
    (hname : name ∈ (d.textAt? "return").toList ++ (d.slotItems "parameters").filterMap (·.textAt? "type")) :
    name ∈ m.typeNames := by
  cases d with
  | table fs =>
    simp only [method, tableOf, seq_eq_done_iff, map_eq_done_iff] at h
    obtain ⟨_, ps, ⟨_, r, ⟨_, -, rfl⟩, hreturn, rfl⟩, hps, rfl⟩ := h
    rw [types_of_fields (reads_items hps)] at hname
    rcases List.mem_append.mp hname with hname | hname
    · obtain rfl : name = r := by
        rcases optional_eq_done_iff.mp hreturn with ⟨hnone, -⟩ | ⟨v, hv, hread⟩
        · simp [Data.textAt?, Data.field?, hnone] at hname
        · obtain rfl := text_eq_done_iff.mp hread
          simpa [Data.textAt?, Data.field?, hv] using hname
      exact List.mem_cons_self
    · exact List.mem_cons_of_mem _ hname
  | _ => contradiction

theorem name_of_typeEntry {c : HostClass String} (h : typeEntry d = .done c) : d.textAt? "name" = some c.name := by
  cases d with
  | table fs =>
    simp only [typeEntry, tableOf, seq_eq_done_iff, map_eq_done_iff] at h
    obtain ⟨_, _, ⟨_, _, ⟨_, _, ⟨_, hname, rfl⟩, -, rfl⟩, -, rfl⟩, -, rfl⟩ := h
    exact textAt?_of_required hname
  | _ => contradiction

/-- The names in the members of a class are those of the class that was read. -/
theorem types_of_typeEntry {c : HostClass String} (h : typeEntry d = .done c) {name : String}
    (hname : name ∈ d.memberTypeNames) : name ∈ c.typeNames := by
  cases d with
  | table fs =>
    simp only [typeEntry, tableOf, seq_eq_done_iff, map_eq_done_iff] at h
    obtain ⟨_, ms, ⟨_, ps, ⟨_, _, ⟨_, -, rfl⟩, -, rfl⟩, hps, rfl⟩, hms, rfl⟩ := h
    rw [Data.memberTypeNames, types_of_fields (reads_items hps)] at hname
    rcases List.mem_append.mp hname with hname | hname
    · exact List.mem_append.mpr (Or.inl hname)
    · obtain ⟨v, hv, hname⟩ := List.mem_flatMap.mp hname
      obtain ⟨m, hm, hread⟩ := forall₂_mem_left (reads_items hms) hv
      exact List.mem_append.mpr (Or.inr (List.mem_flatMap.mpr ⟨m, hm, types_of_method hread hname⟩))
  | _ => contradiction

end Schema

namespace Binding

variable {table : TypeTable}

theorem get?_of_field {f : Field String} {g : Field ScriptType} (h : field table f = .ok g) :
    (table.get? f.type).isSome := by
  obtain ⟨t, ht, -⟩ := map_eq_ok.mp h
  rw [type_eq_ok_iff.mp ht]
  rfl

/-- All names in a method that was bound are in the table. -/
theorem get?_of_method {m : Method String} {m' : Method ScriptType} (h : method table m = .ok m') {name : String}
    (hname : name ∈ m.typeNames) : (table.get? name).isSome := by
  simp only [method, bind_eq_ok] at h
  obtain ⟨r, hr, ps, hps, -⟩ := h
  rcases List.mem_cons.mp hname with rfl | hname
  · rw [type_eq_ok_iff.mp hr]
    rfl
  · obtain ⟨p, hp, rfl⟩ := List.mem_map.mp hname
    obtain ⟨_, -, hp⟩ := forall₂_mem_left (mapM_eq_ok hps) hp
    exact get?_of_field hp

/-- A class is declared only if the types of its members are in the table already. -/
theorem get?_of_declare {c : HostClass String} {table' : TypeTable} (h : declare table c = .ok table') {name : String}
    (hname : name ∈ c.typeNames) : (table.get? name).isSome := by
  obtain ⟨properties, methods, hproperties, hmethods, -⟩ := declare_eq_ok h
  rcases List.mem_append.mp hname with hname | hname
  · obtain ⟨p, hp, rfl⟩ := List.mem_map.mp hname
    obtain ⟨_, -, hp⟩ := forall₂_mem_left hproperties hp
    exact get?_of_field hp
  · obtain ⟨m, hm, hname⟩ := List.mem_flatMap.mp hname
    obtain ⟨_, -, hm⟩ := forall₂_mem_left hmethods hm
    exact get?_of_method hm hname

/-- Declaring a class adds its name and takes none away. -/
theorem get?_isSome_of_declare {c : HostClass String} {table' : TypeTable} (h : declare table c = .ok table')
    (name : String) : (table'.get? name).isSome ↔ name = c.name ∨ (table.get? name).isSome := by
  obtain ⟨_, _, -, -, rfl⟩ := declare_eq_ok h
  rw [TypeTable.get?_declare]
  split
  · simp [*]
  · simp [*]

/-- **The names in the table** are those of the built-in types and of the declared classes. -/
theorem get?_isSome_iff {types : List (HostClass String)} (h : Binding.table types = .ok table) (name : String) :
    (table.get? name).isSome ↔ (∃ p ∈ Predefined.all, p.name = name) ∨ ∃ c ∈ types, c.name = name := by
  refine table_induction (P := fun table past =>
    (table.get? name).isSome ↔ (∃ p ∈ Predefined.all, p.name = name) ∨ ∃ c ∈ past, c.name = name) ?_ ?_ h
  · rw [TypeTable.get?, List.lookup_isSome_iff, TypeTable.builtIn]
    simp only [List.mem_map, exists_exists_and_eq_and, beq_iff_eq, List.not_mem_nil, false_and, exists_false, or_false]
    exact exists_congr fun p => and_congr_right fun _ => eq_comm
  · intro table past c table' ih hdeclare
    rw [get?_isSome_of_declare hdeclare, ih]
    simp only [List.mem_append, List.mem_singleton, or_and_right, exists_or, exists_eq_left]
    grind

/-- The types of the members of all declared classes are in the table. -/
theorem get?_of_typeNames {types : List (HostClass String)} (h : Binding.table types = .ok table) :
    ∀ c ∈ types, ∀ name ∈ c.typeNames, (table.get? name).isSome := by
  refine table_induction (P := fun table past => ∀ c ∈ past, ∀ name ∈ c.typeNames, (table.get? name).isSome) ?_ ?_ h
  · intro c hc
    contradiction
  · intro table past c table' ih hdeclare c' hc' name hname
    refine (get?_isSome_of_declare hdeclare name).mpr (Or.inr ?_)
    rcases List.mem_append.mp hc' with hc' | hc'
    · exact ih c' hc' name hname
    · rw [List.mem_singleton.mp hc'] at hname
      exact get?_of_declare hdeclare hname

end Binding

section Documents

variable {doc : Data} {types : List (HostClass String)} {table : TypeTable}

/-- **Known names are those in the table.** -/
theorem knows_iff (hread : List.Forall₂ (Reading.Reads Schema.typeEntry) (doc.slotItems "types") types)
    (htable : Binding.table types = .ok table) (name : String) : doc.Knows name ↔ (table.get? name).isSome := by
  have hnames : (doc.slotItems "types").map (·.textAt? "name") = types.map fun c => some c.name :=
    map_eq_of_forall₂ hread fun d c _ hc => Schema.name_of_typeEntry hc
  have hmem : (∃ c ∈ doc.slotItems "types", c.textAt? "name" = some name) ↔ ∃ c ∈ types, c.name = name := by
    rw [← List.mem_map, hnames, List.mem_map]
    simp only [Option.some.injEq]
  rw [Binding.get?_isSome_iff htable, Data.Knows, hmem]

/-- **Every type name that a document has about the host is known.** -/
theorem hostTypeNames_known {constants : List (Field String)} {symbols : List Symbol}
    (hread : List.Forall₂ (Reading.Reads Schema.typeEntry) (doc.slotItems "types") types)
    (htable : Binding.table types = .ok table)
    (hconstants : List.Forall₂ (Reading.Reads Schema.field) (doc.slotItems "constants") constants)
    (hbound : List.Forall₂ (Binding.Gives (Binding.constant table)) constants symbols) :
    ∀ name ∈ doc.hostTypeNames, doc.Knows name := by
  intro name hname
  rw [knows_iff hread htable]
  rcases List.mem_append.mp hname with hname | hname
  · obtain ⟨d, hd, hname⟩ := List.mem_flatMap.mp hname
    obtain ⟨c, hc, hentry⟩ := forall₂_mem_left hread hd
    exact Binding.get?_of_typeNames htable c hc name (Schema.types_of_typeEntry hentry hname)
  · rw [Schema.types_of_fields hconstants] at hname
    obtain ⟨f, hf, rfl⟩ := List.mem_map.mp hname
    obtain ⟨_, -, hs⟩ := forall₂_mem_left hbound hf
    obtain ⟨t, ht, -⟩ := Binding.map_eq_ok.mp hs
    rw [Binding.type_eq_ok_iff.mp ht]
    rfl

end Documents

/-! ## Names in the tree -/

theorem Schema.type_of_symbolNote {v : Data} {note : Draft.SymbolNote} (h : Schema.symbolNote v = .done note) :
    v.textAt? "type" = note.type := by
  cases v with
  | table fs =>
    simp only [Schema.symbolNote, Reading.tableOf, Reading.seq_eq_done_iff, Reading.map_eq_done_iff] at h
    obtain ⟨_, _, ⟨_, _, ⟨_, _, ⟨_, -, rfl⟩, -, rfl⟩, htype, rfl⟩, -, rfl⟩ := h
    exact Reading.textAt?_of_optional htype
  | _ => contradiction

namespace Loads

variable {table : TypeTable} {place : ValueKind} {d : Data} {n : Node} {word : String}

theorem name {ref : NameRef} (h : Loads table place d (.name ref)) :
    (∃ t, Binding.type? table (d.textAt? "type") = .ok t) ∧
      ∀ note ∈ d.slot "symbol", ∃ t, Binding.type? table (Binding.written? (note.textAt? "type")) = .ok t := by
  obtain ⟨fs, _, rfl, hfields, hbind⟩ := h.fields
  obtain ⟨m, hm, rfl⟩ := Reading.map_eq_done_iff.mp hfields
  obtain ⟨-, -, htype, hsymbol⟩ := Schema.nameFields_eq_done hm
  have hname : ∃ fromPlace, Binding.name table m fromPlace = .ok ref := by
    cases hbind with
    | node _ h =>
      obtain ⟨_, h, ⟨⟩⟩ := Binding.map_eq_ok.mp h
      exact ⟨_, h⟩
    | name h => exact ⟨_, h⟩
  obtain ⟨fromPlace, hname⟩ := hname
  obtain ⟨-, -, t, ht, hnote, -⟩ := Binding.name_eq_ok hname
  rw [Reading.textAt?_of_optional htype]
  refine ⟨⟨t, ht⟩, fun v hv => ?_⟩
  obtain ⟨note, hmem, hread⟩ := forall₂_mem_left (Reading.reads_optional hsymbol) hv
  obtain ⟨s, hs, -⟩ := hnote note (Option.mem_toList.mp hmem)
  obtain ⟨t, _, ht, -⟩ := Binding.symbol_eq_ok hs
  rw [Schema.type_of_symbolNote hread]
  exact ⟨t, ht⟩

theorem operation {k : OperationKind} {g : Group Node} {t : Option ScriptType}
    (h : Loads table place d (.operation k g t)) : Binding.type? table (d.textAt? "type") = .ok t := by
  obtain ⟨fs, _, rfl, hfields, hbind⟩ := h.fields
  simp only [Schema.nodeFields, Node.kind, Reading.seq_eq_done_iff, Reading.map_eq_done_iff] at hfields
  obtain ⟨_, _, ⟨_, -, rfl⟩, ht, rfl⟩ := hfields
  obtain ⟨_, hnode⟩ := hbind
  obtain ⟨_, _, ⟨⟩, -, htype⟩ := Binding.operation_eq_ok hnode
  rwa [Reading.textAt?_of_optional ht]

theorem typeName {r : Range} {t : ScriptType} (h : Loads table place d (.typeName r t)) :
    ∃ name, d.textAt? "type" = some name ∧ table.get? name = some t := by
  obtain ⟨fs, _, rfl, hfields, hbind⟩ := h.fields
  simp only [Schema.nodeFields, Node.kind, Reading.seq_eq_done_iff, Reading.map_eq_done_iff] at hfields
  obtain ⟨_, name, ⟨_, -, rfl⟩, ht, rfl⟩ := hfields
  obtain ⟨_, hnode⟩ := hbind
  obtain ⟨_, ⟨⟩, hget⟩ := Binding.typeName_eq_ok hnode
  exact ⟨name, Reading.textAt?_of_required ht, hget⟩

/-- Which fields of a record hold type names depends on its kind. -/
theorem mem_typeNames_iff (h : Loads table place d n) :
    word ∈ d.typeNames ↔ ∃ key ∈ n.kind.typeKeys, d.textAt? key = some word := by
  rw [Data.typeNames, h.kind?]
  exact List.mem_filterMap

/-- **Type names of a record are looked up**, unless it is a property access whose member was found. -/
theorem typeNames_known (h : Loads table place d n) (hopen : ∀ a, n = .access a → a.member = none)
    (hword : word ∈ d.typeNames) : (table.get? word).isSome := by
  obtain ⟨key, hkey, htext⟩ := h.mem_typeNames_iff.mp hword
  cases n with
  | name ref =>
    obtain rfl := List.mem_singleton.mp hkey
    obtain ⟨t, ht⟩ := h.name.1
    exact Binding.get?_of_type? ht htext
  | operation k g t =>
    obtain rfl := List.mem_singleton.mp hkey
    exact Binding.get?_of_type? h.operation htext
  | access a =>
    obtain rfl := List.mem_singleton.mp hkey
    rcases h.access.2 with ⟨p, hp, -⟩ | ⟨-, ht⟩
    · rw [hopen a rfl] at hp
      contradiction
    · exact Binding.get?_of_type? ht htext
  | binary r left right op =>
    obtain rfl := List.mem_singleton.mp hkey
    obtain ⟨-, -, other, hother, hget⟩ := h.binary
    rw [Option.some.inj (htext.symm.trans hother), hget]
    rfl
  | typeName r t =>
    obtain rfl := List.mem_singleton.mp hkey
    obtain ⟨other, hother, hget⟩ := h.typeName
    rw [Option.some.inj (htext.symm.trans hother), hget]
    rfl
  | method r owner m =>
    obtain rfl := List.mem_singleton.mp hkey
    obtain ⟨other, hother, hget, -⟩ := h.method
    rw [Option.some.inj (htext.symm.trans hother), hget]
    rfl
  | _ => contradiction

/-- **The type of a written symbol is looked up**, unless it is empty. -/
theorem notes_known (h : Loads table place d n) {note : Data} (hnote : note ∈ d.notes)
    (htext : note.textAt? "type" = some word) (hne : word ≠ "") : (table.get? word).isSome := by
  rw [Data.notes, h.kind?] at hnote
  cases n with
  | name ref =>
    obtain ⟨t, ht⟩ := h.name.2 note hnote
    refine Binding.get?_of_type? ht ?_
    rw [htext, Binding.written?, if_neg (by simpa using hne)]
  | _ => contradiction

end Loads

/-! ## Resolving -/

/-- **Every name of a record resolves.** Its type names and those of a written symbol are known, a written member is a
property of the type of the callee, and a method is one of the written owner. -/
structure Resolves (doc d : Data) (n : Node) : Prop where
  types : ∀ name ∈ d.typeNames, doc.Knows name
  notes : ∀ note ∈ d.notes, ∀ name, note.textAt? "type" = some name → doc.Knows name
  member : ∀ a, n = .access a → ∀ name, d.textAt? "member" = some name →
    ∃ owner, a.callee.type? = some owner ∧ ∃ p ∈ owner.properties, p.name = name
  method : ∀ r owner m, n = .method r owner m →
    d.textAt? "owner" = some owner.name ∧ m ∈ owner.methods ∧ d.textAt? "method" = some m.name

/-- **No name is hidden where loading does not look.** -/
structure Attended (doc d : Data) (n : Node) : Prop where
  /-- The type of a written symbol is not looked up if it is empty. -/
  notes : ∀ note ∈ d.notes, note.textAt? "type" = some "" → doc.Knows ""
  /-- The type of a property access is not looked up if its member was found. -/
  type : ∀ a, n = .access a → a.member.isSome → ∀ name, d.textAt? "type" = some name → doc.Knows name
  /-- The member of a property access is not looked up if its callee has no type. -/
  callee : ∀ a, n = .access a → (d.textAt? "member").isSome → a.callee.type?.isSome

namespace Loads

variable {doc : Data} {table : TypeTable} {place : ValueKind} {d : Data} {n : Node}

/-- A written member is found if the callee has a type. -/
theorem member {a : Access Node} (h : Loads table place d (.access a)) {name : String}
    (hname : d.textAt? "member" = some name) {owner : ScriptType} (howner : a.callee.type? = some owner) :
    ∃ p ∈ owner.properties, p.name = name := by
  have hmember := h.access.1
  cases hfound : a.member with
  | none =>
    rw [hfound] at hmember
    rcases Binding.member_eq_ok_none hmember with hnone | hnone
    · rw [hname] at hnone
      contradiction
    · rw [howner] at hnone
      contradiction
  | some p =>
    rw [hfound] at hmember
    obtain ⟨hp, owner', howner', hfirst⟩ := Binding.member_eq_ok_some hmember
    obtain rfl := Option.some.inj (howner.symm.trans howner')
    exact ⟨p, List.mem_of_find?_eq_some hfirst, Option.some.inj (hp.symm.trans hname)⟩

/-- The names of a node that was loaded resolve exactly if this also holds of those that loading did not look up. -/
theorem resolves_iff_attended (h : Loads table place d n) (hknows : ∀ name, doc.Knows name ↔ (table.get? name).isSome)
    (htable : ∀ name t, table.get? name = some t → t.name = name) : Resolves doc d n ↔ Attended doc d n := by
  constructor
  · intro hres
    refine ⟨fun note hnote => hres.notes note hnote "", ?_, ?_⟩
    · rintro a rfl - name hname
      exact hres.types name (h.mem_typeNames_iff.mpr ⟨"type", List.mem_singleton_self _, hname⟩)
    · rintro a rfl hsome
      obtain ⟨name, hname⟩ := Option.isSome_iff_exists.mp hsome
      obtain ⟨owner, howner, -⟩ := hres.member a rfl name hname
      rw [howner]
      rfl
  · intro hatt
    refine ⟨?_, ?_, ?_, ?_⟩
    · intro name hname
      -- a member that was found is the one case in which the type is passed over
      by_cases hopen : ∀ a, n = .access a → a.member = none
      · exact (hknows name).mpr (h.typeNames_known hopen hname)
      · simp only [not_forall] at hopen
        obtain ⟨a, rfl, hfound⟩ := hopen
        obtain ⟨key, hkey, htext⟩ := h.mem_typeNames_iff.mp hname
        obtain rfl := List.mem_singleton.mp hkey
        exact hatt.type a rfl (Option.isSome_iff_ne_none.mpr hfound) name htext
    · intro note hnote name htext
      by_cases hempty : name = ""
      · subst hempty
        exact hatt.notes note hnote htext
      · exact (hknows name).mpr (h.notes_known hnote htext hempty)
    · rintro a rfl name hname
      obtain ⟨owner, howner⟩ := Option.isSome_iff_exists.mp (hatt.callee a rfl (by rw [hname]; rfl))
      exact ⟨owner, howner, h.member hname howner⟩
    · rintro r owner m rfl
      obtain ⟨howner, hm, hfirst⟩ := (h.typed htable).method r owner m rfl
      exact ⟨howner, List.mem_of_find?_eq_some hfirst, hm⟩

end Loads

/-- **Which names of a document resolve.** In a document that gives a script all type names about the host are
known. The names of a record of the tree resolve exactly if none of them is hidden where loading does not look. -/
theorem Script.names_resolve_exactly {doc : Data} {s : Script} (h : Script.load doc = .ok s) :
    (∀ name ∈ doc.hostTypeNames, doc.Knows name) ∧
      ∃ u, doc.field? "unit" = some u ∧ ∀ path d, u.follow path = some d →
        ∃ t, (Node.unit s.unit).at? path = some t ∧ (Resolves doc d t.node ↔ Attended doc d t.node) := by
  obtain ⟨types, constants, table, u, htypes, htable, hconstants, hbound, hu, hload⟩ := Script.load_eq_ok h
  refine ⟨hostTypeNames_known htypes htable hconstants hbound, u, hu, fun path d hd => ?_⟩
  obtain ⟨t, ht, hnode⟩ := hload.node_of_follow hd
  exact ⟨t, ht, hnode.resolves_iff_attended (knows_iff htypes htable) fun _ _ => Binding.name_of_get? htable⟩

/-- In `Data.accounts` the names of `account.balance` resolve, and nothing about the host is unknown. -/
theorem Script.names_resolve_exactly_accounts :
    ∃ s u d t, Script.load Data.accounts = .ok s ∧ (∀ name ∈ Data.accounts.hostTypeNames, Data.accounts.Knows name) ∧
      Data.accounts.field? "unit" = some u ∧ u.follow [2, 0, 1, 0] = some d ∧
      (Node.unit s.unit).at? [2, 0, 1, 0] = some t ∧ d.textAt? "member" = some "balance" ∧
      Resolves Data.accounts d t.node := by
  obtain ⟨hhost, u, hu, hrecords⟩ := @Script.names_resolve_exactly Data.accounts _ rfl
  obtain rfl := Option.some.inj hu
  obtain ⟨t, ht, hiff⟩ := hrecords [2, 0, 1, 0] _ rfl
  refine ⟨_, _, _, t, rfl, hhost, rfl, rfl, ht, rfl, hiff.mpr ⟨?_, ?_, ?_⟩⟩
  · intro note hnote
    contradiction
  · intro a _ _ name hname
    contradiction
  · obtain rfl := Option.some.inj ht
    rintro a ⟨⟩ -
    rfl

/-! ### Names that are passed over -/

namespace Data

/-- A document with a class of accounts and one statement. -/
def withStatement (statement : Data) : Data :=
  .table
    [("types", .list [.table [("name", .text "Account"), ("properties", .list [typed "balance" "int"])]]),
     ("unit", statementsOnly [0, 0, 1, 0] (record .statementsList [0, 0, 1, 0] [("statements", .list [statement])]))]

/-- A name with a symbol whose type is the empty text. -/
def emptyNoteType : Data :=
  record .nameExpression [0, 0, 0, 1]
    [("name", .text "n"), ("type", .text "int"),
     ("symbol", .table [("kind", .text "local"), ("name", .text "n"), ("type", .text "")])]

/-- The access `account.balance` with a type that is not declared. -/
def undeclaredAccessType : Data :=
  record .propertyAccess [0, 0, 0, 15]
    [("callee", accountRecord [0, 0, 0, 7]), ("name", .text "balance"), ("member", .text "balance"),
     ("type", .text "Missing")]

/-- The access of a member of a name that has no type. -/
def memberOfUntyped : Data :=
  record .propertyAccess [0, 0, 0, 9]
    [("callee", nameRecord [0, 0, 0, 1] "n"), ("name", .text "missing"), ("member", .text "missing")]

/-- As the only statement of a document a record is loaded, although its names do not all resolve. -/
def PassedOver (d : Data) : Prop :=
  ∃ s u t, Script.load (withStatement d) = .ok s ∧ (withStatement d).field? "unit" = some u ∧
    u.follow [0, 0] = some d ∧ (Node.unit s.unit).at? [0, 0] = some t ∧ ¬ Resolves (withStatement d) d t.node

end Data

/-- In each of the three places a name that does not resolve is passed over. -/
theorem Script.unresolved_names_load :
    Data.emptyNoteType.PassedOver ∧ Data.undeclaredAccessType.PassedOver ∧ Data.memberOfUntyped.PassedOver := by
  refine ⟨?_, ?_, ?_⟩
  · refine ⟨_, _, _, rfl, rfl, rfl, rfl, fun h => ?_⟩
    exact absurd (h.notes _ (List.mem_singleton_self _) "" rfl) (by decide)
  · refine ⟨_, _, _, rfl, rfl, rfl, rfl, fun h => ?_⟩
    exact absurd (h.types "Missing" (List.mem_singleton_self _)) (by decide)
  · refine ⟨_, _, _, rfl, rfl, rfl, rfl, fun h => ?_⟩
    obtain ⟨_, howner, -⟩ := h.member _ rfl "missing" rfl
    contradiction

end Caret
