import Caret.Proofs.Names
/-!
# `Caret.Proofs.Declarations` — what type names mean, declaration by declaration

The classes of a document are declared one after the other, and a name means what it meant when the class that uses it
was declared: the last class of that name so far, or else the built-in type. Names may be declared again, also those of
built-in types.

The table of types is compared here with the list of the classes in their order. A declaration looks its names up
one after the other and stops at the first one without a meaning (`failure?_declare`); by induction on the
declarations, the whole table fails at the first such name of the document (`failure?_foldlM`). If no name is
without a meaning, each class has the meanings that stand before it in the list (`Declares`), whatever is declared
later.

## Contents
- **Meanings.** `HostClass.named?`, `HostClass.ResolvedBy`, `HostClass.Declares`.
- **References.** `HostClass.Known`, `HostClass.references`, `HostClass.isUnresolved`.
- **Failures.** `Binding.failure?`, from single lookups to the whole table.
- **The table.** `Binding.table_means`, `Binding.type_table_exact`.
-/

namespace Caret

/-! ## Meanings -/

namespace HostClass

/-- **What a name means** after some classes: the last one of that name, or else the built-in type. -/
def named? (classes : List (HostClass ScriptType)) (name : String) : Option ScriptType :=
  ((classes.filter fun k => k.name == name).getLast?.map .host).or
    ((Predefined.all.find? fun p => p.name == name).map .predefined)

/-- A name with its type, once the name of the type has a meaning. -/
def FieldBy (meaning : String → Option ScriptType) (f : Field String) (g : Field ScriptType) : Prop :=
  g.name = f.name ∧ meaning f.type = some g.type

/-- A method with its types, once their names have meanings. -/
structure MethodBy (meaning : String → Option ScriptType) (m : Method String) (m' : Method ScriptType) : Prop where
  name : m'.name = m.name
  returnType : meaning m.returnType = some m'.returnType
  parameters : List.Forall₂ (FieldBy meaning) m.parameters m'.parameters

/-- A class with its types, once their names have meanings. -/
structure ResolvedBy (meaning : String → Option ScriptType) (c : HostClass String) (k : HostClass ScriptType) :
    Prop where
  name : k.name = c.name
  qualifiedName : k.qualifiedName = c.qualifiedName
  properties : List.Forall₂ (FieldBy meaning) c.properties k.properties
  methods : List.Forall₂ (MethodBy meaning) c.methods k.methods

/-- **Classes as they are declared.** The types of a class are what their names mean after the classes before it. -/
structure Declares (types : List (HostClass String)) (classes : List (HostClass ScriptType)) : Prop where
  length : classes.length = types.length
  resolved : ∀ i c k, types[i]? = some c → classes[i]? = some k → ResolvedBy (named? (classes.take i)) c k

/-- Before the first class the built-in types are there. -/
theorem named?_nil (name : String) : named? [] name = TypeTable.builtIn.get? name := by
  have hlookup : ∀ ps : List Predefined,
      ((ps.find? fun p => p.name == name).map ScriptType.predefined) =
        (ps.map fun p => (p.name, ScriptType.predefined p)).lookup name := by
    intro ps
    induction ps with
    | nil => rfl
    | cons p ps ih =>
      rw [List.map_cons, List.lookup_cons, List.find?_cons, Bool.beq_comm]
      cases name == p.name with
      | true => rfl
      | false => exact ih
  exact hlookup Predefined.all

/-- The last class of a name is the one that it means. -/
theorem named?_append (classes : List (HostClass ScriptType)) (k : HostClass ScriptType) (name : String) :
    named? (classes ++ [k]) name = if name = k.name then some (.host k) else named? classes name := by
  unfold named?
  rw [List.filter_append]
  by_cases h : name = k.name
  · simp [h]
  · have hne : (k.name == name) = false := by simpa using Ne.symm h
    simp [h, hne]

/-- One more class takes its types from the classes so far and changes nothing about them. -/
theorem Declares.append {types : List (HostClass String)} {classes : List (HostClass ScriptType)}
    {c : HostClass String} {k : HostClass ScriptType} (h : Declares types classes)
    (hk : ResolvedBy (named? classes) c k) : Declares (types ++ [c]) (classes ++ [k]) := by
  refine ⟨by simp [h.length], ?_⟩
  intro i c' k' hc' hk'
  rcases Nat.lt_or_ge i classes.length with hi | hi
  · rw [List.getElem?_append_left (h.length ▸ hi)] at hc'
    rw [List.getElem?_append_left hi] at hk'
    rw [List.take_append_of_le_length (Nat.le_of_lt hi)]
    exact h.resolved i c' k' hc' hk'
  · obtain rfl : i = classes.length := by
      have hlt : i < (classes ++ [k]).length := (List.getElem?_eq_some_iff.mp hk').1
      simp at hlt
      omega
    rw [List.getElem?_concat_length] at hk'
    rw [h.length, List.getElem?_concat_length] at hc'
    obtain rfl := Option.some.inj hk'
    obtain rfl := Option.some.inj hc'
    rwa [List.take_left]

/-! ## References -/

/-- A name has a meaning after some classes: it is built in or the name of one of them. -/
def Known (types : List (HostClass String)) (name : String) : Prop :=
  (∃ p ∈ Predefined.all, p.name = name) ∨ ∃ c ∈ types, c.name = name

instance (types : List (HostClass String)) (name : String) : Decidable (Known types name) :=
  inferInstanceAs (Decidable (_ ∨ _))

/-- The references from the class at an index on, in the order of the document: class by class, the types of the
properties, then for each method its return type and the types of its parameters. Each has the index of its class. -/
def referencesFrom (start : Nat) (types : List (HostClass String)) : List (Nat × String) :=
  (types.zipIdx start).flatMap fun entry => entry.1.typeNames.map fun name => (entry.2, name)

/-- All references of the classes. -/
def references (types : List (HostClass String)) : List (Nat × String) := referencesFrom 0 types

/-- The name of a reference has no meaning after the classes before its own. -/
def isUnresolved (types : List (HostClass String)) (reference : Nat × String) : Bool :=
  !decide (Known (types.take reference.1) reference.2)

/-- A reference is a type name in a class, with the place of the class. -/
theorem mem_references {types : List (HostClass String)} {i : Nat} {name : String} :
    (i, name) ∈ references types ↔ ∃ c, types[i]? = some c ∧ name ∈ c.typeNames := by
  simp [references, referencesFrom, List.mk_mem_zipIdx_iff_getElem?]

end HostClass

/-! ## Failures -/

namespace Binding

variable {α β : Type} {table : TypeTable}

/-- Why something cannot be bound. -/
def failure? : Bound α → Option BindingError
  | .ok _ => none
  | .error e => some e

/-- Why something cannot be bound, if it cannot. -/
theorem failure?_eq_none_iff {x : Bound α} : failure? x = none ↔ ∃ a, x = .ok a := by
  cases x <;> simp [failure?]

theorem failure?_eq_some_iff {x : Bound α} {e : BindingError} : failure? x = some e ↔ x = .error e := by
  cases x <;> simp [failure?]

theorem failure?_map (f : α → β) (x : Bound α) : failure? (f <$> x) = failure? x := by
  cases x <;> rfl

/-- The first of two steps that fails is the reason. -/
theorem failure?_bind {x : Bound α} {f : α → Bound β} {later : Option BindingError}
    (h : ∀ a, x = .ok a → failure? (f a) = later) : failure? (x >>= f) = (failure? x).or later := by
  cases x with
  | ok a => exact h a rfl
  | error e => rfl

/-- What is bound one by one fails as the first that fails. -/
theorem failure?_mapM (f : α → Bound β) (as : List α) :
    failure? (as.mapM f) = as.findSome? fun a => failure? (f a) := by
  induction as with
  | nil => rfl
  | cons a as ih =>
    have hrest : ∀ b, f a = .ok b → failure? (as.mapM f >>= fun bs => pure (b :: bs)) = failure? (as.mapM f) :=
      fun b _ => failure?_map (b :: ·) (as.mapM f)
    rw [List.mapM_cons, failure?_bind hrest, ih, List.findSome?_cons]
    cases failure? (f a) <;> rfl

/-- The failure of looking names up one after the other: the first that is not in the table. -/
def unknown? (table : TypeTable) (names : List String) : Option BindingError :=
  (names.find? fun name => (table.get? name).isNone).map .unknownType

/-- The first unknown name, in the order of the names. -/
theorem unknown?_append (names others : List String) :
    unknown? table (names ++ others) = (unknown? table names).or (unknown? table others) := by
  rw [unknown?, List.find?_append, Option.map_or]
  rfl

theorem unknown?_flatMap (names : α → List String) (as : List α) :
    unknown? table (as.flatMap names) = as.findSome? fun a => unknown? table (names a) := by
  induction as with
  | nil => rfl
  | cons a as ih =>
    rw [List.flatMap_cons, unknown?_append, ih, List.findSome?_cons]
    cases unknown? table (names a) <;> rfl

/-- A field or a method fails at the first unknown name in it. -/
theorem failure?_type (name : String) : failure? (type table name) = unknown? table [name] := by
  unfold type unknown?
  cases h : table.get? name <;> simp [failure?, h]

theorem failure?_field (f : Field String) : failure? (field table f) = unknown? table [f.type] := by
  rw [field, failure?_map, failure?_type]

theorem failure?_fields (fs : List (Field String)) :
    failure? (fs.mapM (field table)) = unknown? table (fs.map Field.type) := by
  rw [failure?_mapM, List.map_eq_flatMap, unknown?_flatMap]
  simp only [failure?_field]

theorem failure?_method (m : Method String) : failure? (method table m) = unknown? table m.typeNames := by
  have hparameters : ∀ r, type table m.returnType = .ok r →
      failure? (m.parameters.mapM (field table) >>= fun ps => pure (Method.mk m.name r ps)) =
        unknown? table (m.parameters.map Field.type) := by
    intro r _
    rw [← failure?_fields]
    exact failure?_map (Method.mk m.name r) _
  rw [method, failure?_bind hparameters, failure?_type, ← unknown?_append]
  rfl

theorem failure?_methods (ms : List (Method String)) :
    failure? (ms.mapM (method table)) = unknown? table (ms.flatMap Method.typeNames) := by
  rw [failure?_mapM, unknown?_flatMap]
  simp only [failure?_method]

/-- **One declaration** fails at the first of its names that is not in the table. -/
theorem failure?_declare (c : HostClass String) : failure? (declare table c) = unknown? table c.typeNames := by
  have hmethods : ∀ properties, c.properties.mapM (field table) = .ok properties →
      failure? (c.methods.mapM (method table) >>= fun methods =>
        pure (table.declare c.name (.host ⟨c.name, c.qualifiedName, properties, methods⟩))) =
        unknown? table (c.methods.flatMap Method.typeNames) := by
    intro properties _
    rw [← failure?_methods]
    exact failure?_map (fun methods => table.declare c.name (.host ⟨c.name, c.qualifiedName, properties, methods⟩)) _
  rw [declare, failure?_bind hmethods, failure?_fields, ← unknown?_append]
  rfl

open HostClass (Known references referencesFrom isUnresolved named? FieldBy MethodBy ResolvedBy Declares)

/-- The names of one class are references after the classes before it. -/
theorem unknown?_eq_unresolved {past : List (HostClass String)} (h : Binding.table past = .ok table)
    (c : HostClass String) (rest : List (HostClass String)) :
    unknown? table c.typeNames =
      ((c.typeNames.map fun name => (past.length, name)).find? (isUnresolved (past ++ c :: rest))).map
        fun r => .unknownType r.2 := by
  have hknown : ∀ name, (table.get? name).isNone = isUnresolved (past ++ c :: rest) (past.length, name) := by
    intro name
    have hsome : (table.get? name).isSome ↔ Known past name := get?_isSome_iff h name
    rw [isUnresolved, List.take_left, ← Option.not_isSome, Bool.not_inj_iff, Bool.eq_iff_iff, hsome, decide_eq_true_iff]
  rw [unknown?, List.find?_map, Option.map_map]
  simp only [hknown]
  rfl

/-- **All declarations** fail at the first reference without a meaning. -/
theorem failure?_foldlM (rest : List (HostClass String)) : ∀ (past : List (HostClass String)) (table : TypeTable),
    Binding.table past = .ok table →
    failure? (rest.foldlM declare table) =
      ((referencesFrom past.length rest).find? (isUnresolved (past ++ rest))).map fun r => .unknownType r.2 := by
  -- by induction on the classes that are still to come, for all those that have been declared
  induction rest with
  | nil => intro past table _; rfl
  | cons c rest ih =>
    intro past table hpast
    have hlater : ∀ next, declare table c = .ok next → failure? (rest.foldlM declare next) =
        ((referencesFrom (past.length + 1) rest).find? (isUnresolved (past ++ c :: rest))).map
          fun r => .unknownType r.2 := by
      intro next hnext
      have htable : Binding.table (past ++ [c]) = .ok next := by
        rw [Binding.table, List.foldlM_append, bind_eq_ok]
        refine ⟨table, hpast, ?_⟩
        rw [List.foldlM_cons, bind_eq_ok]
        exact ⟨next, hnext, rfl⟩
      have hrest := ih (past ++ [c]) next htable
      rwa [List.length_append, List.length_singleton, List.append_assoc, List.singleton_append] at hrest
    rw [List.foldlM_cons, failure?_bind hlater, failure?_declare, unknown?_eq_unresolved hpast c rest, ← Option.map_or,
      ← List.find?_append]
    rfl

/-- **The table fails at the first reference that is not resolved.** -/
theorem failure?_table (types : List (HostClass String)) :
    failure? (Binding.table types) =
      ((references types).find? (isUnresolved types)).map fun r => .unknownType r.2 :=
  failure?_foldlM types [] TypeTable.builtIn rfl

/-! ## The table -/

section Meanings

variable {classes : List (HostClass ScriptType)}

/-- What was bound in a table that agrees with the classes so far is bound by these classes. -/
theorem fieldBy_of_field (hget : ∀ name, table.get? name = named? classes name) {f : Field String}
    {g : Field ScriptType} (h : field table f = .ok g) : FieldBy (named? classes) f g := by
  obtain ⟨t, ht, rfl⟩ := map_eq_ok.mp h
  exact ⟨rfl, (hget f.type).symm.trans (type_eq_ok_iff.mp ht)⟩

theorem methodBy_of_method (hget : ∀ name, table.get? name = named? classes name) {m : Method String}
    {m' : Method ScriptType} (h : method table m = .ok m') : MethodBy (named? classes) m m' := by
  simp only [method, bind_eq_ok, pure_eq_ok] at h
  obtain ⟨r, hr, ps, hps, rfl⟩ := h
  exact ⟨rfl, (hget m.returnType).symm.trans (type_eq_ok_iff.mp hr),
    (mapM_eq_ok hps).imp fun _ _ => fieldBy_of_field hget⟩

/-- **The table holds the meanings of names.** -/
theorem table_means {types : List (HostClass String)} (h : Binding.table types = .ok table) :
    ∃ classes, Declares types classes ∧ ∀ name, table.get? name = named? classes name := by
  refine table_induction (P := fun table past =>
    ∃ classes, Declares past classes ∧ ∀ name, table.get? name = named? classes name) ?_ ?_ h
  · refine ⟨[], ⟨rfl, ?_⟩, fun name => (HostClass.named?_nil name).symm⟩
    intro i c k hc
    contradiction
  · rintro table past c table' ⟨classes, hclasses, hget⟩ hdeclare
    obtain ⟨properties, methods, hproperties, hmethods, rfl⟩ := declare_eq_ok hdeclare
    refine ⟨_, hclasses.append (k := ⟨c.name, c.qualifiedName, properties, methods⟩) ⟨rfl, rfl, ?_, ?_⟩, ?_⟩
    · exact hproperties.imp fun _ _ => fieldBy_of_field hget
    · exact hmethods.imp fun _ _ => methodBy_of_method hget
    · intro name
      rw [TypeTable.get?_declare, HostClass.named?_append, hget]

end Meanings

/-- **Type names mean what was declared before them.** The classes of a document can be declared exactly if every type
name in a class is built in or the name of a class before it. If they can, the types of each class are what their names
mean after the classes before it, and in the end a name means the last class of that name, or else the built-in type, or
else nothing. If they cannot, what is reported is the first reference without a meaning. -/
theorem type_table_exact (types : List (HostClass String)) :
    ((∃ table, Binding.table types = .ok table) ↔
      ∀ i c, types[i]? = some c → ∀ name ∈ c.typeNames, Known (types.take i) name) ∧
    (∀ table, Binding.table types = .ok table → ∃ classes, Declares types classes ∧
      ∀ name, (∀ t, named? classes name = some t → type table name = .ok t) ∧
        (named? classes name = none → type table name = .error (.unknownType name))) ∧
    (∀ e, Binding.table types = .error e → ∃ i name,
      (references types).find? (isUnresolved types) = some (i, name) ∧ e = .unknownType name) := by
  refine ⟨?_, ?_, ?_⟩
  · rw [← failure?_eq_none_iff, failure?_table, Option.map_eq_none_iff, List.find?_eq_none]
    constructor
    · intro hall i c hc name hname
      have href := hall (i, name) (HostClass.mem_references.mpr ⟨c, hc, hname⟩)
      simpa [isUnresolved] using href
    · rintro hall ⟨i, name⟩ href
      obtain ⟨c, hc, hname⟩ := HostClass.mem_references.mp href
      simpa [isUnresolved] using hall i c hc name hname
  · -- the table is looked up like the list of the classes, from its end
    intro table htable
    obtain ⟨classes, hclasses, hget⟩ := table_means htable
    refine ⟨classes, hclasses, fun name => ⟨fun t ht => ?_, fun hnone => ?_⟩⟩
    · exact type_eq_ok_iff.mpr ((hget name).trans ht)
    · have hmissing : table.get? name = none := (hget name).trans hnone
      simp only [type, hmissing]
  · intro e he
    have hfailure := failure?_eq_some_iff.mpr he
    rw [failure?_table, Option.map_eq_some_iff] at hfailure
    obtain ⟨⟨i, name⟩, href, rfl⟩ := hfailure
    exact ⟨i, name, href, rfl⟩

end Binding

/-! ### A class that is declared twice -/

namespace HostClass

/-- A class of lists with a size. -/
def sized : HostClass String := ⟨"List", "base.List", [⟨"size", "int"⟩], []⟩

/-- A class of lists again, with a link to a list and a method that looks for one. -/
def linked : HostClass String := ⟨"List", "List", [⟨"next", "List"⟩], [⟨"find", "List", [⟨"key", "string"⟩]⟩]⟩

end HostClass

/-- Declared after the class with a size, the linked one refers to it and takes its name over. Declared alone, it is
refused for the name in its first property. -/
theorem Binding.type_table_exact_linked :
    (∃ table first second, Binding.table [.sized, .linked] = .ok table ∧
      HostClass.Declares [.sized, .linked] [first, second] ∧ Binding.type table "List" = .ok (.host second) ∧
      second.properties = [⟨"next", .host first⟩]) ∧
    Binding.table [.linked] = .error (.unknownType "List") := by
  refine ⟨?_, ?_⟩
  · obtain ⟨classes, hclasses, hmeans⟩ := (Binding.type_table_exact [.sized, .linked]).2.1 _ rfl
    obtain ⟨first, second, rfl⟩ : ∃ first second, classes = [first, second] := List.length_eq_two.mp hclasses.length
    have hfirst := hclasses.resolved 0 .sized first rfl rfl
    have hsecond := hclasses.resolved 1 .linked second rfl rfl
    have hlast : HostClass.named? [first, second] "List" = some (.host second) := by
      simp [HostClass.named?, hfirst.name, hsecond.name, HostClass.sized, HostClass.linked]
    have hearlier : HostClass.named? [first] "List" = some (.host first) := by
      simp [HostClass.named?, hfirst.name, HostClass.sized]
    refine ⟨_, first, second, rfl, hclasses, (hmeans "List").1 _ hlast, ?_⟩
    obtain ⟨g, rest, ⟨hname, htype⟩, hrest, hproperties⟩ := List.forall₂_cons_left_iff.mp hsecond.properties
    obtain rfl := List.forall₂_nil_left_iff.mp hrest
    obtain rfl : g = ⟨"next", .host first⟩ := by
      obtain ⟨name, type⟩ := g
      obtain rfl : name = "next" := hname
      obtain rfl : type = .host first := Option.some.inj (htype.symm.trans hearlier)
      rfl
    exact hproperties
  · obtain ⟨e, he⟩ : ∃ e, Binding.table [.linked] = .error e := ⟨_, rfl⟩
    obtain ⟨i, name, hfirst, rfl⟩ := (Binding.type_table_exact [.linked]).2.2 e he
    have hlist : (HostClass.references [.linked]).find? (HostClass.isUnresolved [.linked]) = some (0, "List") := by
      decide
    rw [hlist] at hfirst
    obtain ⟨rfl, rfl⟩ := Prod.mk.inj (Option.some.inj hfirst)
    exact he

end Caret
