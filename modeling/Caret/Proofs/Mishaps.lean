import Caret.Proofs.Typing
import Caret.Proofs.Unchecked
/-!
# `Caret.Proofs.Mishaps` — no mishap happens to a document that has the form of a script

The unchecked builder does with a document what reading and binding do, as soon as the document can be read
(`Unchecked.script_eq`). So the checks that are made on the form of a document are enough for all that is done with it
afterwards (`Script.load_without_mishap`).

## Contents
- **Fields.** `Builds` and `BuildsFields` — a builder does what reading and binding do; what it takes off a record
  is there.
- **Records.** One lemma for each sort of record; `signature_eq` — the types of parameters can be taken off their
  symbols.
- **Nodes and documents.** `builds_node` by induction on the depth, `script_eq`, `load_eq`.
-/

namespace Caret
namespace Unchecked

variable {α β : Type}

/-! ## Fields -/

theorem ok_bind (a : α) (f : α → Built β) : ((Except.ok a : Built α) >>= f) = f a := rfl

theorem refuse_bind (x : Bound α) (f : α → Bound β) : refuse (x >>= f) = refuse x >>= fun a => refuse (f a) := by
  cases x <;> rfl

theorem refuse_map (f : α → β) (x : Bound α) : refuse (f <$> x) = f <$> refuse x := by
  cases x <;> rfl

/-- **The builder does what reading and binding do** on all values up to a depth: what can be read is built as it is
bound. -/
def Builds (bound : Nat) (read : Data → Reading α) (build : Data → Built β) (bind : α → Bound β) : Prop :=
  ∀ (v : Data) (a : α), v.depth ≤ bound → read v = .done a → build v = refuse (bind a)

/-- The same for the fields of a record, whose values go up to a depth. -/
def BuildsFields (bound : Nat) (read : List (String × Data) → Reading α) (build : Data → Built β) (bind : α → Bound β) :
    Prop :=
  ∀ (fs : List (String × Data)) (a : α), Data.depthFields fs ≤ bound → read fs = .done a →
    build (.table fs) = refuse (bind a)

section Fields

variable {bound : Nat} {fs : List (String × Data)} {key : String} {v : Data} {a : α} {read : Data → Reading α}
  {build : Data → Built β} {bind : α → Bound β}

/-- A value that was read under a key is there to be taken. -/
theorem need_eq (h : Data.get? fs key = some v) : need (.table fs) key = .ok v := by
  unfold need Data.field?
  simp only [h]

theorem text_eq {s : String} (h : Reading.required key Reading.text fs = .done s) : text (.table fs) key = .ok s := by
  obtain ⟨v, hv, hs⟩ := Reading.required_eq_done_iff.mp h
  obtain rfl := Reading.text_eq_done_iff.mp hs
  unfold text
  rw [need_eq hv]
  rfl

/-- A text that may be left out is the one that was read, also where it was left out. -/
theorem textOr_eq {s default : String} (h : Reading.optional key default Reading.text fs = .done s) :
    textOr (.table fs) key default = .ok s := by
  unfold textOr Data.field?
  rcases Reading.optional_eq_done_iff.mp h with ⟨hnone, rfl⟩ | ⟨v, hv, hread⟩
  · simp only [hnone]
  · obtain rfl := Reading.text_eq_done_iff.mp hread
    simp only [hv]
    rfl

/-- A field that may be null has a value exactly if one was read. -/
theorem given?_of_optional {o : Option α} (h : Reading.optional key none (Reading.nullable read) fs = .done o) :
    (o = none ∧ (Data.table fs).given? key = none) ∨
    ∃ v a, o = some a ∧ (Data.table fs).given? key = some v ∧ v.depth ≤ Data.depthFields fs ∧ read v = .done a := by
  unfold Data.given? Data.field?
  rcases Reading.optional_eq_done_iff.mp h with ⟨hnone, rfl⟩ | ⟨v, hv, hread⟩
  · exact Or.inl ⟨rfl, by simp only [hnone]⟩
  · have hdepth := Data.depth_le_of_get? hv
    simp only [hv]
    cases v with
    | null =>
      obtain rfl : none = o := Reading.done.inj hread
      exact Or.inl ⟨rfl, rfl⟩
    | _ =>
      obtain ⟨a, ha, rfl⟩ := Reading.map_eq_done_iff.mp hread
      exact Or.inr ⟨_, a, rfl, rfl, hdepth, ha⟩

/-- A text that may be null is taken as it was read. -/
theorem text?_eq {o : Option String} (h : Reading.optional key none (Reading.nullable Reading.text) fs = .done o) :
    text? (.table fs) key = .ok o := by
  unfold text?
  rcases given?_of_optional h with ⟨rfl, hnone⟩ | ⟨v, s, rfl, hv, -, hs⟩
  · rw [hnone]
    rfl
  · obtain rfl := Reading.text_eq_done_iff.mp hs
    rw [hv]
    rfl

theorem flag_eq {b : Bool} (h : Reading.optional key false Reading.flag fs = .done b) :
    flag (.table fs) key = .ok b := by
  unfold flag
  rw [Reading.flagAt?_of_optional h]

/-- Values that stand for integers can be taken as these integers. -/
theorem mapM_asInteger {vs : List Data} {ns : List Int} (h : vs.map Data.whole? = ns.map some) :
    vs.mapM asInteger = .ok ns := by
  induction vs generalizing ns with
  | nil =>
    obtain rfl : ns = [] := by simpa using h.symm
    rfl
  | cons v vs ih =>
    cases ns with
    | nil => simp at h
    | cons n ns =>
      obtain ⟨hn, hns⟩ := List.cons.inj h
      have hv : asInteger v = .ok n := by
        unfold asInteger
        rw [hn]
      rw [List.mapM_cons, hv, ih hns]
      rfl

/-- **A range that was read can be made**: its integers are four, and they come in order. -/
theorem range_eq {r : Range} (h : Reading.required "range" Reading.range fs = .done r) : range (.table fs) = .ok r := by
  obtain ⟨v, hv, hr⟩ := Reading.required_eq_done_iff.mp h
  cases v with
  | list vs =>
    have hmade : between r.start r.stop = .ok r := by
      unfold between
      rw [Range.ofEnds?_eq_some_iff.mpr ⟨rfl, rfl⟩]
    unfold range
    rw [need_eq hv, ok_bind]
    show (vs.mapM asInteger >>= quadruple) = _
    rw [mapM_asInteger (Reading.coordinates_of_range hr)]
    exact hmade
  | _ => contradiction

/-- A slot that has to be filled is built as its value is. -/
theorem Builds.required (hb : Builds bound read build bind) (hfs : Data.depthFields fs ≤ bound)
    (h : Reading.required key read fs = .done a) : (need (.table fs) key >>= build) = refuse (bind a) := by
  obtain ⟨v, hv, hread⟩ := Reading.required_eq_done_iff.mp h
  rw [need_eq hv, ok_bind, hb v a (Nat.le_trans (Data.depth_le_of_get? hv) hfs) hread]

/-- A slot that may be empty is built as its value is, if it has one. -/
theorem Builds.nullable (hb : Builds bound read build bind) (hfs : Data.depthFields fs ≤ bound) {o : Option α}
    (h : Reading.optional key none (Reading.nullable read) fs = .done o) :
    ((Data.table fs).given? key).mapM build = refuse (o.mapM bind) := by
  rcases given?_of_optional h with ⟨rfl, hnone⟩ | ⟨v, a, rfl, hv, hdepth, hread⟩
  · rw [hnone]
    rfl
  · rw [hv]
    show some <$> build v = refuse (some <$> bind a)
    rw [refuse_map, hb v a (Nat.le_trans hdepth hfs) hread]

theorem mapM_eq {vs : List Data} {as : List α} (h : List.Forall₂ (fun v a => build v = refuse (bind a)) vs as) :
    vs.mapM build = refuse (as.mapM bind) := by
  induction h with
  | nil => rfl
  | cons hv _ ih =>
    rw [List.mapM_cons, List.mapM_cons, refuse_bind, hv, ih]
    refine bind_congr fun b => ?_
    rw [refuse_bind]
    rfl

/-- The items in a slot are built one by one. A slot that was left out has none. -/
theorem Builds.items (hb : Builds bound read build bind) (hfs : Data.depthFields fs ≤ bound) {as : List α}
    (h : Reading.optional key [] (Reading.listOf read) fs = .done as) :
    (items (.table fs) key >>= fun vs => vs.mapM build) = refuse (as.mapM bind) := by
  unfold Unchecked.items Data.field?
  rcases Reading.optional_eq_done_iff.mp h with ⟨hnone, rfl⟩ | ⟨v, hv, hread⟩
  · simp only [hnone]
    rfl
  · obtain ⟨vs, rfl, hitems⟩ := Reading.listOf_eq_done_iff.mp hread
    have hdepth := Data.depth_le_of_get? hv
    rw [Data.depth] at hdepth
    simp only [hv]
    show vs.mapM build = _
    have hmem : ∀ w ∈ vs, w ∈ vs := fun w hw => hw
    refine mapM_eq (((List.forall₂_and_left vs as).mpr ⟨hmem, hitems⟩).imp ?_)
    rintro w a ⟨hw, hread⟩
    have hle := Data.depth_le_of_mem hw
    exact hb w a (by omega) hread

/-- A record in a slot of its own kind is built from its fields. -/
theorem BuildsFields.fixed {kind : NodeKind} {readF : List (String × Data) → Reading α}
    (hb : BuildsFields bound readF build bind) : Builds bound (Schema.fixed kind readF) build bind := by
  intro v a hv h
  obtain ⟨fs, rfl, -, hread⟩ := Schema.fixed_eq_done_iff.mp h
  rw [Data.depth] at hv
  exact hb fs a (by omega) hread

theorem BuildsFields.tableOf {readF : List (String × Data) → Reading α} (hb : BuildsFields bound readF build bind) :
    Builds bound (Reading.tableOf readF) build bind := by
  intro v a hv h
  cases v with
  | table fs =>
    rw [Data.depth] at hv
    exact hb fs a (by omega) h
  | _ => contradiction

end Fields

/-! ## Records -/

section Records

variable {bound : Nat} {table : TypeTable}

theorem builds_field : Builds bound Schema.field field (fun f => .ok f) := by
  refine BuildsFields.tableOf fun fs f _ h => ?_
  simp only [Reading.seq_eq_done_iff, Reading.map_eq_done_iff] at h
  obtain ⟨_, t, ⟨n, hn, rfl⟩, ht, rfl⟩ := h
  unfold field
  rw [text_eq hn, text_eq ht]
  rfl

/-- Items that are only read come out as they are. -/
theorem items_eq {fs : List (String × Data)} {key : String} {read : Data → Reading α} {build : Data → Built α}
    {as : List α} (hb : Builds (Data.depthFields fs) read build fun a => .ok a)
    (h : Reading.optional key [] (Reading.listOf read) fs = .done as) :
    (items (.table fs) key >>= fun vs => vs.mapM build) = .ok as := by
  rw [hb.items (Nat.le_refl _) h, mapM_eq_ok_map fun _ _ => rfl, List.map_id']
  rfl

theorem builds_method : Builds bound Schema.method method (fun m => .ok m) := by
  refine BuildsFields.tableOf fun fs m _ h => ?_
  simp only [Reading.seq_eq_done_iff, Reading.map_eq_done_iff] at h
  obtain ⟨_, ps, ⟨_, t, ⟨n, hn, rfl⟩, ht, rfl⟩, hps, rfl⟩ := h
  have hitems := items_eq builds_field hps
  unfold method
  simp only [text_eq hn, textOr_eq ht, ok_bind]
  rw [← bind_assoc, hitems]
  rfl

theorem builds_typeEntry : Builds bound Schema.typeEntry typeEntry (fun c => .ok c) := by
  refine BuildsFields.tableOf fun fs c _ h => ?_
  simp only [Reading.seq_eq_done_iff, Reading.map_eq_done_iff] at h
  obtain ⟨_, ms, ⟨_, ps, ⟨_, q, ⟨n, hn, rfl⟩, hq, rfl⟩, hps, rfl⟩, hms, rfl⟩ := h
  have hproperties := items_eq builds_field hps
  have hmethods := items_eq builds_method hms
  unfold typeEntry
  simp only [text_eq hn, text?_eq hq, ok_bind]
  rw [← bind_assoc, hproperties, ok_bind, ← bind_assoc, hmethods]
  rfl

/-- A symbol that is written at a name. Its kind is looked up by its word, and a word that was read is found. -/
theorem builds_symbolNote (default : Option ScriptType) :
    Builds bound Schema.symbolNote (symbol table · default) (Binding.symbol table · default) := by
  refine BuildsFields.tableOf fun fs note _ h => ?_
  simp only [Reading.seq_eq_done_iff, Reading.map_eq_done_iff] at h
  obtain ⟨_, b, ⟨_, t, ⟨_, n, ⟨kind, hkind, rfl⟩, hn, rfl⟩, ht, rfl⟩, hb, rfl⟩ := h
  -- the word for the kind is one of the four
  obtain ⟨v, hv, hword⟩ := Reading.required_eq_done_iff.mp hkind
  obtain ⟨word, rfl, hlookup⟩ : ∃ word, v = .text word ∧ Schema.valueKinds.lookup word = some kind := by
    cases v with
    | text word =>
      refine ⟨word, rfl, ?_⟩
      simp only [Reading.oneOf] at hword
      split at hword
      · rename_i k hk
        rw [hk, Reading.done.inj hword]
      · contradiction
    | _ => contradiction
  have hkindText : text (.table fs) "kind" = .ok word := by
    unfold text
    rw [need_eq hv]
    rfl
  unfold symbol Binding.symbol
  simp only [text?_eq ht, text_eq hn, hkindText, flag_eq hb, ok_bind, hlookup]
  cases Binding.type? table (Binding.written? t) with
  | error e => rfl
  | ok type =>
    simp only [refuse, Except.mapError, Except.map, ok_bind]
    cases type.or default with
    | none => rfl
    | some t => rfl

/-- A name, if the symbol that its place gives is built as it is bound. -/
theorem builds_name {fs : List (String × Data)} {n : Draft.Name} (h : Schema.nameFields fs = .done n)
    {place : String → Built (Option Symbol)} {given : Bound (Option Symbol)} (hplace : place n.name = refuse given) :
    name table (.table fs) place = refuse (Binding.name table n given) := by
  obtain ⟨hr, hn, ht, hs⟩ := Schema.nameFields_eq_done h
  have hsymbol : ∀ type, symbolAt table (.table fs) type place =
      refuse (n.symbol.elim given fun note => some <$> Binding.symbol table note type) := by
    intro type
    unfold symbolAt
    rcases given?_of_optional hs with ⟨hnone, hgiven⟩ | ⟨v, note, hnote, hgiven, -, hread⟩
    · rw [hnone, hgiven]
      simp only [text_eq hn]
      exact hplace
    · rw [hnote, hgiven]
      simp only [builds_symbolNote type v note (Nat.le_refl _) hread]
      exact (refuse_map _ _).symm
  unfold name Binding.name
  simp only [text?_eq ht, ok_bind, hsymbol, range_eq hr, text_eq hn, refuse_bind]
  refine bind_congr fun type => ?_
  cases n.symbol with
  | none =>
    show _ = refuse (_ >>= _)
    rw [refuse_bind]
    rfl
  | some note =>
    show _ = refuse (_ >>= _)
    rw [refuse_bind]
    rfl

/-- The name in a slot, with the symbol that the place gives it. -/
theorem name_eq (table : TypeTable) {fs : List (String × Data)} {n : Draft.Name}
    (h : Reading.required "name" Schema.name fs = .done n) :
    ∃ v, need (.table fs) "name" = .ok v ∧ text v "name" = .ok n.name ∧
      ∀ place given, place n.name = refuse given → name table v place = refuse (Binding.name table n given) := by
  obtain ⟨v, hv, hname⟩ := Reading.required_eq_done_iff.mp h
  obtain ⟨fs', rfl, -, hfields⟩ := Schema.fixed_eq_done_iff.mp hname
  exact ⟨_, need_eq hv, text_eq (Schema.nameFields_eq_done hfields).2.1, fun _ _ hplace => builds_name hfields hplace⟩

/-- A run of items is built item by item. -/
theorem Builds.group {key : String} {read : Data → Reading α} {build : Data → Built β} {bind : α → Bound β}
    (hb : Builds bound read build bind) :
    BuildsFields bound (Schema.groupFields key read) (group key build)
      fun g => Group.mk g.range <$> g.items.mapM bind := by
  intro fs g hfs h
  obtain ⟨hr, hitems⟩ := Schema.groupFields_eq_done h
  have hbuilt := hb.items hfs hitems
  unfold Unchecked.group
  rw [range_eq hr, ok_bind, ← bind_assoc, hbuilt, refuse_map]
  rfl

variable {node : Data → Built Node}

theorem Builds.expression (hnode : Builds bound Schema.node node (Binding.node table)) (place : Place) :
    Builds bound Schema.node (expression node place) fun n => Binding.node table n >>= Binding.asExpression place := by
  intro v n hv h
  unfold Unchecked.expression
  rw [hnode v n hv h, refuse_bind]

/-- Either there is no type to take off a node, and then the document is refused, or it can be taken. -/
theorem asType_cases (place : Place) (m : Node) :
    (m.type?.isNone = true ∧ Binding.asType place m = .error (.notType place m.kind)) ∨
    ∃ t, m.type?.isNone = false ∧ Binding.asType place m = .ok t ∧ typeOf m = .ok t := by
  unfold Binding.asType typeOf
  cases m.type? with
  | none => exact Or.inl ⟨rfl, rfl⟩
  | some t => exact Or.inr ⟨t, rfl, rfl, rfl⟩

/-- Either one of two operands has no type, and then the document is refused, or both types can be taken. -/
theorem operandTypes_cases (left right : Node) :
    ((left.type?.isNone || right.type?.isNone) = true ∧ Binding.operandTypes left right = .error .untypedOperand) ∨
    ∃ l r, (left.type?.isNone || right.type?.isNone) = false ∧ Binding.operandTypes left right = .ok (l, r) ∧
      typeOf left = .ok l ∧ typeOf right = .ok r := by
  unfold Binding.operandTypes typeOf
  cases left.type? with
  | none => exact Or.inl ⟨rfl, rfl⟩
  | some l =>
    cases right.type? with
    | none => exact Or.inl ⟨rfl, rfl⟩
    | some r => exact Or.inr ⟨l, r, rfl, rfl, rfl, rfl⟩

/-- A node with a type comes out as it is. -/
theorem Builds.typeNode (hnode : Builds bound Schema.node node (Binding.node table)) (place : Place) :
    Builds bound Schema.node (typeNode node place) fun n =>
      Binding.node table n >>= fun m => Binding.asType place m >>= fun _ => .ok m := by
  intro v n hv h
  unfold Unchecked.typeNode
  rw [hnode v n hv h]
  show _ = refuse (Binding.node table n >>= _)
  rw [refuse_bind]
  refine bind_congr fun m => ?_
  rcases asType_cases place m with ⟨hnone, htype⟩ | ⟨t, hsome, htype, -⟩
  · rw [hnone, htype]
    rfl
  · rw [hsome, htype]
    rfl

theorem option_eq_mapM (o : Option Draft.Node) : Binding.option table o = o.mapM (Binding.node table) := by
  cases o <;> rfl

/-- A value that may be left out is bound first and then looked at. -/
theorem mapM_asExpression (place : Place) (o : Option Draft.Node) :
    o.mapM (fun n => Binding.node table n >>= Binding.asExpression place) =
      Binding.option table o >>= fun m => m.mapM (Binding.asExpression place) := by
  cases o with
  | none => rfl
  | some n =>
    show some <$> (Binding.node table n >>= _) = (some <$> Binding.node table n) >>= _
    cases Binding.node table n with
    | error e => rfl
    | ok m => rfl

/-- Declarations. The type node and the value are built before the name, whose symbol depends on both. -/
theorem Builds.declaration (hnode : Builds bound Schema.node node (Binding.node table)) (kind : ValueKind) :
    BuildsFields bound (Schema.declarationFields Schema.node) (declaration table node kind)
      (Binding.declaration table kind) := by
  intro fs x hfs h
  obtain ⟨hr, ht, hm, hi⟩ := Schema.declarationFields_eq_done h
  obtain ⟨v, hv, htext, hname⟩ := name_eq table hm
  obtain ⟨r, t, n, i⟩ := x
  have htype := hnode.nullable hfs ht
  have hinitializer := (hnode.expression (.initializer n.name)).nullable hfs hi
  rw [mapM_asExpression] at hinitializer
  have hnamed : ∀ type, name table v (fun m => refuse (Binding.declared kind m type)) =
      refuse (Binding.name table n (Binding.declared kind n.name type)) := fun type => hname _ _ rfl
  unfold Unchecked.declaration Binding.declaration
  simp only [hv, htext, ok_bind, htype, hinitializer, hnamed, range_eq hr, refuse_bind, option_eq_mapM, bind_assoc]
  rfl

/-- Parameters. The type is taken off the node only after it was found to have one. -/
theorem Builds.parameter (hnode : Builds bound Schema.node node (Binding.node table)) :
    BuildsFields bound (Schema.parameterFields Schema.node) (parameter table node) (Binding.parameter table) := by
  intro fs x hfs h
  obtain ⟨hr, ht, hm, hb⟩ := Schema.parameterFields_eq_done h
  obtain ⟨v, hv, -, hname⟩ := name_eq table hm
  obtain ⟨r, t, n, b⟩ := x
  have htype := (hnode.typeNode .parameterType).required hfs ht
  unfold Unchecked.parameter Binding.parameter
  simp only [hv, ok_bind, htype, range_eq hr, flag_eq hb, refuse_bind, bind_assoc]
  refine bind_congr fun m => ?_
  rcases asType_cases .parameterType m with ⟨-, hnone⟩ | ⟨type, -, hsome, htype⟩
  · rw [hnone]
    rfl
  · have hnamed := hname (fun n => .ok (some (.value (.parameter b) n (some type))))
      (Binding.declared (.parameter b) n.name (some type)) rfl
    rw [hsome]
    show (typeOf m >>= _) = _
    rw [htype, ok_bind, hnamed]
    rfl

/-- **The types of the parameters can be taken off their symbols.** -/
theorem signature_eq {t : ScriptType} {ps : List (Parameter NameRef Node)}
    (h : ∀ p ∈ ps, ∀ s, p.name.symbol = some s → ∃ t, s.type = some t) :
    signature t ps = .ok (Binding.signature t ps) := by
  have hfields : ∀ q ∈ ps.filterMap (fun p => p.name.symbol.map fun s => (p.name.name, s)),
      signatureField q = .ok ⟨q.1, q.2.type⟩ := by
    intro q hq
    obtain ⟨p, hp, hmap⟩ := List.mem_filterMap.mp hq
    obtain ⟨s, hs, rfl⟩ := Option.map_eq_some_iff.mp hmap
    obtain ⟨type, htype⟩ := h p hp s hs
    simp only [signatureField, symbolType, htype]
    rfl
  unfold signature Binding.signature
  simp only [mapM_eq_ok_map hfields, List.map_filterMap, Option.map_map, Function.comp_def]
  rfl

/-- A parameter that was bound has a symbol with a type. -/
theorem symbol_typed {ps : Group (Parameter Draft.Name Draft.Node)} {bound : Group (Parameter NameRef Node)}
    (h : Binding.parameters table ps = .ok bound) :
    ∀ p ∈ bound.items, ∀ s, p.name.symbol = some s → ∃ t, s.type = some t := by
  intro p hp s hs
  obtain ⟨x, -, hx⟩ := forall₂_mem_right (Binding.parameters_eq_ok h).2 hp
  obtain ⟨-, -, -, t, -, hname⟩ := Binding.parameter_eq_ok hx
  obtain ⟨s', t', hs', ht'⟩ := Binding.symbol_of_name hname fun o ho => by
    obtain ⟨t, -, rfl⟩ := Binding.declared_eq_ok ho
    exact ⟨_, t, rfl, rfl⟩
  obtain rfl := Option.some.inj (hs.symm.trans hs')
  exact ⟨t', ht'⟩

theorem Builds.block (hnode : Builds bound Schema.node node (Binding.node table)) (key : String) :
    BuildsFields bound (Schema.groupFields key Schema.node) (Unchecked.group key node) (Binding.group table) := by
  intro fs g hfs h
  obtain ⟨r, ns⟩ := g
  rw [hnode.group fs ⟨r, ns⟩ hfs h, Binding.group, Binding.list_eq_mapM]

theorem Builds.parameters (hnode : Builds bound Schema.node node (Binding.node table)) :
    BuildsFields bound (Schema.parametersFields Schema.node)
      (Unchecked.group "parameters" (Unchecked.parameter table node)) (Binding.parameters table) := by
  intro fs g hfs h
  obtain ⟨r, ps⟩ := g
  rw [hnode.parameter.fixed.group fs ⟨r, ps⟩ hfs h, Binding.parameters, Binding.parameterList_eq_mapM]

/-- Functions. The types in the signature are taken off the return type and the symbols of the parameters. -/
theorem Builds.function (hnode : Builds bound Schema.node node (Binding.node table)) :
    BuildsFields bound (Schema.functionFields Schema.node) (function table node) (Binding.function table) := by
  intro fs x hfs h
  obtain ⟨hr, ht, hm, hps, hb⟩ := Schema.functionFields_eq_done h
  obtain ⟨v, hv, -, hname⟩ := name_eq table hm
  obtain ⟨r, t, n, ps, b⟩ := x
  have htype := (hnode.typeNode .returnType).required hfs ht
  have hparameters := hnode.parameters.fixed.required hfs hps
  have hbody := (hnode.block "statements").fixed.required hfs hb
  unfold Unchecked.function Binding.function
  simp only [hv, ok_bind, htype, hparameters, hbody, range_eq hr]
  simp only [refuse_bind, bind_assoc]
  refine bind_congr fun m => ?_
  rcases asType_cases .returnType m with ⟨-, hnone⟩ | ⟨type, -, hsome, htype⟩
  · rw [hnone]
    rfl
  · rw [hsome]
    show (refuse (Binding.parameters table ps) >>= _) = (refuse (Binding.parameters table ps) >>= _)
    cases hbound : Binding.parameters table ps with
    | error e => rfl
    | ok parameters =>
      -- the return type was looked at before the parameters and is taken off its node after them
      have hnamed := hname (fun n => .ok (some (.function n (Binding.signature type parameters.items))))
        (.ok (some (.function n.name (Binding.signature type parameters.items)))) rfl
      show (typeOf m >>= fun returnType => signature returnType parameters.items >>= _) = _
      rw [htype, ok_bind, signature_eq (symbol_typed hbound), ok_bind, hnamed]
      rfl

theorem Builds.statics (hnode : Builds bound Schema.node node (Binding.node table)) :
    BuildsFields bound (Schema.staticsFields Schema.node) (statics table node) (Binding.statics table) := by
  intro fs g hfs h
  obtain ⟨r, ds⟩ := g
  have hbuilt := (hnode.declaration .staticVariable).fixed.group fs ⟨r, ds⟩ hfs h
  rw [Unchecked.statics, hbuilt, Binding.statics, Binding.declarationList_eq_mapM]

theorem Builds.functions (hnode : Builds bound Schema.node node (Binding.node table)) :
    BuildsFields bound (Schema.functionsFields Schema.node) (functions table node) (Binding.functions table) := by
  intro fs g hfs h
  obtain ⟨r, gs⟩ := g
  have hbuilt := hnode.function.fixed.group fs ⟨r, gs⟩ hfs h
  rw [Unchecked.functions, hbuilt, Binding.functions, Binding.functionList_eq_mapM]

/-- Units, section by section. -/
theorem Builds.unit (hnode : Builds bound Schema.node node (Binding.node table)) :
    BuildsFields bound (Schema.unitFields Schema.node) (unit table node) (Binding.unit table) := by
  intro fs x hfs h
  obtain ⟨hr, hvs, hgs, hss⟩ := Schema.unitFields_eq_done h
  have hstatics := hnode.statics.fixed.required hfs hvs
  have hfunctions := hnode.functions.fixed.required hfs hgs
  have hstatements := (hnode.block "statements").fixed.required hfs hss
  obtain ⟨r, vs, gs, ss⟩ := x
  unfold Unchecked.unit Binding.unit
  simp only [range_eq hr, ok_bind, hstatics, hfunctions, hstatements, refuse_bind]
  rfl

/-! ## Nodes -/

/-- **Each kind of record is built as it is read and bound.** -/
theorem Builds.ofKind (hnode : Builds bound Schema.node node (Binding.node table)) (kind : NodeKind) :
    BuildsFields bound (Schema.nodeFields Schema.node kind) (ofKind table node kind) (Binding.node table) := by
  intro fs x hfs h
  cases kind with
  | literal k =>
    obtain ⟨r, hr, rfl⟩ := Reading.map_eq_done_iff.mp h
    simp only [Unchecked.ofKind, range_eq hr]
    rfl
  | plain k =>
    obtain ⟨g, hg, rfl⟩ := Reading.map_eq_done_iff.mp h
    simp only [Unchecked.ofKind, Binding.node, hnode.block "children" fs g hfs hg, refuse_map]
  | operation k =>
    simp only [Schema.nodeFields, Reading.seq_eq_done_iff, Reading.map_eq_done_iff] at h
    obtain ⟨_, t, ⟨g, hg, rfl⟩, ht, rfl⟩ := h
    simp only [Unchecked.ofKind, Binding.node, hnode.block "children" fs g hfs hg, text?_eq ht, ok_bind, refuse_bind]
    rfl
  | nameExpression =>
    obtain ⟨m, hm, rfl⟩ := Reading.map_eq_done_iff.mp h
    have hname : name table (.table fs) (fun _ => .ok none) = refuse (Binding.name table m (.ok none)) :=
      builds_name hm rfl
    simp only [Unchecked.ofKind, Binding.node, hname, refuse_map]
  | propertyAccess =>
    simp only [Schema.nodeFields, Reading.seq_eq_done_iff, Reading.map_eq_done_iff] at h
    obtain ⟨_, t, ⟨_, mem, ⟨_, m, ⟨_, c, ⟨r, hr, rfl⟩, hc, rfl⟩, hm, rfl⟩, hmem, rfl⟩, ht, rfl⟩ := h
    have hcallee := (hnode.expression .callee).required hfs hc
    simp only [Unchecked.ofKind, Binding.node, hcallee, range_eq hr, text_eq hm, text?_eq hmem, text?_eq ht, ok_bind]
    simp only [refuse_bind, bind_assoc]
    refine bind_congr fun n => bind_congr fun callee => bind_congr fun o => ?_
    cases o with
    | none =>
      show _ = refuse (_ >>= _)
      rw [refuse_bind]
      rfl
    | some p => rfl
  | method =>
    simp only [Schema.nodeFields, Reading.seq_eq_done_iff, Reading.map_eq_done_iff] at h
    obtain ⟨_, m, ⟨_, o, ⟨r, hr, rfl⟩, ho, rfl⟩, hm, rfl⟩ := h
    simp only [Unchecked.ofKind, Binding.node, text_eq ho, text_eq hm, range_eq hr, ok_bind, refuse_bind]
    refine bind_congr fun owner => ?_
    cases owner.methods.find? fun x => x.name == m with
    | none => rfl
    | some x => rfl
  | binaryOperator =>
    simp only [Schema.nodeFields, Reading.seq_eq_done_iff, Reading.map_eq_done_iff] at h
    obtain ⟨_, y, ⟨_, x, ⟨_, t, ⟨_, o, ⟨r, hr, rfl⟩, ho, rfl⟩, ht, rfl⟩, hx, rfl⟩, hy, rfl⟩ := h
    have hleft := (hnode.expression .operand).required hfs hx
    have hright := (hnode.expression .operand).required hfs hy
    simp only [Unchecked.ofKind, Binding.node, hleft, hright, range_eq hr, text_eq ho, text_eq ht, ok_bind]
    simp only [refuse_bind, bind_assoc]
    refine bind_congr fun _ => bind_congr fun left => bind_congr fun _ => bind_congr fun right => ?_
    rcases operandTypes_cases left right with ⟨hnone, htypes⟩ | ⟨l, r', hsome, htypes, hl, hr'⟩
    · rw [htypes, hnone]
      rfl
    · rw [htypes, hsome, hl, hr']
      rfl
  | predefinedType =>
    simp only [Schema.nodeFields, Reading.seq_eq_done_iff, Reading.map_eq_done_iff] at h
    obtain ⟨_, t, ⟨r, hr, rfl⟩, ht, rfl⟩ := h
    simp only [Unchecked.ofKind, Binding.node, range_eq hr, text_eq ht, ok_bind, refuse_map]
    rfl
  | variableDeclaration =>
    obtain ⟨d, hd, rfl⟩ := Reading.map_eq_done_iff.mp h
    simp only [Unchecked.ofKind, Binding.node, hnode.declaration .localVariable fs d hfs hd, refuse_map]
  | parameter =>
    obtain ⟨p, hp, rfl⟩ := Reading.map_eq_done_iff.mp h
    simp only [Unchecked.ofKind, Binding.node, hnode.parameter fs p hfs hp, refuse_map]
  | parameterList =>
    obtain ⟨g, hg, rfl⟩ := Reading.map_eq_done_iff.mp h
    simp only [Unchecked.ofKind, Binding.node, hnode.parameters fs g hfs hg, refuse_map]
  | statementsList =>
    obtain ⟨g, hg, rfl⟩ := Reading.map_eq_done_iff.mp h
    simp only [Unchecked.ofKind, Binding.node, hnode.block "statements" fs g hfs hg, refuse_map]
  | function =>
    obtain ⟨f, hf, rfl⟩ := Reading.map_eq_done_iff.mp h
    simp only [Unchecked.ofKind, Binding.node, hnode.function fs f hfs hf, refuse_map]
  | forLoop =>
    obtain ⟨l, hl, rfl⟩ := Reading.map_eq_done_iff.mp h
    obtain ⟨hr, hi, hc, hu, hb⟩ := Schema.forLoopFields_eq_done hl
    obtain ⟨r, i, c, u, b⟩ := l
    have hinit := hnode.nullable hfs hi
    have hcondition := (hnode.expression .condition).nullable hfs hc
    have hupdate := hnode.nullable hfs hu
    have hbody := hnode.required hfs hb
    rw [mapM_asExpression] at hcondition
    simp only [Unchecked.ofKind, Binding.node, hinit, hcondition, hupdate, hbody, range_eq hr, ok_bind]
    simp only [refuse_bind, option_eq_mapM, bind_assoc]
    rfl
  | foreachLoop =>
    obtain ⟨l, hl, rfl⟩ := Reading.map_eq_done_iff.mp h
    obtain ⟨hr, ht, hm, hi, hb⟩ := Schema.foreachLoopFields_eq_done hl
    obtain ⟨v, hv, -, hname⟩ := name_eq table hm
    obtain ⟨r, t, n, i, b⟩ := l
    have htype := (hnode.typeNode .foreachType).required hfs ht
    have hiterable := (hnode.expression .iterable).required hfs hi
    have hbody := hnode.required hfs hb
    simp only [Unchecked.ofKind, Binding.node, htype, hv, hiterable, hbody, range_eq hr, ok_bind]
    simp only [refuse_bind, bind_assoc]
    refine bind_congr fun m => ?_
    rcases asType_cases .foreachType m with ⟨-, hnone⟩ | ⟨type, -, hsome, htype⟩
    · rw [hnone]
      rfl
    · have hnamed := hname (fun n => .ok (some (.value .localVariable n (some type))))
        (Binding.declared .localVariable n.name (some type)) rfl
      rw [hsome]
      show (typeOf m >>= _) = _
      rw [htype, ok_bind, hnamed]
      rfl
  | staticVariablesList =>
    obtain ⟨g, hg, rfl⟩ := Reading.map_eq_done_iff.mp h
    simp only [Unchecked.ofKind, Binding.node, hnode.statics fs g hfs hg, refuse_map]
  | functionsList =>
    obtain ⟨g, hg, rfl⟩ := Reading.map_eq_done_iff.mp h
    simp only [Unchecked.ofKind, Binding.node, hnode.functions fs g hfs hg, refuse_map]
  | compilationUnit =>
    obtain ⟨u, hu, rfl⟩ := Reading.map_eq_done_iff.mp h
    simp only [Unchecked.ofKind, Binding.node, hnode.unit fs u hfs hu, refuse_map]

/-- A record that was read states a kind, so there is a way to build it. -/
theorem Builds.anyNode (hnode : Builds bound Schema.node node (Binding.node table)) :
    Builds (bound + 1) Schema.node (anyNode table node) (Binding.node table) := by
  intro v n hv h
  obtain ⟨fs, kind, rfl, hkind, hfields⟩ := Schema.node_eq_done_iff.mp h
  have hstated : (Data.table fs).kind? = some kind := by rw [Data.kind?, hkind, Option.bind_some, NodeKind.ofText?_text]
  rw [Data.depth] at hv
  unfold Unchecked.anyNode
  rw [hstated]
  exact hnode.ofKind kind fs n (by omega) hfields

theorem builds_nodeWithin (bound : Nat) : Builds bound Schema.node (nodeWithin table bound) (Binding.node table) := by
  -- by induction on the depth: a record is deeper than the nodes in it
  induction bound with
  | zero => exact fun v n hv _ => absurd hv (Nat.not_le.mpr v.depth_pos)
  | succ bound ih => exact ih.anyNode

/-- **A node is built as it is read and bound.** -/
theorem builds_node (bound : Nat) : Builds bound Schema.node (Unchecked.node table) (Binding.node table) :=
  fun v n _ h => builds_nodeWithin v.depth v n (Nat.le_refl _) h

end Records

/-! ## Documents -/

/-- **A script is built as it is read and bound**, as soon as it can be read. -/
theorem script_eq {doc : Data} {draft : Draft.Script} (h : Schema.script doc = .done draft) :
    script doc = refuse (Binding.script draft) := by
  cases doc with
  | table fs =>
    simp only [Schema.script, Reading.tableOf, Reading.seq_eq_done_iff, Reading.map_eq_done_iff] at h
    obtain ⟨_, u, ⟨_, cs, ⟨ts, hts, rfl⟩, hcs, rfl⟩, hu, rfl⟩ := h
    have htypes := items_eq builds_typeEntry hts
    have hconstants := items_eq builds_field hcs
    have hunit : ∀ table : TypeTable, (need (.table fs) "unit" >>= unit table (node table)) =
        refuse (Binding.unit table u) := fun table => (builds_node _).unit.fixed.required (Nat.le_refl _) hu
    unfold script Binding.script
    -- types and constants are read as wholes before they are bound, in the order of the fields
    rw [← bind_assoc, htypes, ok_bind, refuse_bind]
    refine bind_congr fun table => ?_
    rw [← bind_assoc, hconstants, ok_bind, refuse_bind]
    refine bind_congr fun constants => ?_
    rw [← bind_assoc, hunit, refuse_bind]
    rfl
  | _ => contradiction

/-- **The check on the form of a range and the making of a range refuse the same integers.** -/
theorem range_failed_iff {v₀ v₁ v₂ v₃ : Data} {a b c d : Int} (h₀ : v₀.whole? = some a) (h₁ : v₁.whole? = some b)
    (h₂ : v₂.whole? = some c) (h₃ : v₃.whole? = some d) :
    (∃ faults, Reading.range (.list [v₀, v₁, v₂, v₃]) = .failed faults) ↔
      between ⟨a, b⟩ ⟨c, d⟩ = .error (.mishap (.disorder ⟨a, b⟩ ⟨c, d⟩)) := by
  have hread : ∀ {v : Data} {n : Int}, v.whole? = some n → Reading.integer v = .done n := by
    intro v n h
    unfold Data.whole? at h
    split at h
    · rename_i m hm
      rw [hm, Option.some.inj h]
    · contradiction
  have hrange : Reading.range (.list [v₀, v₁, v₂, v₃]) = Reading.ordered (⟨a, b⟩, ⟨c, d⟩) := by
    simp only [Reading.range, List.length_cons, List.length_nil, Reading.item, List.getElem?_cons_zero,
      List.getElem?_cons_succ, hread h₀, hread h₁, hread h₂, hread h₃]
    rfl
  rw [hrange]
  unfold Reading.ordered between
  cases Range.ofEnds? ⟨a, b⟩ ⟨c, d⟩ with
  | none => exact ⟨fun _ => rfl, fun _ => ⟨_, rfl⟩⟩
  | some r =>
    constructor
    · rintro ⟨_, h⟩
      contradiction
    · intro h
      contradiction

/-- The unchecked builder gives what loading gives. -/
theorem load_eq (doc : Data) : load doc = (Script.load doc).mapError .refused := by
  unfold load Script.load
  cases h : Schema.script doc with
  | failed faults => rfl
  | done draft =>
    simp only [script_eq h]
    cases Binding.script draft with
    | error e => rfl
    | ok script => rfl

end Unchecked

/-- **Nothing goes wrong in loading but what is reported.** A document gives a script or it is refused, for its form
or for a name in it. The builder that looks at nothing more of a document that has the form of a script does the
same, and so no mishap ever happens to it: no field is missing, no range ends before it starts, each record that it
meets can be built, each symbol has its sort, and each type that it takes off a node or a symbol is there. For
ranges in particular, the check on the form refuses the same four integers as the making of a range. -/
theorem Script.load_without_mishap (doc : Data) :
    ((∃ script, Script.load doc = .ok script ∧ Unchecked.load doc = .ok script) ∨
      ∃ e, Script.load doc = .error e ∧ Unchecked.load doc = .error (.refused e)) ∧
    (∀ mishap, Unchecked.load doc ≠ .error (.mishap mishap)) ∧
    ∀ v₀ v₁ v₂ v₃ a b c d, v₀.whole? = some a → v₁.whole? = some b → v₂.whole? = some c → v₃.whole? = some d →
      ((∃ faults, Reading.range (.list [v₀, v₁, v₂, v₃]) = .failed faults) ↔
        Unchecked.between ⟨a, b⟩ ⟨c, d⟩ = .error (.mishap (.disorder ⟨a, b⟩ ⟨c, d⟩))) := by
  have hload := Unchecked.load_eq doc
  refine ⟨?_, ?_, ?_⟩
  · cases h : Script.load doc with
    | ok script => exact Or.inl ⟨script, rfl, by rw [hload, h]; rfl⟩
    | error e => exact Or.inr ⟨e, rfl, by rw [hload, h]; rfl⟩
  · intro mishap
    rw [hload]
    cases Script.load doc with
    | ok script => exact fun h => by cases h
    | error e => exact fun h => by cases h
  · exact fun _ _ _ _ _ _ _ _ h₀ h₁ h₂ h₃ => Unchecked.range_failed_iff h₀ h₁ h₂ h₃

/-- `Data.accounts` is built without looking. Of a range that ends before it starts, neither the check nor the
making of it approves; and without a check, a document that is not a script does have mishaps. -/
theorem Script.load_without_mishap_accounts :
    (∃ script, Script.load Data.accounts = .ok script ∧ Unchecked.load Data.accounts = .ok script) ∧
    (∃ faults, Reading.range (.list [.int 33, .int 4, .int 33, .bool true]) = .failed faults) ∧
    Unchecked.between ⟨33, 4⟩ ⟨33, 1⟩ = .error (.mishap (.disorder ⟨33, 4⟩ ⟨33, 1⟩)) ∧
    Unchecked.script (.table []) = .error (.mishap (.noField "unit")) := by
  obtain ⟨hcases, -, hrange⟩ := Script.load_without_mishap Data.accounts
  refine ⟨?_, (hrange (.int 33) (.int 4) (.int 33) (.bool true) 33 4 33 1 rfl rfl rfl rfl).mpr rfl, rfl, rfl⟩
  rcases hcases with hbuilt | ⟨e, he, -⟩
  · exact hbuilt
  · have hloads : Script.load Data.accounts = .ok _ := rfl
    rw [hloads] at he
    contradiction

end Caret
