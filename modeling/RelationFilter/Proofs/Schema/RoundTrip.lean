import RelationFilter.Proofs.Schema.Changes
import RelationFilter.Schema.Writer

namespace RelationFilter

open Json

namespace Json

theorem asBelow_toNat {bound n : Nat} (below : n < bound) : asBelow bound (.int n) = .ok n := by
  simp [asBelow, below]

theorem asUInt32_toNat (n : UInt32) : asUInt32 (.int n.toNat) = .ok n := by
  rw [asUInt32, asBelow_toNat n.toNat_lt]
  simp [Except.map]

theorem asUInt64_toNat (n : UInt64) : asUInt64 (.int n.toNat) = .ok n := by
  rw [asUInt64, asBelow_toNat n.toNat_lt]
  simp [Except.map]

theorem asOption_optionalCount (n : Option UInt32) : asOption asUInt32 (optionalCount n) = .ok n := by
  cases n with
  | none => rfl
  | some n =>
    show (asUInt32 (.int n.toNat)).map some = .ok (some n)
    rw [asUInt32_toNat]
    rfl

theorem asList_map {α : Type} {write : α → Json} {read : Json → Read α} (same : ∀ a, read (write a) = .ok a)
    (items : List α) : asList read (.array (items.map write)) = .ok items := by
  show (items.map write).mapM read = .ok items
  rw [Catalog.mapM_eq_ok_iff, List.forall₂_map_left_iff, List.forall₂_same]
  exact fun a _ => same a

theorem asStrings_ofStrings (items : List String) : asStrings (ofStrings items) = .ok items :=
  @asList_map String .string asString (fun _ => rfl) items

theorem asName_string {α : Type} {ofName : String → Option α} {name : String} {a : α} (named : ofName name = some a) :
    asName ofName (.string name) = .ok a := by
  simp [asName, named]

theorem map_ok {α β : Type} {r : Read α} {a : α} (f : α → β) (given : r = .ok a) : r.map f = .ok (f a) := by
  rw [given]
  rfl

namespace Record

variable {α : Type} {declared : List String} {members : Members} {step : α → String → Json → Read α} {start a : α}

theorem read_members (taken : members.foldlM (fun a m => step a m.1 m.2) start = .ok a) :
    read step start ⟨members, false, false⟩ = .ok a := by
  simp only [read, taken]
  rfl

theorem read_object (taken : members.foldlM (fun a m => step a m.1 m.2) start = .ok a) :
    (record declared (.object members) >>= fun r => r.read step start) = .ok a := read_members taken

theorem read_object_bind {β : Type} (taken : members.foldlM (fun a m => step a m.1 m.2) start = .ok a)
    (next : Record → α → Read β) :
    (record declared (.object members) >>= fun r => r.read step start >>= next r) = next ⟨members, false, false⟩ a := by
  show (read step start ⟨members, false, false⟩ >>= _) = _
  rw [read_members taken]
  rfl

end Record

end Json

theorem SelectOptions.read_object {maxSelect values : Json} {o : SelectOptions} (most : asUInt32 maxSelect = .ok o.maxSelect)
    (names : asStrings values = .ok o.values) :
    read (.object [("maxSelect", maxSelect), ("values", values)]) = .ok o := by
  apply Record.read_object
  simp only [List.foldlM_cons, List.foldlM_nil, readMember, most, names]
  rfl

theorem SelectOptions.read_toJson (o : SelectOptions) : read o.toJson = .ok o :=
  read_object (asUInt32_toNat o.maxSelect) (asStrings_ofStrings o.values)

theorem FileOptions.read_object {maxSelect maxSize mimeTypes isProtected : Json} {o : FileOptions}
    (most : asUInt32 maxSelect = .ok o.maxSelect) (size : asUInt64 maxSize = .ok o.maxSize)
    (types : asStrings mimeTypes = .ok o.mimeTypes) (guarded : asBool isProtected = .ok o.isProtected) :
    read (.object [("maxSelect", maxSelect), ("maxSize", maxSize), ("mimeTypes", mimeTypes), ("protected", isProtected)]) =
      .ok o := by
  apply Record.read_object
  simp only [List.foldlM_cons, List.foldlM_nil, readMember, most, size, types, guarded]
  rfl

theorem FileOptions.read_toJson (o : FileOptions) : read o.toJson = .ok o :=
  read_object (asUInt32_toNat o.maxSelect) (asUInt64_toNat o.maxSize) (asStrings_ofStrings o.mimeTypes) rfl

theorem RelationOptions.read_object {cascadeDelete collectionId maxSelect minSelect : Json} {o : RelationOptions}
    (cascade : asBool cascadeDelete = .ok o.cascadeDelete) (target : asString collectionId = .ok o.collectionId)
    (most : asOption asUInt32 maxSelect = .ok o.maxSelect) (least : asOption asUInt32 minSelect = .ok o.minSelect) :
    read (.object [("cascadeDelete", cascadeDelete), ("collectionId", collectionId), ("maxSelect", maxSelect),
      ("minSelect", minSelect)]) = .ok o := by
  apply Record.read_object
  simp only [List.foldlM_cons, List.foldlM_nil, readMember, cascade, target, most, least]
  rfl

theorem RelationOptions.read_toJson (o : RelationOptions) : read o.toJson = .ok o :=
  read_object rfl rfl (asOption_optionalCount o.maxSelect) (asOption_optionalCount o.minSelect)

theorem FieldKind.readOptions_of_ok {α : Type} {field : String} {read : Json → Read α} {options : Json} {a : α}
    (some_options : options.isNull = false) (same : read options = .ok a) : readOptions field read options = .ok a := by
  simp only [readOptions, some_options, Bool.false_eq_true, if_false, same]

theorem FieldKind.read_optionsJson (field : String) (k : FieldKind) : read field k.name k.optionsJson = .ok k := by
  cases k with
  | select o =>
    show (readOptions field SelectOptions.read o.toJson).map select = .ok (select o)
    exact map_ok select (readOptions_of_ok rfl o.read_toJson)
  | file o =>
    show (readOptions field FileOptions.read o.toJson).map file = .ok (file o)
    exact map_ok file (readOptions_of_ok rfl o.read_toJson)
  | relation o =>
    show (readOptions field RelationOptions.read o.toJson).map relation = .ok (relation o)
    exact map_ok relation (readOptions_of_ok rfl o.read_toJson)
  | _ => rfl

theorem Field.read_object {f : Field} {options : Json} (kind : FieldKind.read f.name f.kind.name options = .ok f.kind) :
    read (.object [("id", .string f.id), ("name", .string f.name), ("options", options), ("required", .bool f.required),
      ("system", .bool f.system), ("type", .string f.kind.name)]) = .ok f := by
  rw [read, Record.read_object_bind rfl]
  simp only [Record.need, Bind.bind, Except.bind, kind]
  rfl

theorem Field.read_toJson (f : Field) : read f.toJson = .ok f := read_object (FieldKind.read_optionsJson f.name f.kind)

theorem CollectionKind.ofName?_name (k : CollectionKind) : ofName? k.name = some k := by
  cases k <;> rfl

theorem Collection.read_object {c : Collection} {indexes schema type : Json} (texts : asStrings indexes = .ok c.indexes)
    (fields : asList Field.read schema = .ok c.fields) (kind : asName CollectionKind.ofName? type = .ok c.kind) :
    read (.object [("id", .string c.id), ("indexes", indexes), ("name", .string c.name), ("schema", schema),
      ("system", .bool c.system), ("type", type)]) = .ok c := by
  have taken : List.foldlM (fun a (m : String × Json) => CollectionMembers.readMember a m.1 m.2) {} [("id", .string c.id),
      ("indexes", indexes), ("name", .string c.name), ("schema", schema), ("system", .bool c.system), ("type", type)] =
      .ok ⟨some c.id, some c.name, c.kind, c.system, c.fields, c.indexes⟩ := by
    simp only [List.foldlM_cons, List.foldlM_nil, CollectionMembers.readMember, asString, asBool, texts, fields, kind]
    rfl
  rw [read, Record.read_object_bind taken]
  rfl

theorem Collection.read_toJson (c : Collection) : read c.toJson = .ok c :=
  read_object (asStrings_ofStrings c.indexes) (asList_map Field.read_toJson c.fields)
    (asName_string c.kind.ofName?_name)

namespace Catalog

theorem save_of_apart {before : List Collection} {c : Collection} (fresh : ∀ c' ∈ before, Apart c' c) :
    save ⟨before⟩ c = ⟨before ++ [c]⟩ := by
  have none_stale : ∀ c' ∈ before, ¬ isStale c c' = true := by
    intro c' member
    simp [isStale, (fresh c' member).2]
  have last : ∀ cs : List Collection, (∀ c' ∈ cs, c'.id ≠ c.id) → put c cs = cs ++ [c] := by
    intro cs others
    induction cs with
    | nil => rfl
    | cons c' rest ih =>
      rw [put, if_neg (others c' List.mem_cons_self), ih fun d member => others d (List.mem_cons_of_mem _ member)]
      rfl
  rw [save, List.eraseP_of_forall_not none_stale, last before fun c' member => (fresh c' member).1]

theorem saveAll_of_apart {before cs : List Collection} (apart : (before ++ cs).Pairwise Apart) :
    saveAll ⟨before⟩ cs = ⟨before ++ cs⟩ := by
  induction cs generalizing before with
  | nil => simp [saveAll]
  | cons c rest ih =>
    have fresh : ∀ c' ∈ before, Apart c' c := fun c' member =>
      (List.pairwise_append.mp apart).2.2 c' member c List.mem_cons_self
    have later : ((before ++ [c]) ++ rest).Pairwise Apart := by simpa using apart
    show saveAll (save ⟨before⟩ c) rest = _
    rw [save_of_apart fresh, ih later, List.append_assoc]
    rfl

theorem Keyed.saveAll_empty {cat : Catalog} (keyed : cat.Keyed) : empty.saveAll cat.collections = cat :=
  @saveAll_of_apart [] cat.collections keyed

/-- A collection is read from its JSON value, whatever its kind, fields, options and indexes. After any changes, an empty
catalog into which the JSON value of the catalog is loaded holds the same collections in the same order. -/
theorem load_toJson :
    (∀ c : Collection, Collection.read c.toJson = .ok c) ∧
      ∀ changes : List Change, let cat := history changes
        empty.load cat.toJson = .ok (cat, cat.collections.length) := by
  refine ⟨Collection.read_toJson, fun changes => ?_⟩
  intro cat
  have keyed : cat.Keyed := (entries_history changes).1
  have read : definitions cat.toJson = .ok cat.collections := by
    rw [definitions_eq_ok, Catalog.toJson, Defines, List.forall₂_map_left_iff, List.forall₂_same]
    exact fun c _ => c.read_toJson
  rw [load, read]
  show Except.ok (empty.saveAll cat.collections, cat.collections.length) = _
  rw [keyed.saveAll_empty]

end Catalog
end RelationFilter
