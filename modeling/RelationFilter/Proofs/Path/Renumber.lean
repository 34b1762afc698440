import RelationFilter.Proofs.Path.Fresh

namespace RelationFilter

open Text

variable {new : String → Option String}

theorem renamePlaceholders_of_covers {text : String} (h : Covers [] text) : renamePlaceholders new text = text := by
  have kept : ∀ p ∈ SqlPiece.ofText text, p.rename new = p := by
    intro p member
    cases p with
    | char c => rfl
    | placeholder name => exact absurd (h.mem (List.mem_filterMap.mpr ⟨_, member, rfl⟩)) (by simp)
  rw [renamePlaceholders, List.map_congr_left kept, List.map_id', SqlPiece.text_ofText]

structure IsPlaceholder (name : String) : Prop where
  word : ∀ c ∈ name.toList, isWord c = true
  nonempty : name ≠ ""

theorem renamePlaceholders_between {before name after : String} (plain : Plain before) (named : IsPlaceholder name)
    (plain' : Plain after) (stop : after.toList.takeWhile isWord = []) :
    renamePlaceholders new (before ++ ":" ++ name ++ after) = before ++ ":" ++ (new name).getD name ++ after := by
  have colon : (before ++ ":" ++ name ++ after).toList = before.toList ++ ':' :: (name.toList ++ after.toList) := by
    simp [String.toList_append]
  have read : SqlPiece.scan none (':' :: (name.toList ++ after.toList)) =
      .placeholder name.toList :: after.toList.map .char := by
    have rest : SqlPiece.scan none after.toList = after.toList.map .char := by
      simpa [SqlPiece.scan] using SqlPiece.scan_plain plain' []
    have first : SqlPiece.scan (some []) (name.toList ++ after.toList) =
        .placeholder name.toList :: SqlPiece.scan none after.toList :=
      SqlPiece.scan_name named.word (by simpa using named.nonempty) stop
    simpa [SqlPiece.scan, rest] using first
  rw [renamePlaceholders, SqlPiece.ofText, colon, SqlPiece.scan_plain plain, read, ← String.toList_inj]
  simp [SqlPiece.text, SqlPiece.rename, SqlPiece.chars, String.toList_append, List.flatMap_map, Function.comp_def]

structure Frame where
  before : String
  after : String
  plain : Plain before
  separator : IsSeparator after

namespace Frame

def text (f : Frame) (name : String) : String := f.before ++ ":" ++ name ++ f.after

theorem rename_text (f : Frame) {name : String} (named : IsPlaceholder name) :
    renamePlaceholders new (f.text name) = f.text ((new name).getD name) :=
  renamePlaceholders_between f.plain named f.separator.1 (by simpa using f.separator.stop [])

theorem exists_between (f : Frame) {start rest : String} (plain : Plain start) (plain' : Plain rest) :
    ∃ g : Frame, ∀ name, start ++ f.text name ++ rest = g.text name := by
  have separator : IsSeparator (f.after ++ rest) := by
    obtain ⟨own, head⟩ := f.separator
    refine ⟨own.append plain', ?_⟩
    cases shape : f.after.toList with
    | nil => simp [shape] at head
    | cons c cs => simpa [String.toList_append, shape] using head
  exact ⟨⟨start ++ f.before, f.after ++ rest, plain.append f.plain, separator⟩, fun name => by simp [text, String.append_assoc]⟩

end Frame

def Bindings.rename (new : String → Option String) (b : Bindings) : Bindings :=
  ⟨b.entries.map fun e => ((new e.1).getD e.1, e.2)⟩

def JoinOf.rename {C : Type} (new : String → Option String) (j : JoinOf C) : JoinOf C :=
  { j with table := renamePlaceholders new j.table }

def ChainOf.rename {C : Type} (new : String → Option String) (m : ChainOf C) : ChainOf C :=
  { m with joins := m.joins.map (JoinOf.rename new), bindings := m.bindings.rename new }

def Operand.rename (new : String → Option String) (o : Operand) : Operand :=
  { o with
    text := renamePlaceholders new o.text
    bindings := o.bindings.rename new
    chain := o.chain.map (ChainOf.rename new) }

theorem JoinOf.rename_of_covers {C : Type} {j : JoinOf C} (h : Covers [] j.table) : j.rename new = j := by
  rw [rename, renamePlaceholders_of_covers h]

theorem SoundJoins.table {P : String → Json → Prop} {names : List String} {joins : List Join}
    (sound : SoundJoins P names joins) {j : Join} (member : j ∈ joins) : Covers names j.table := by
  induction joins with
  | nil => cases member
  | cons first rest ih =>
    rcases List.mem_cons.mp member with rfl | later
    · exact sound.1.1
    · exact ih sound.2 later

theorem SoundChain.rename_eq {P : String → Json → Prop} {m : Chain} (sound : SoundChain P m)
    (unbound : m.bindings = Bindings.empty) : m.rename new = m := by
  obtain ⟨baseAlias, fromTable, fromAlias, value, joins, own⟩ := m
  cases unbound
  have tables : ∀ j ∈ joins, JoinOf.rename new j = j :=
    fun j member => JoinOf.rename_of_covers (sound.2.2.table member)
  simp only [ChainOf.rename, List.map_congr_left tables, List.map_id']
  rfl

/-- An operand that binds nothing, and whose chain binds nothing, writes no placeholder. -/
theorem Operand.Sound.rename_eq {P : String → Json → Prop} {o : Operand} (sound : o.Sound P)
    (unbound : o.bindings = Bindings.empty) (chain : ∀ m, o.chain = some m → m.bindings = Bindings.empty) :
    o.rename new = o := by
  have text : renamePlaceholders new o.text = o.text := by
    apply renamePlaceholders_of_covers
    have covers := sound.text
    rwa [unbound] at covers
  have same : o.chain.map (ChainOf.rename new) = o.chain := by
    cases multi : o.chain with
    | none => rfl
    | some m => rw [Option.map_some, (sound.chain m multi).rename_eq (chain m multi)]
  rw [rename, text, same, unbound]
  cases o
  cases unbound
  rfl

def renumber (m n : Nat) (name : String) : Option String :=
  (["t", "dataEach", "mmdataEach"].find? fun start => name = numbered start m).map fun start => numbered start n

theorem numbered_inj {start start' : String} {n : Nat} (h : numbered start n = numbered start' n) : start = start' := by
  have lists := congrArg String.toList h
  simp only [numbered, String.toList_append, List.append_cancel_right_eq] at lists
  exact String.toList_inj.mp lists

theorem renumber_numbered {start : String} (known : start ∈ ["t", "dataEach", "mmdataEach"]) (m n : Nat) :
    renumber m n (numbered start m) = some (numbered start n) := by
  unfold renumber
  cases found : ["t", "dataEach", "mmdataEach"].find? fun start' => numbered start m = numbered start' m with
  | none => simpa using List.find?_eq_none.mp found start known
  | some start' =>
    have same : numbered start m = numbered start' m := by simpa using List.find?_some found
    rw [numbered_inj same]
    rfl

theorem isPlaceholder_numbered {start : String} (word : start.toList.all isWord) (nonempty : start ≠ "") (n : Nat) :
    IsPlaceholder (numbered start n) := by
  refine ⟨?_, by simp [numbered, nonempty]⟩
  intro c member
  rw [numbered, String.toList_append] at member
  rcases List.mem_append.mp member with inStart | digit
  · exact List.all_eq_true.mp word c inStart
  · exact isWord_toString digit

theorem Operand.bound_rename (m n : Nat) (value : Json) :
    (Operand.bound (numbered "t" m) value).rename (renumber m n) = .bound (numbered "t" n) value := by
  have known : renumber m n (numbered "t" m) = some (numbered "t" n) := renumber_numbered (by decide) m n
  have text : renamePlaceholders (renumber m n) (":" ++ numbered "t" m) = ":" ++ numbered "t" n := by
    have whole : renamePlaceholders (renumber m n) ("" ++ ":" ++ numbered "t" m ++ "") = _ :=
      renamePlaceholders_between (by decide) (isPlaceholder_numbered (by decide) (by decide) m) (by decide) rfl
    simpa [known] using whole
  simp only [Operand.rename, Operand.bound, text, Bindings.rename, Bindings.single, List.map_cons, List.map_nil, known,
    Option.getD_some, Option.map_none]

theorem Dialect.exists_frame (d : Dialect) : ∃ f : Frame, ∀ name, d.boundElements name = f.text name := by
  cases d with
  | mysql =>
    have separator : IsSeparator ",'$[*]' COLUMNS(`value` VARCHAR(255) PATH '$'))" := by decide +kernel
    exact ⟨⟨"JSON_TABLE(", _, by decide, separator⟩, fun name => rfl⟩
  | sqlite => exact ⟨⟨"json_each(", ")", by decide, by decide⟩, fun name => rfl⟩

theorem Dialect.quoteTable_boundElements (d : Dialect) (name : String) :
    d.quoteTable (d.boundElements name) = d.boundElements name := by
  have call : '(' ∈ (d.boundElements name).toList := by
    cases d <;>
    · simp only [boundElements, String.toList_append]
      exact List.mem_append_left _ (List.mem_append_left _ (by decide))
  have verbatim : isVerbatim (d.boundElements name).toList = true := by
    simp only [isVerbatim, List.contains_eq_mem, call, decide_true, Bool.true_or]
  rw [quoteTable, tableChars, if_pos verbatim, String.ofList_toList]

def itemsRoute (field items : String) (multiple : Bool) (n : Nat) : Route :=
  ⟨.submittedItems field (numbered "dataEach" n) items multiple, []⟩

section

variable (d : Dialect) (table field items : String) (multiple : Bool) (m n : Nat)

theorem placeholder_copy (k : Nat) : Root.placeholder .copy (numbered "dataEach" k) = numbered "mmdataEach" k := by
  rw [Root.placeholder, numbered, ← String.append_assoc]
  rfl

theorem exists_placeholder (side : Side) : ∃ start ∈ ["t", "dataEach", "mmdataEach"],
    IsPlaceholder (numbered start m) ∧ ∀ k, Root.placeholder side (numbered "dataEach" k) = numbered start k := by
  cases side with
  | primary =>
    exact ⟨"dataEach", by decide, isPlaceholder_numbered (by decide) (by decide) m, fun _ => rfl⟩
  | copy =>
    exact ⟨"mmdataEach", by decide, isPlaceholder_numbered (by decide) (by decide) m, placeholder_copy⟩

theorem itemsRoute_joins (side : Side) :
    ((itemsRoute field items multiple m).joins d side).map (JoinOf.rename (renumber m n)) =
      (itemsRoute field items multiple n).joins d side := by
  obtain ⟨start, known, named, shape⟩ := exists_placeholder m side
  obtain ⟨f, text⟩ := d.exists_frame
  have renamed : renamePlaceholders (renumber m n) (d.boundElements (numbered start m)) =
      d.boundElements (numbered start n) := by
    rw [text, f.rename_text named, renumber_numbered known, text]
    rfl
  have joins : ∀ k, (itemsRoute field items multiple k).joins d side =
      [⟨d.boundElements (numbered start k), (itemsRoute field items multiple k).root.aliasOn side, always⟩] :=
    fun k => by rw [← shape]; rfl
  have rows : (itemsRoute field items multiple m).root.aliasOn side =
      (itemsRoute field items multiple n).root.aliasOn side := by cases side <;> rfl
  rw [joins, joins, List.map_cons, List.map_nil, JoinOf.rename, renamed, rows]

theorem itemsRoute_bindings (side : Side) :
    ((itemsRoute field items multiple m).root.bindings side).rename (renumber m n) =
      (itemsRoute field items multiple n).root.bindings side := by
  obtain ⟨start, known, -, shape⟩ := exists_placeholder m side
  simp only [itemsRoute, Root.bindings, Bindings.rename, Bindings.single, List.map_cons, List.map_nil, shape,
    renumber_numbered known, Option.getD_some]

theorem itemsRoute_chain :
    ((itemsRoute field items multiple m).chain d table .element).rename (renumber m n) =
      (itemsRoute field items multiple n).chain d table .element := by
  rw [ChainOf.rename]
  simp only [Route.chain, itemsRoute_joins, itemsRoute_bindings]
  rfl

theorem itemsRoute_operand (named : IsIdentifier field) :
    ((itemsRoute field items multiple m).operand d table .element).rename (renumber m n) =
      (itemsRoute field items multiple n).operand d table .element := by
  have row : IsIdentifier ((itemsRoute field items multiple m).aliasOn .primary) :=
    (IsIdentifier.append (by decide) named).append (by decide)
  have text : renamePlaceholders (renumber m n) ((itemsRoute field items multiple m).aliasOn .primary ++ ".value") =
      (itemsRoute field items multiple n).aliasOn .primary ++ ".value" :=
    renamePlaceholders_of_covers (.of_plain (row.plain.append (by decide)))
  have chain : ∀ k, (itemsRoute field items multiple k).isMultiple = multiple := by simp [itemsRoute, Route.isMultiple, Root.isMultiple]
  simp only [Operand.rename, Route.operand, Arrival.text, text, itemsRoute_bindings, chain]
  cases multiple with
  | false => rfl
  | true =>
    simp only [if_true, Option.map_some, itemsRoute_chain]
    rfl

end

theorem exists_joinFrame (d : Dialect) {aliasName : String} (plain : Plain aliasName) :
    ∃ f : Frame, ∀ name, Sql.leftJoin d (d.boundElements name) aliasName "1=1" = f.text name := by
  obtain ⟨f, elements⟩ := d.exists_frame
  have quoted := d.plain_quoteTablePart plain
  have verbatim : ∀ name, d.quoteTable (f.text name) = f.text name :=
    fun name => elements name ▸ d.quoteTable_boundElements name
  have joined : ∃ sep, Plain sep ∧ ∀ name, Sql.leftJoin d (d.boundElements name) aliasName "1=1" =
      "LEFT JOIN " ++ f.text name ++ (sep ++ d.quoteTablePart aliasName ++ " ON 1=1") := by
    have on : "1=1" ≠ "" := by decide
    have shown : " ON " ++ "1=1" = " ON 1=1" := rfl
    cases d with
    | mysql =>
      refine ⟨" ", by decide, fun name => ?_⟩
      simp only [Sql.leftJoin, on, ↓reduceIte, Dialect.tableWithAlias, elements, verbatim, String.append_assoc, shown]
    | sqlite =>
      refine ⟨" AS ", by decide, fun name => ?_⟩
      simp only [Sql.leftJoin, on, ↓reduceIte, Dialect.tableWithAlias, elements, verbatim, String.append_assoc, shown]
  obtain ⟨sep, between, texts⟩ := joined
  obtain ⟨g, whole⟩ := f.exists_between (by decide : Plain "LEFT JOIN ")
    ((between.append quoted).append (by decide : Plain " ON 1=1"))
  exact ⟨g, fun name => (texts name).trans (whole name)⟩

/-- The body of the chain of submitted items has one placeholder, which it binds. -/
theorem exists_itemsSource (d : Dialect) {table field : String} (table_named : IsIdentifier table)
    (named : IsIdentifier field) (items : String) (multiple : Bool) :
    ∃ f : Frame, ∀ n, Condition.renderChain d ((itemsRoute field items multiple n).chain d table .element) Bindings.empty =
      (f.text (numbered "mmdataEach" n), Bindings.single (numbered "mmdataEach" n) (.string items)) := by
  have row : IsIdentifier ("__mm__dataEach_" ++ field ++ "_je") := (IsIdentifier.append (by decide) named).append (by decide)
  have copy : IsIdentifier ("__mm_" ++ table) := IsIdentifier.append (by decide) table_named
  have id : ∀ name, IsIdentifier name → Plain (d.quoteColumn (name ++ ".id")) :=
    fun name h => d.plain_quoteColumn (h.plain.append (by decide))
  obtain ⟨f, joined⟩ := exists_joinFrame d row.plain
  obtain ⟨g, whole⟩ := f.exists_between
    (((by decide : Plain "FROM ").append (d.plain_tableWithAlias table_named.plain copy.plain)).append (by decide : Plain " "))
    (((by decide : Plain " WHERE ").append (id _ copy)).append ((by decide : Plain " = ").append (id _ table_named)))
  refine ⟨g, fun n => ?_⟩
  have rendered : Condition.renderChain d ((itemsRoute field items multiple n).chain d table .element) Bindings.empty =
      (Sql.chainSource d ((itemsRoute field items multiple n).chain d table .element)
        [Sql.leftJoin d (d.boundElements (numbered "mmdataEach" n)) ("__mm__dataEach_" ++ field ++ "_je") "1=1"],
        Bindings.single (numbered "mmdataEach" n) (.string items)) := by
    rw [← placeholder_copy]
    rfl
  have source : ∀ c : Chain, c.fromTable = table → c.fromAlias = "__mm_" ++ table → c.baseAlias = table → ∀ join,
      Sql.chainSource d c [join] =
        "FROM " ++ d.tableWithAlias table ("__mm_" ++ table) ++ " " ++ join ++
          (" WHERE " ++ d.quoteColumn ("__mm_" ++ table ++ ".id") ++ (" = " ++ d.quoteColumn (table ++ ".id"))) := by
    intro c fromTable fromAlias baseAlias join
    have keyword : " " ++ "WHERE " = " WHERE " := rfl
    simp only [Sql.chainSource, fromTable, fromAlias, baseAlias, List.cons_append, List.nil_append,
      String.intercalate_cons_cons, String.intercalate_singleton, ← keyword, String.append_assoc]
  rw [rendered, ← whole, ← joined, source _ rfl rfl rfl]

/-- The submitted items have one signature, whatever the number of their placeholder. -/
theorem itemsRoute_signature (d : Dialect) {table field : String} (table_named : IsIdentifier table)
    (named : IsIdentifier field) (items : String) (multiple : Bool) (m n : Nat) :
    ((itemsRoute field items multiple m).chain d table .element).signature d =
      ((itemsRoute field items multiple n).chain d table .element).signature d := by
  obtain ⟨f, source⟩ := exists_itemsSource d table_named named items multiple
  have signature : ∀ k, ((itemsRoute field items multiple k).chain d table .element).signature d =
      f.text "$0" ++ " [" ++ (Json.string items).text ++ "]" := by
    intro k
    have place : (Bindings.single (numbered "mmdataEach" k) (.string items)).indexOf? (numbered "mmdataEach" k) = some 0 := by
      simp [Bindings.indexOf?, Bindings.single]
    simp only [ChainOf.signature, source,
      f.rename_text (isPlaceholder_numbered (by decide : "mmdataEach".toList.all isWord) (by decide) k), place,
      Option.map_some, Option.getD_some]
    rfl
  rw [signature, signature]

end RelationFilter
