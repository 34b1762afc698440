import RelationFilter.Proofs.Blog
import RelationFilter.Proofs.Path.Reads

namespace RelationFilter

def RelationOptions.HoldsSeveral (o : RelationOptions) : Prop := ∀ max, o.maxSelect = some max → 1 < max

theorem RelationOptions.isMultiple_iff {o : RelationOptions} : o.isMultiple = true ↔ o.HoldsSeveral := by
  simp [isMultiple, HoldsSeveral, Option.all_eq_true]

def Field.HoldsSeveral (f : Field) : Prop :=
  match f.kind with
  | .select o => 1 < o.maxSelect
  | .file o => 1 < o.maxSelect
  | .relation o => o.HoldsSeveral
  | _ => False

theorem Field.isMultiple?_iff {f : Field} : f.isMultiple? = some true ↔ f.HoldsSeveral := by
  unfold isMultiple? HoldsSeveral
  cases f.kind <;> simp [RelationOptions.isMultiple_iff]

def Collection.HasUniqueIndex (c : Collection) (column : String) : Prop :=
  ∃ sql ∈ c.indexes, (Index.parse sql).isValid ∧ (Index.parse sql).unique ∧
    ∃ only, (Index.parse sql).columns = [only] ∧ Text.sameIgnoringCase only.name column

theorem Collection.isUniqueColumn_iff {c : Collection} {column : String} :
    c.isUniqueColumn column = true ↔ c.HasUniqueIndex column := by
  have settles (i : Index) : indexSettles column i = true ↔
      i.isValid ∧ i.unique ∧ ∃ only, i.columns = [only] ∧ Text.sameIgnoringCase only.name column := by
    unfold indexSettles
    split
    · rename_i only columns
      simp [columns, and_assoc]
    · rename_i other
      refine ⟨fun h => absurd (Bool.and_eq_true_iff.mp h).2 Bool.false_ne_true, ?_⟩
      rintro ⟨-, -, only, columns, -⟩
      exact (other only columns).elim
  simp only [isUniqueColumn, List.any_eq_true, settles, HasUniqueIndex]

/-- One record may be led to several ones by the segment. -/
inductive Fans (cat : Catalog) (loaded : List Collection) (c : Collection) (segment : String) : Prop where
  | relation {f : Field} {o : RelationOptions} (field : c.field? segment = some f) (options : f.relation? = some o)
    (several : o.HoldsSeveral)
  | referrer {next : Collection} {loaded' : List Collection} {back : BackReference} {f : Field} {o : RelationOptions}
    (free : c.field? segment = none) (parsed : BackReference.parse? segment = some back)
    (other : loadCollection cat loaded back.collection = (some next, loaded'))
    (field : next.field? back.field = some f) (options : f.relation? = some o)
    (several : o.HoldsSeveral ∨ ¬ next.HasUniqueIndex f.name)

/-- Some of the segments may lead from one record to several ones, or the last one asks for the elements of a field that may
hold several values. -/
inductive Branches (cat : Catalog) : (loaded : List Collection) → Collection → (segments : List String) → Prop where
  | hop {loaded loaded' : List Collection} {c next : Collection} {segment : String} {rest : List String}
    (link : Related cat loaded c segment next loaded') (fans : Fans cat loaded c segment) (more : rest ≠ []) :
    Branches cat loaded c (segment :: rest)
  | later {loaded loaded' : List Collection} {c next : Collection} {segment : String} {rest : List String}
    (link : Related cat loaded c segment next loaded') (tail : Branches cat loaded' next rest) :
    Branches cat loaded c (segment :: rest)
  | elements {loaded : List Collection} {c : Collection} {last name : String} {f : Field}
    (asked : splitModifier last = .ok (name, some .each)) (field : c.field? name = some f) (several : f.HoldsSeveral) :
    Branches cat loaded c [last]

theorem Fans.of_relation_iff {cat : Catalog} {loaded : List Collection} {c : Collection} {segment : String} {f : Field}
    {o : RelationOptions} (field : c.field? segment = some f) (options : f.relation? = some o) :
    Fans cat loaded c segment ↔ o.HoldsSeveral := by
  constructor
  · rintro (⟨field', options', several⟩ | ⟨free⟩)
    · cases field.symm.trans field'
      cases options.symm.trans options'
      exact several
    · cases field.symm.trans free
  · exact .relation field options

theorem Fans.of_referrer_iff {cat : Catalog} {loaded loaded' : List Collection} {c next : Collection} {segment : String}
    {back : BackReference} {f : Field} {o : RelationOptions} (free : c.field? segment = none)
    (parsed : BackReference.parse? segment = some back)
    (other : loadCollection cat loaded back.collection = (some next, loaded')) (field : next.field? back.field = some f)
    (options : f.relation? = some o) :
    Fans cat loaded c segment ↔ o.HoldsSeveral ∨ ¬ next.HasUniqueIndex f.name := by
  constructor
  · rintro (⟨field'⟩ | ⟨-, parsed', other', field', options', several⟩)
    · cases free.symm.trans field'
    · cases parsed.symm.trans parsed'
      cases other.symm.trans other'
      cases field.symm.trans field'
      cases options.symm.trans options'
      exact several
  · exact .referrer free parsed other field options

/-- A hop may lead to several records just if its segment does. -/
theorem LeadsBy.isMultiple_iff {cat : Catalog} {loaded loaded' : List Collection} {c next : Collection} {segment : String}
    {h : Hop} (link : LeadsBy cat loaded c segment h next loaded') : h.isMultiple = true ↔ Fans cat loaded c segment := by
  cases link with
  | @relation _ _ f o field options named target =>
    have multiple : (if o.isMultiple then Hop.records (identifier f.name) (identifier next.name)
        else .record (identifier f.name) (identifier next.name)).isMultiple = o.isMultiple := by
      cases o.isMultiple <;> rfl
    rw [multiple, RelationOptions.isMultiple_iff, Fans.of_relation_iff field options]
  | referrer free parsed other field options named target =>
    rw [Fans.of_referrer_iff free parsed other field options, Hop.isMultiple, Bool.or_eq_true,
      RelationOptions.isMultiple_iff, Bool.not_eq_true', Bool.eq_false_iff, ne_eq, Collection.isUniqueColumn_iff]

namespace Walk

variable {rules : WalkRules} {depth : Nat} {c : Collection} {loaded : List Collection} {segments : List String}
  {a : Arrival}

theorem eq_null_of_missing {cause : PathCause} (reached : missing rules cause = .ok a) : a = .null := by
  unfold missing at reached
  split at reached
  · exact (Except.ok.inj reached).symm
  · cases reached

theorem branches_last_iff {cat : Catalog} {last : String} :
    Branches cat loaded c [last] ↔
      ∃ name f, splitModifier last = .ok (name, some .each) ∧ c.field? name = some f ∧ f.HoldsSeveral := by
  constructor
  · rintro (⟨-, -, more⟩ | ⟨-, tail⟩ | ⟨asked, field, several⟩)
    · exact absurd rfl more
    · nomatch tail
    · exact ⟨_, _, asked, field, several⟩
  · rintro ⟨name, f, asked, field, several⟩
    exact .elements asked field several

theorem splitModifier_of_hasSystemField {last : String} (there : c.hasSystemField last) :
    splitModifier last = .ok (last, none) := by
  unfold Collection.hasSystemField Collection.systemFields at there
  rw [List.contains_iff_mem] at there
  have each : ∀ column ∈ ["id", "created", "updated", "username", "verified", "emailVisibility", "email"],
      splitModifier column = .ok (column, none) := by
    simp only [List.forall_mem_cons]
    exact ⟨rfl, rfl, rfl, rfl, rfl, rfl, rfl, nofun⟩
  apply each
  split at there
  · exact there
  · exact List.mem_append_left _ there

theorem any_isMultiple_ofField (f : Field) (modifier : Option Modifier) :
    (ofField f modifier).1.any Hop.isMultiple = true ↔ modifier = some .each ∧ f.HoldsSeveral := by
  rw [← Field.isMultiple?_iff]
  unfold ofField
  dsimp only
  split
  · simp
  · rename_i multiple several
    simp [Hop.isMultiple, several]
  · rename_i other
    refine ⟨nofun, ?_⟩
    rintro ⟨asked, several⟩
    exact (other true asked several).elim

theorem any_isMultiple_ofLast {last : String} (reached : (ofLast rules c loaded last).outcome = .ok a)
    (value : a ≠ .null) :
    (ofLast rules c loaded last).hops.any Hop.isMultiple = true ↔ Branches rules.catalog loaded c [last] := by
  rw [branches_last_iff]
  unfold ofLast at reached ⊢
  by_cases there : c.hasSystemField last
  · rw [if_pos there]
    simp [splitModifier_of_hasSystemField there]
  · rw [if_neg there] at reached ⊢
    cases split : splitModifier last with
    | error cause =>
      simp only [split] at reached
      cases reached
    | ok p =>
      obtain ⟨name, modifier⟩ := p
      simp only [split] at reached ⊢
      cases field : c.field? name with
      | none =>
        simp only [field] at reached
        exact absurd (eq_null_of_missing reached) value
      | some f =>
        simp only [any_isMultiple_ofField]
        constructor
        · rintro ⟨rfl, several⟩
          exact ⟨name, f, rfl, field, several⟩
        · rintro ⟨name', f', asked, field', several⟩
          cases asked
          cases field.symm.trans field'
          exact ⟨rfl, several⟩

/-- A walk that arrives at a value makes a hop to several values just if its segments branch. -/
theorem any_isMultiple_iff (reached : (ofSegments rules depth c loaded segments).outcome = .ok a) (value : a ≠ .null) :
    (ofSegments rules depth c loaded segments).hops.any Hop.isMultiple = true ↔
      Branches rules.catalog loaded c segments := by
  fun_induction ofSegments rules depth c loaded segments with
  | case1 => cases reached
  | case2 => exact any_isMultiple_ofLast reached value
  | case3 depth c loaded segment next rest f json =>
    refine ⟨fun none => absurd none Bool.false_ne_true, ?_⟩
    rintro (⟨link, -, -⟩ | ⟨link, -⟩)
    · rw [link.not_json] at json
      cases json
    · rw [link.not_json] at json
      cases json
  | case4 => cases reached
  | case5 depth c loaded segment next rest plain within h there loaded' step ih =>
    have hop := Step.ofSegment_eq_hop_iff.mp step
    have link := hop.related.1
    rw [after, List.any_cons, Bool.or_eq_true, hop.isMultiple_iff, ih reached]
    constructor
    · rintro (fans | tail)
      · exact .hop link fans (by simp)
      · exact .later link tail
    · rintro (⟨-, fans, -⟩ | ⟨link', tail⟩)
      · exact .inl fans
      · obtain ⟨rfl, rfl⟩ := link.unique link'
        exact .inr tail
  | case6 => exact absurd (eq_null_of_missing reached) value
  | case7 => cases reached

end Walk

/-- The operand is a column, a part of a JSON document, a number of elements or an element under the alias of a row. -/
def Operand.ReadsRow (d : Dialect) (o : Operand) : Prop := ∃ row a, a ≠ .null ∧ o.text = Arrival.text d row a

theorem Arrival.mark_mem_text (d : Dialect) (row : String) {a : Arrival} (value : a ≠ .null) :
    '.' ∈ (a.text d row).toList ∨ ')' ∈ (a.text d row).toList := by
  have ends {start last : String} (h : ')' ∈ last.toList) : ')' ∈ (start ++ last).toList := by
    rw [String.toList_append]
    exact List.mem_append_right _ h
  cases a with
  | null => exact absurd rfl value
  | column name guarded => exact .inl (by simp [text])
  | json field path => cases d <;> exact .inr (ends (by decide))
  | count field => cases d <;> exact .inr (ends (by decide))
  | element => exact .inl (by simp [text])

theorem isWord_of_bareWord {word : String} (known : word ∈ ["NULL", "TRUE", "FALSE"]) {c : Char}
    (member : c ∈ word.toList) : Text.isWord c = true := by
  have words : ∀ word ∈ ["NULL", "TRUE", "FALSE"], word.toList.all Text.isWord := by decide
  exact List.all_eq_true.mp (words word known) c member

theorem Operand.not_readsRow {d : Dialect} {o : Operand} (bare : ∀ c ∈ o.text.toList, Text.isWord c ∨ c = ':') :
    ¬ o.ReadsRow d := by
  rintro ⟨row, a, value, same⟩
  rw [same] at bare
  rcases Arrival.mark_mem_text d row value with dot | paren
  · exact absurd (bare '.' dot) (by decide)
  · exact absurd (bare ')' paren) (by decide)

namespace Route

variable {d : Dialect} {table : String} {r : Route} {a : Arrival}

theorem isSome_chain_operand (value : a ≠ .null) : (r.operand d table a).chain.isSome = r.isMultiple := by
  have chained (m : Chain) : (if r.isMultiple then some m else none).isSome = r.isMultiple := by
    cases r.isMultiple <;> rfl
  cases a with
  | null => exact absurd rfl value
  | _ => exact chained _

theorem isComplete_chain (value : a ≠ .null) : (r.chain d table a).isComplete = true ↔ table ≠ "" := by
  have shown : a.text d (r.aliasOn .copy) ≠ "" := by
    intro empty
    have marked := Arrival.mark_mem_text d (r.aliasOn .copy) value
    simp [empty] at marked
  by_cases named : table = "" <;> simp [ChainOf.isComplete, ChainOf.isRooted, chain, Root.aliasOn, named, shown]

end Route

namespace RecordScope

variable {s : RecordScope}

theorem Enters.unique {path segments segments' : List String} {root root' : Root} {c c' : Collection}
    {loaded loaded' : List Collection} {lenient lenient' showHidden showHidden' : Bool}
    (h : s.Enters path loaded lenient showHidden root c segments)
    (h' : s.Enters path loaded' lenient' showHidden' root' c' segments') :
    root = root' ∧ c = c' ∧ loaded = loaded' ∧ segments = segments' := by
  -- The two shapes of the path are kept as an equation: `cases` does not tell different text literals apart.
  generalize same : path = path' at h'
  cases h with
  | base collection request =>
    cases h' with
    | base => exact ⟨rfl, rfl, rfl, same⟩
    | collection => exact absurd same (collection _)
    | auth => exact absurd same (request _)
    | submitted => exact absurd same (request _)
  | collection found =>
    cases h' with
    | base collection => exact absurd same.symm (collection _)
    | collection found' =>
      cases same
      cases found.symm.trans found'
      exact ⟨rfl, rfl, rfl, rfl⟩
    | auth => simp at same
    | submitted => simp at same
  | auth given authenticated =>
    cases h' with
    | base _ request => exact absurd same.symm (request _)
    | collection => simp at same
    | auth given' authenticated' =>
      cases same
      cases given.symm.trans given'
      cases authenticated.symm.trans authenticated'
      exact ⟨rfl, rfl, rfl, rfl⟩
    | submitted => simp at same
  | submitted given split field options named found =>
    cases h' with
    | base _ request => exact absurd same.symm (request _)
    | collection => simp at same
    | auth => simp at same
    | submitted given' split' field' options' named' found' =>
      cases same
      cases given.symm.trans given'
      cases split.symm.trans split'
      cases field.symm.trans field'
      cases options.symm.trans options'
      cases found.symm.trans found'
      exact ⟨rfl, rfl, rfl, rfl⟩

theorem AsksEach.unique {path : List String} {f f' : Field} {items items' : List String} (h : s.AsksEach path f items)
    (h' : s.AsksEach path f' items') : f = f' ∧ items = items' := by
  obtain ⟨given, asked, field, -⟩ := h
  obtain ⟨given', asked', field', -⟩ := h'
  cases given.symm.trans given'
  cases asked.symm.trans asked'
  cases field.symm.trans field'
  exact ⟨rfl, rfl⟩

theorem AsksEach.not_enters {path segments : List String} {f : Field} {items : List String} {root : Root} {c : Collection}
    {loaded : List Collection} {lenient showHidden : Bool} (h : s.AsksEach path f items) :
    ¬ s.Enters path loaded lenient showHidden root c segments := by
  intro enters
  generalize same : path = path' at enters
  cases h with
  | intro given asked field arrayable =>
    cases enters with
    | base _ request => exact absurd same.symm (request _)
    | collection => simp at same
    | auth => simp at same
    | submitted => simp at same

/-- A path with several values. -/
inductive MultiValued (s : RecordScope) : (path : List String) → Prop where
  | collection (rest : List String) : MultiValued s ("@collection" :: rest)
  | submitted {head next name : String} {rest : List String} {modifier : Option Modifier} {f : Field} {o : RelationOptions}
    (split : splitModifier head = .ok (name, modifier)) (field : s.base.field? name = some f)
    (options : f.relation? = some o) (several : o.HoldsSeveral) :
    MultiValued s ("@request" :: "data" :: head :: next :: rest)
  | items {path : List String} {f : Field} {items : List String} (asks : s.AsksEach path f items)
    (several : f.HoldsSeveral) : MultiValued s path
  | walked {path segments : List String} {root : Root} {c : Collection} {loaded : List Collection}
    {lenient showHidden : Bool} (enters : s.Enters path loaded lenient showHidden root c segments)
    (branches : Branches s.catalog loaded c segments) : MultiValued s path

theorem multiValued_items_iff {path : List String} {f : Field} {items : List String} (asks : s.AsksEach path f items) :
    s.MultiValued path ↔ f.HoldsSeveral := by
  constructor
  · intro several
    generalize same : path = path' at several
    cases several with
    | collection rest =>
      cases asks
      simp at same
    | submitted =>
      cases asks
      simp at same
    | items asks' several =>
      subst same
      exact (asks.unique asks').1 ▸ several
    | walked enters => exact absurd (same ▸ enters) asks.not_enters
  · exact .items asks

theorem multiValued_walked_iff {path segments : List String} {root : Root} {c : Collection} {loaded : List Collection}
    {lenient showHidden : Bool} (enters : s.Enters path loaded lenient showHidden root c segments) :
    s.MultiValued path ↔ root.isMultiple = true ∨ Branches s.catalog loaded c segments := by
  constructor
  · intro several
    generalize same : path = path' at several
    cases several with
    | collection rest =>
      cases enters with
      | base collection => exact absurd same (collection _)
      | collection => exact .inl rfl
      | auth => simp at same
      | submitted => simp at same
    | submitted split field options several =>
      cases enters with
      | base _ request => exact absurd same (request _)
      | collection => simp at same
      | auth => simp at same
      | submitted given split' field' options' =>
        cases same
        cases split.symm.trans split'
        cases field.symm.trans field'
        cases options.symm.trans options'
        exact .inl (RelationOptions.isMultiple_iff.mpr several)
    | items asks => exact absurd (same ▸ enters) asks.not_enters
    | walked enters' branches =>
      subst same
      obtain ⟨-, rfl, rfl, rfl⟩ := enters.unique enters'
      exact .inr branches
  · rintro (multiple | branches)
    · cases enters with
      | base => cases multiple
      | collection => exact .collection _
      | auth => cases multiple
      | submitted given split field options =>
        exact .submitted split field options (RelationOptions.isMultiple_iff.mp multiple)
    · exact .walked enters branches

/-- A chain belongs to the operands that may have several values, and is complete unless the base table has no name. -/
theorem Reads.chain {path : List String} {o : Operand} (h : s.Reads path o) (reads : o.ReadsRow s.settings.dialect) :
    (o.chain.isSome ↔ s.MultiValued path) ∧ ∀ m, o.chain = some m → (m.isComplete ↔ s.table ≠ "") := by
  cases h with
  | literal text path known =>
    refine absurd reads (Operand.not_readsRow fun c member => .inl ?_)
    rcases known with word | ⟨n, rfl⟩
    · exact isWord_of_bareWord word member
    · exact isWord_toString member
  | value path v =>
    refine absurd reads (Operand.not_readsRow fun c member => ?_)
    have name := isPlaceholder_numbered (by decide : "t".toList.all Text.isWord) (by decide) s.counter
    have whole : c ∈ ':' :: (numbered "t" s.counter).toList := by simpa [Operand.bound] using member
    rcases List.mem_cons.mp whole with colon | inName
    · exact .inr colon
    · exact .inl (name.word c inName)
  | @items path f items multiple asks several =>
    refine ⟨?_, fun m chained => ?_⟩
    · rw [multiValued_items_iff asks, Route.isSome_chain_operand (by simp), ← Field.isMultiple?_iff, several]
      simp [itemsRoute, Route.isMultiple, Root.isMultiple]
    · rw [Route.chain_operand chained, Route.isComplete_chain (by simp)]
  | @walked path segments root c loaded lenient showHidden a enters arrived =>
    have value : a ≠ .null := by
      rintro rfl
      have known : "NULL" ∈ ["NULL", "TRUE", "FALSE"] := by decide
      exact Operand.not_readsRow (fun c member => .inl (isWord_of_bareWord known member)) reads
    refine ⟨?_, fun m chained => ?_⟩
    · rw [multiValued_walked_iff enters, Route.isSome_chain_operand value, Route.isMultiple, Bool.or_eq_true,
        Walk.any_isMultiple_iff arrived value]
      rfl
    · rw [Route.chain_operand chained, Route.isComplete_chain value]

/-- Where a path is resolved to something of a row, it has a chain just if it may have several values. The chain is complete
unless the base table has no name. -/
theorem chain_iff_multiValued {path : String} {o : Operand} (resolved : (resolve path s).1 = .ok o)
    (reads : o.ReadsRow s.settings.dialect) :
    (o.chain.isSome ↔ s.MultiValued (Text.split '.' path)) ∧
      ∀ m, o.chain = some m → (m.isComplete ↔ s.table ≠ "") :=
  (reads_of_visit (outcome_of_resolve resolved)).chain reads

theorem chain_iff_multiValued_tags :
    ∃ o m, (resolve "tags.name" Blog.scope).1 = .ok o ∧ o.ReadsRow .mysql ∧ Blog.scope.MultiValued ["tags", "name"] ∧
      o.chain = some m ∧ m.isComplete := by
  obtain ⟨o, resolved, text⟩ : ∃ o, (resolve "tags.name" Blog.scope).1 = .ok o ∧ o.text = "posts_tags.name" :=
    ⟨_, rfl, rfl⟩
  have reads : o.ReadsRow .mysql := ⟨"posts_tags", .column "name" false, nofun, text⟩
  have several : Blog.scope.MultiValued ["tags", "name"] :=
    .walked (.base (by simp) (by simp)) (.hop (.relation rfl rfl rfl) (.relation rfl rfl nofun) nofun)
  obtain ⟨chained, complete⟩ := chain_iff_multiValued resolved reads
  obtain ⟨m, chain⟩ := Option.isSome_iff_exists.mp (chained.mpr several)
  exact ⟨o, m, resolved, reads, several, chain, (complete m chain).mpr (by decide)⟩

end RecordScope

end RelationFilter
