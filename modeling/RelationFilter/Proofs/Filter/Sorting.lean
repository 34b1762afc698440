import RelationFilter.Filter.Search
import RelationFilter.Proofs.Path.Multiplicity
import RelationFilter.Proofs.Path.Order
import RelationFilter.Proofs.Path.Registry
import RelationFilter.Proofs.Sql.AliasText
import RelationFilter.Proofs.Sql.Truth

namespace RelationFilter

namespace RecordScope

variable {s : RecordScope} {path : String} {o : Operand}

def rows (s : RecordScope) : List String := s.table :: s.joins.map JoinOf.aliasName

theorem aliasOn_mem_rows {v : Visit} {r : Route} (walked : v.route = some r)
    (based : ∀ t, r.root = .base t → t = s.table) : r.aliasOn .primary ∈ (s.after v).rows := by
  rcases Route.aliasOn_mem_joins s.settings.dialect based with base | joined
  · rw [base]
    exact List.mem_cons_self
  · apply List.mem_cons_of_mem
    have registered : (s.after v).joins = putJoins (r.joins s.settings.dialect .primary) s.joins := by
      simp [after, Visit.joins, walked]
    rw [registered, mem_aliases_putJoins]
    exact .inl joined

def TellsPresence (s : RecordScope) (path : String) (o : Operand) : Prop :=
  ∃ r before last name, s.request = some r ∧ Text.split '.' path = "@request" :: (before ++ [last]) ∧
    splitModifier last = .ok (name, some .isset) ∧
    o = { text := if (r.members.nested? (before ++ [name])).isSome then "TRUE" else "FALSE" }

def TellsNumber (s : RecordScope) (path : String) (o : Operand) : Prop :=
  ∃ r head name f, s.request = some r ∧ Text.split '.' path = ["@request", "data", head] ∧
    splitModifier head = .ok (name, some .length) ∧ s.base.field? name = some f ∧ f.isArrayable ∧
    o = { text := toString (submittedItems r f).length }

inductive Literal (s : RecordScope) (path : String) (o : Operand) : Prop where
  | null (same : o = .null)
  | presence (tells : s.TellsPresence path o)
  | number (tells : s.TellsNumber path o)

def Visit.StaysLiteral (s : RecordScope) (path : String) (v : Visit) : Prop :=
  ∀ o, v.outcome = .ok o → v.route = none → o.bindings = .empty → s.Literal path o

theorem staysLiteral_error (loaded : List Collection) (cause : PathCause) :
    (s.stay loaded (.error cause)).StaysLiteral s path :=
  fun _ reached => nomatch reached

theorem staysLiteral_null (loaded : List Collection) : (s.stay loaded (.ok .null)).StaysLiteral s path :=
  fun _ reached _ _ => .null (Except.ok.inj reached).symm

theorem StaticCourse.staysLiteral {members : List String} {v : Visit} (course : s.StaticCourse members v) {r : Request}
    (given : s.request = some r) (shape : Text.split '.' path = "@request" :: members) : v.StaysLiteral s path := by
  cases course with
  | empty | misspelled => exact staysLiteral_error _ _
  | @presence last name ends split =>
    rintro o ⟨⟩ - -
    refine .presence ⟨r, members.dropLast, last, name, given, ?_, split, ?_⟩
    · rw [shape, List.dropLast_append_getLast? last ends]
    · rw [member?, given]
      rfl
  | null => exact staysLiteral_null _
  | value => rintro o ⟨⟩ - ⟨⟩

theorem Course.staysLiteral {v : Visit} (course : s.Course (Text.split '.' path) v) : v.StaysLiteral s path := by
  -- The path is kept as an equation, since a literal tells its shape.
  generalize shape : Text.split '.' path = segments at course
  cases course with
  | walked => exact fun _ _ still => nomatch still
  | static given reads course => exact course.staysLiteral given shape
  | items => rintro o - ⟨⟩
  | @count head name r f multiple given split field several =>
    rintro o ⟨⟩ - -
    exact .number ⟨r, head, name, f, given, shape, split, field, by simp [Field.isArrayable, several], rfl⟩
  | unrequested | unauthenticated | unsubmitted => exact staysLiteral_null _
  | short | uncollected | misspelled | targetless | untargeted => exact staysLiteral_error _ _

theorem staysLiteral_visit (path : String) : (s.visit path).StaysLiteral s path := by
  rcases s.course_visit path with refused | ⟨-, course⟩
  · rw [refused]
    exact staysLiteral_error _ _
  · exact course.staysLiteral

end RecordScope

/-- The operand is a column of one of the rows, or an expression over one. -/
def Operand.ReadsOneOf (d : Dialect) (rows : List String) (o : Operand) : Prop :=
  ∃ row ∈ rows, ∃ a : Arrival, IsIdentifier row ∧ a.Clean ∧ a ≠ .null ∧ o.text = a.text d row

theorem Operand.ReadsOneOf.readsRow {d : Dialect} {rows : List String} {o : Operand} (h : o.ReadsOneOf d rows) :
    o.ReadsRow d := by
  obtain ⟨row, -, a, -, -, value, text⟩ := h
  exact ⟨row, a, value, text⟩

theorem IsIdentifier.source {name : String} (h : IsIdentifier name) (filled : name ≠ "") : Sql.IsSource name :=
  Sql.isSource_of_ink filled fun c member => Sql.isBlank_of_isIdentifierChar (h c member)

theorem Arrival.isSource_text (d : Dialect) {row : String} {a : Arrival} (hr : IsIdentifier row) (clean : a.Clean)
    (value : a ≠ .null) : Sql.IsSource (a.text d row) := by
  cases a with
  | null => exact absurd rfl value
  | column name guarded => exact (isIdentifier_column hr clean).source (by simp)
  | json field path =>
    show Sql.IsSource (d.jsonExtract (row ++ "." ++ field) path)
    unfold Dialect.jsonExtract
    generalize d.quoteColumn (row ++ "." ++ field) = c
    generalize Dialect.jsonStep path = p
    cases d with
    | mysql =>
      have call := Sql.isSource_call "(IF(JSON_VALID(" (c ++ "),JSON_EXTRACT(" ++ c ++ ",'$" ++ p ++
        "'),JSON_EXTRACT(JSON_OBJECT('pb'," ++ c ++ "),'$.pb" ++ p) "')))" (by decide) (by decide)
      simpa only [String.append_assoc] using call
    | sqlite =>
      have call := Sql.isSource_call "(CASE WHEN json_valid(" (c ++ ") THEN JSON_EXTRACT(" ++ c ++ ", '$" ++ p ++
        "') ELSE JSON_EXTRACT(json_object('pb', " ++ c ++ "), '$.pb" ++ p) "') END)" (by decide) (by decide)
      simpa only [String.append_assoc] using call
  | count field =>
    show Sql.IsSource (d.elementCount (row ++ "." ++ field))
    unfold Dialect.elementCount
    generalize d.quoteColumn (row ++ "." ++ field) = c
    cases d with
    | mysql =>
      have call := Sql.isSource_call "JSON_LENGTH(IF(JSON_VALID(" (c ++ ")," ++ c ++ ",IF(" ++ c ++ "='' OR " ++ c ++
        " IS NULL,JSON_ARRAY(),JSON_ARRAY(" ++ c) "))))" (by decide) (by decide)
      simpa only [String.append_assoc] using call
    | sqlite =>
      have call := Sql.isSource_call "json_array_length(CASE WHEN json_valid(" (c ++ ") THEN " ++ c ++
        " ELSE (CASE WHEN " ++ c ++ " = '' OR " ++ c ++ " IS NULL THEN json_array() ELSE json_array(" ++ c) ") END) END)"
        (by decide) (by decide)
      simpa only [String.append_assoc] using call
  | element => exact (hr.append (by decide)).source (by simp)

theorem Operand.ReadsOneOf.source {d : Dialect} {rows : List String} {o : Operand} (h : o.ReadsOneOf d rows) :
    Sql.IsSource o.text := by
  obtain ⟨row, -, a, named, clean, value, text⟩ := h
  rw [text]
  exact Arrival.isSource_text d named clean value

namespace RecordScope

variable {s : RecordScope} {path : String} {o : Operand}

/-- An operand without values of its own is a literal, or reads a row of the scope after the visit. -/
theorem literal_or_readsOneOf (reached : (s.visit path).outcome = .ok o) (unbound : o.bindings = .empty) :
    s.Literal path o ∨ o.ReadsOneOf s.settings.dialect (s.after (s.visit path)).rows := by
  have seen := s.visits path
  have stays := s.staysLiteral_visit path
  generalize s.visit path = v at reached seen stays ⊢
  cases seen with
  | stayed => exact .inl (stays o reached rfl unbound)
  | bound value =>
    cases reached
    cases unbound
  | walked r arrival loaded clean end_clean own based =>
    rcases arrival with cause | a
    · cases reached
    · cases reached
      by_cases none : a = .null
      · subst none
        exact .inl (.null rfl)
      · right
        refine ⟨r.aliasOn .primary, aliasOn_mem_rows rfl based, a, ?_, end_clean a rfl, none, ?_⟩
        · exact isIdentifier_hopAlias clean.hops (Root.isIdentifier_aliasOn clean.root .primary)
        · exact Route.text_operand _ _ _ _
  | items field items multiple clean =>
    cases reached
    cases unbound

end RecordScope

namespace SortField

variable {s : RecordScope} {f : SortField} {o : Operand}

theorem isSortable_iff : isSortable o = true ↔ o.bindings = .empty ∧ o.text ≠ "" ∧ Text.lowerAscii o.text ≠ "null" := by
  simp [isSortable, Bindings.size_eq_zero_iff, and_assoc]

theorem ne_null_of_mem {text : String} {c : Char} (member : c ∈ text.toList) (other : c.toLower ∉ "null".toList) :
    text ≠ "" ∧ Text.lowerAscii text ≠ "null" := by
  refine ⟨?_, ?_⟩
  · rintro rfl
    simp at member
  · intro same
    rw [← same, Text.lowerAscii, String.toList_ofList] at other
    exact other (List.mem_map_of_mem member)

theorem isSortable_of_readsRow {d : Dialect} (unbound : o.bindings = .empty) (reads : o.ReadsRow d) :
    isSortable o = true := by
  obtain ⟨row, a, value, same⟩ := reads
  rw [isSortable_iff, same]
  rcases Arrival.mark_mem_text d row value with dot | close
  · exact ⟨unbound, ne_null_of_mem dot (by decide)⟩
  · exact ⟨unbound, ne_null_of_mem close (by decide)⟩

theorem toLower_not_mem_null {c : Char} (digit : c.isDigit = true) : c.toLower ∉ "null".toList := by
  have same : c.toLower = c := by
    unfold Char.toLower
    grind [Char.isDigit]
  have letters : "null".toList.all (fun l => !l.isDigit) = true := by decide
  rw [same]
  intro member
  simpa [digit] using List.all_eq_true.mp letters c member

theorem ne_null_toString (n : Nat) : toString n ≠ "" ∧ Text.lowerAscii (toString n) ≠ "null" := by
  have digits : (toString n).toList = Nat.toDigits 10 n := by rw [Nat.toString_eq_repr, Nat.toList_repr]
  obtain ⟨c, member⟩ := List.exists_mem_of_ne_nil _ (Nat.toDigits_ne_nil (n := n) (b := 10))
  exact ne_null_of_mem (digits ▸ member)
    (toLower_not_mem_null (Nat.isDigit_of_mem_toDigits (by decide) (by decide) member))

structure IsBareTerm (d : Dialect) (o : Operand) : Prop where
  sortable : isSortable o = true
  source : Sql.IsSource o.text
  apart : ¬ o.ReadsRow d

theorem isBareTerm_of_word {d : Dialect} {text : String} (other : text ≠ "" ∧ Text.lowerAscii text ≠ "null")
    (word : ∀ c ∈ text.toList, Text.isWord c = true) : IsBareTerm d { text := text } := by
  refine ⟨?_, ?_, ?_⟩
  · exact isSortable_iff.mpr ⟨rfl, other⟩
  · exact Sql.isSource_of_ink other.1 fun c member => Text.isBlank_of_isWord (word c member)
  · exact Operand.not_readsRow fun c member => .inl (word c member)

theorem isBareTerm_of_tellsPresence {path : String} (d : Dialect) (tells : s.TellsPresence path o) : IsBareTerm d o := by
  obtain ⟨r, before, last, name, -, -, -, rfl⟩ := tells
  split
  · exact isBareTerm_of_word (by decide) fun _ => isWord_of_bareWord (by decide)
  · exact isBareTerm_of_word (by decide) fun _ => isWord_of_bareWord (by decide)

theorem isBareTerm_of_tellsNumber {path : String} (d : Dialect) (tells : s.TellsNumber path o) : IsBareTerm d o := by
  obtain ⟨r, head, name, field, -, -, -, -, -, rfl⟩ := tells
  exact isBareTerm_of_word (ne_null_toString _) fun _ => isWord_toString

/-- What binds no value and is not `NULL` is a term, and its text can stand before a direction. -/
theorem accepted_of_visit {path : String} (reached : (s.visit path).outcome = .ok o) (unbound : o.bindings = .empty)
    (value : o.text ≠ "NULL") :
    isSortable o = true ∧ Sql.IsSource o.text ∧
      (o.ReadsOneOf s.settings.dialect (s.after (s.visit path)).rows ↔
        ¬ s.TellsPresence path o ∧ ¬ s.TellsNumber path o) := by
  let d := s.settings.dialect
  have bare (h : IsBareTerm d o) : ¬ o.ReadsOneOf d (s.after (s.visit path)).rows := fun reads => h.apart reads.readsRow
  rcases RecordScope.literal_or_readsOneOf reached unbound with (same | tells | tells) | reads
  · exact absurd (congrArg Operand.text same) value
  · have h := isBareTerm_of_tellsPresence d tells
    exact ⟨h.sortable, h.source, iff_of_false (bare h) fun others => others.1 tells⟩
  · have h := isBareTerm_of_tellsNumber d tells
    exact ⟨h.sortable, h.source, iff_of_false (bare h) fun others => others.2 tells⟩
  · refine ⟨isSortable_of_readsRow unbound reads.readsRow, reads.source, iff_of_true reads ⟨?_, ?_⟩⟩
    · exact fun tells => bare (isBareTerm_of_tellsPresence d tells) reads
    · exact fun tells => bare (isBareTerm_of_tellsNumber d tells) reads

theorem term_of_ok {σ : Type} [Resolver σ] {t : σ} (named : f.name ≠ "@random")
    (resolved : (Resolver.resolve f.name t).1 = .ok o) :
    f.term t = (if isSortable o then .ok (o.text ++ " " ++ f.direction.keyword) else .error (.invalidSortField f.name),
      (Resolver.resolve f.name t).2) := by
  rcases outcome : Resolver.resolve f.name t with ⟨e | o', u⟩
  · simp [outcome] at resolved
  · obtain rfl : o' = o := by simpa [outcome] using resolved
    rw [term, if_neg named, outcome]
    dsimp only
    split <;> rfl

theorem ne_random_of_resolve (resolved : (RecordScope.resolve f.name s).1 = .ok o) : f.name ≠ "@random" := by
  have reached := RecordScope.outcome_of_resolve resolved
  intro random
  rw [random] at reached
  cases reached

/-- A path that is resolved is a term of the order just if its operand binds no value and is not `NULL`. The term is the
operand, which is quoted once, and the direction. The operand is a column of the base table or of a joined one, or an
expression over such a column, just if the path neither asks for a member of the request nor for a number of submitted
items. -/
theorem term_column_iff (resolved : (RecordScope.resolve f.name s).1 = .ok o) :
    let d := s.settings.dialect
    let t := (RecordScope.resolve f.name s).2
    (o.bindings ≠ .empty ∨ o.text = "NULL") ∧ f.term s = (.error (.invalidSortField f.name), t) ∨
      o.bindings = .empty ∧ o.text ≠ "NULL" ∧ f.term s = (.ok (o.text ++ " " ++ f.direction.keyword), t) ∧
        Sql.orderColumn d (o.text ++ " " ++ f.direction.keyword) = d.quoteColumn o.text ++ " " ++ f.direction.keyword ∧
        (o.ReadsOneOf d t.rows ↔ ¬ s.TellsPresence f.name o ∧ ¬ s.TellsNumber f.name o) := by
  intro d t
  have reached := RecordScope.outcome_of_resolve resolved
  have upper : Text.lowerAscii "NULL" = "null" := by decide
  have shape := term_of_ok (t := s) (ne_random_of_resolve resolved) resolved
  by_cases bound : o.bindings ≠ .empty ∨ o.text = "NULL"
  · left
    have refused : ¬ isSortable o = true := by
      rw [isSortable_iff]
      rintro ⟨unbound, -, other⟩
      rcases bound with values | null
      · exact values unbound
      · exact other (null ▸ upper)
    exact ⟨bound, by rw [shape, if_neg refused]; rfl⟩
  · right
    obtain ⟨unbound, null⟩ := not_or.mp bound
    have unbound : o.bindings = .empty := not_not.mp unbound
    obtain ⟨sortable, source, column⟩ := accepted_of_visit reached unbound null
    exact ⟨unbound, null, by rw [shape, if_pos sortable]; rfl, Sql.orderColumn_spaced d source f.direction, column⟩

theorem term_column_iff_tagName :
    ∃ o, (RecordScope.resolve "tags.name" Blog.scope).1 = .ok o ∧
      ((⟨"tags.name", .descending⟩ : SortField).term Blog.scope).1 = .ok "posts_tags.name DESC" ∧
      Sql.orderColumn .mysql "posts_tags.name DESC" = Dialect.mysql.quoteColumn "posts_tags.name" ++ " DESC" ∧
      o.ReadsOneOf .mysql (RecordScope.resolve "tags.name" Blog.scope).2.rows := by
  obtain ⟨o, resolved, unbound, text⟩ : ∃ o, (RecordScope.resolve "tags.name" Blog.scope).1 = .ok o ∧
      o.bindings = .empty ∧ o.text = "posts_tags.name" := ⟨_, rfl, rfl, rfl⟩
  have path : Text.split '.' "tags.name" = ["tags", "name"] := by decide
  rcases term_column_iff (f := ⟨"tags.name", .descending⟩) resolved with ⟨bound, -⟩ | ⟨-, -, term, quoted, column⟩
  · rcases bound with values | null
    · exact absurd unbound values
    · exact absurd (text.symm.trans null) (by decide)
  · rw [text] at term quoted
    refine ⟨o, resolved, congrArg Prod.fst term, quoted, column.mpr ⟨?_, ?_⟩⟩
    · rintro ⟨r, before, last, name, -, shape, -⟩
      rw [path] at shape
      exact absurd (List.cons.inj shape).1 (by decide)
    · rintro ⟨r, head, name, field, -, shape, -⟩
      rw [path] at shape
      exact absurd (List.cons.inj shape).1 (by decide)

theorem term_not_column_isset :
    ∃ o, (RecordScope.resolve "@request.data.tags:isset" Blog.scope).1 = .ok o ∧
      ((⟨"@request.data.tags:isset", .ascending⟩ : SortField).term Blog.scope).1 = .ok "TRUE ASC" ∧
      Sql.orderColumn .mysql "TRUE ASC" = "`TRUE` ASC" ∧
      ¬ o.ReadsOneOf .mysql (RecordScope.resolve "@request.data.tags:isset" Blog.scope).2.rows := by
  refine ⟨{ text := "TRUE" }, rfl, rfl, rfl, fun reads => ?_⟩
  exact Operand.not_readsRow (fun c member => .inl (isWord_of_bareWord (by decide) member)) reads.readsRow

end SortField

end RelationFilter
