import RelationFilter.Proofs.Path.Link
import RelationFilter.Proofs.Sql.Bindings

namespace RelationFilter

theorem sql_columnIs (d : Dialect) (column id : String) :
    ((Condition.columnIs column (.string id)).toStatement d).sql = d.quoteColumn column ++ " = :p0" := by
  have first : Bindings.empty.freeSlot = "p0" := rfl
  simp [Condition.columnIs, Condition.toStatement, Condition.render, Condition.renderColumns, Sql.columnValue, first,
    String.append_assoc]

def slotTexts (n : Nat) : List String := (List.range n).map fun i => ":" ++ Bindings.slot i

theorem renderEntries_strings (d : Dialect) (ids : List String) {b : Bindings} {k : Nat}
    (h : b.names = (List.range k).map Bindings.slot) :
    (Condition.renderEntries d (ids.map fun id => EntryOf.value (.string id)) b).1 =
      (List.range' k ids.length).map fun i => ":" ++ Bindings.slot i := by
  induction ids generalizing b k with
  | nil => rfl
  | cons id rest ih =>
    have free := Bindings.freeSlot_of_slots h
    have next : (b.insert (Bindings.slot k) (.string id)).names = (List.range (k + 1)).map Bindings.slot := by
      have fresh : Bindings.slot k ∉ b.names := by
        rw [h, List.mem_map]
        rintro ⟨i, member, same⟩
        rw [Bindings.slot_inj same] at member
        simp at member
      rw [Bindings.names_insert, if_neg fresh, h, List.range_succ, List.map_append]
      rfl
    simp [Condition.renderEntries, Sql.listValue, Json.isNull, free, ih next, List.range'_succ]

theorem sql_valueIn (d : Dialect) (column : String) (ids : List String) :
    ((Condition.valueIn column (ids.map .string)).toStatement d).sql =
      Sql.membership d column (slotTexts ids.length) false := by
  have texts := renderEntries_strings d ids (b := Bindings.empty) (k := 0) rfl
  simp only [Condition.valueIn, Condition.toStatement, Condition.render, List.map_map]
  rw [slotTexts, List.range_eq_range', ← texts]
  rfl

theorem count_slotTexts (n : Nat) : ∀ t ∈ slotTexts n, t.toList.count ':' = 1 := by
  intro t member
  obtain ⟨i, -, rfl⟩ := List.mem_map.mp member
  simp only [Bindings.slot, String.toList_append, List.count_append, List.count_eq_zero_of_not_mem (plain_toString i)]
  rfl

theorem count_intercalate (ts : List (List Char)) (each : ∀ t ∈ ts, t.count ':' = 1) :
    (List.intercalate [',', ' '] ts).count ':' = ts.length := by
  induction ts with
  | nil => rfl
  | cons t rest ih =>
    have first := each t List.mem_cons_self
    have others := ih fun t member => each t (List.mem_cons_of_mem _ member)
    cases rest with
    | nil => simpa using first
    | cons next rest =>
      rw [List.intercalate_cons_cons, List.count_append, List.count_append, first, others, List.length_cons]
      simp
      omega

theorem count_membership (d : Dialect) {column : String} (plain : Plain (d.quoteColumn column)) {n : Nat}
    (given : n ≠ 0) : (Sql.membership d column (slotTexts n) false).toList.count ':' = n := by
  have zero := List.count_eq_zero_of_not_mem plain
  have length : (slotTexts n).length = n := by simp [slotTexts]
  have counts := count_slotTexts n
  match shape : slotTexts n with
  | [] => simp [shape] at length; omega
  | [t] =>
    have one := counts t (by simp [shape])
    have single : n = 1 := by rw [← length, shape, List.length_singleton]
    simp only [Sql.membership, String.toList_append, List.count_append, zero, one]
    rw [single]
    rfl
  | t :: next :: rest =>
    have list : ((t :: next :: rest).map String.toList).length = n := by rw [← length, shape, List.length_map]
    have inner := count_intercalate ((t :: next :: rest).map String.toList) (by
      intro u member
      obtain ⟨v, there, rfl⟩ := List.mem_map.mp member
      exact counts v (shape ▸ there))
    simp only [Sql.membership, String.toList_append, List.count_append, zero, String.toList_intercalate]
    rw [show (", " : String).toList = [',', ' '] from rfl, inner, list]
    simp

theorem membership_ne (d : Dialect) (column : String) {n : Nat} (given : n ≠ 0) :
    Sql.membership d column (slotTexts n) false ≠ d.quoteColumn column ++ " = :p0" := by
  intro same
  have length : (slotTexts n).length = n := by simp [slotTexts]
  match shape : slotTexts n with
  | [] => simp [shape] at length; omega
  | [t] =>
    simp only [shape, Sql.membership, String.append_assoc] at same
    have rest := congrArg String.toList same
    simp only [String.toList_append, List.append_cancel_left_eq] at rest
    exact absurd (List.cons.inj rest).1 (by decide)
  | t :: next :: rest =>
    simp only [shape, Sql.membership, String.append_assoc] at same
    have rest := congrArg String.toList same
    simp only [String.toList_append, List.append_cancel_left_eq] at rest
    exact absurd (List.cons.inj (List.cons.inj rest).2).1 (by decide)

inductive Link.Kind where
  | keyed
  | loose
  | tied
deriving DecidableEq

def Link.kind : Link → Link.Kind
  | .auth _ | .submitted _ _ _ => .keyed
  | .collection _ | .items _ | .elements _ _ => .loose
  | .record _ _ _ | .records _ _ _ | .referrers _ _ _ _ _ => .tied

def Link.tie (d : Dialect) (a : String) : Link → String × String
  | .record row field _ => (a ++ ".id", "= " ++ (row ++ "." ++ field))
  | .records row field _ => (a ++ ".id", "= " ++ (Hop.elementAlias row field ++ ".value"))
  | .referrers row _ field _ false => (a ++ "." ++ field, "= " ++ (row ++ ".id"))
  | .referrers row segment field _ true =>
    (row ++ ".id",
      "IN (SELECT " ++ (Hop.elementAlias row segment ++ (".value FROM " ++ (d.columnElements (a ++ "." ++ field) ++
        (" " ++ Hop.elementAlias row segment ++ ")")))))
  | _ => ("", "")

namespace Link.Describes

variable {d : Dialect} {a : String} {l l' : Link} {j k : Join}

theorem colon_mem_of_keyed (h : l.Describes d a j) (ha : IsIdentifier a) (keyed : l.kind = .keyed) :
    ':' ∈ (j.on.toStatement d).sql.toList := by
  cases h with
  | auth =>
    rw [sql_columnIs, String.toList_append]
    exact List.mem_append_right _ (by decide)
  | submitted ht given named =>
    rename_i ids
    have length : ids.length ≠ 0 := fun none => given (List.length_eq_zero_iff.mp none)
    have quoted := d.plain_quoteColumn (ha.append (b := ".id") (by decide)).plain
    rw [sql_valueIn, ← List.count_pos_iff, count_membership d quoted length]
    omega
  | _ => cases keyed

theorem sql_of_loose (h : l.Describes d a j) (loose : l.kind = .loose) : (j.on.toStatement d).sql = "1=1" := by
  cases h with
  | collection | items | elements => rfl
  | _ => cases loose

theorem sql_of_tied (h : l.Describes d a j) (tied : l.kind = .tied) :
    (j.on.toStatement d).sql = (l.tie d a).1 ++ " " ++ (l.tie d a).2 := by
  cases h with
  | record | records =>
    simp only [Condition.toStatement, Condition.text, Condition.render, tie, String.append_assoc]
    rfl
  | referrers ht hr hs other hf named =>
    rename_i multiple
    cases multiple <;>
    · simp only [Condition.toStatement, Condition.text, Condition.render, tie, Hop.referrerCondition, named,
        String.append_assoc]
      rfl
  | _ => cases tied

theorem isIdentifier_tie (h : l.Describes d a j) (ha : IsIdentifier a) : IsIdentifier (l.tie d a).1 := by
  cases h with
  | record | records => exact ha.append (by decide)
  | referrers ht hr hs other hf named =>
    rename_i multiple
    cases multiple with
    | false => exact isIdentifier_column ha hf
    | true => exact hr.append (by decide)
  | _ => exact (by decide : IsIdentifier "")

theorem plain_tie (h : l.Describes d a j) (ha : IsIdentifier a) : Plain (l.tie d a).2 := by
  cases h with
  | record ht hr hf named => exact Plain.append (by decide) (isIdentifier_column hr hf).plain
  | records ht hr hf named =>
    exact Plain.append (by decide) ((isIdentifier_elementAlias hr hf).plain.append (by decide))
  | referrers ht hr hs other hf named =>
    rename_i multiple
    have je := (isIdentifier_elementAlias hr hs).plain
    cases multiple with
    | false => exact Plain.append (by decide) (hr.plain.append (by decide))
    | true =>
      exact Plain.append (by decide) (je.append (Plain.append (by decide)
        ((d.plain_columnElements (isIdentifier_column ha hf).plain).append
          ((Plain.append (by decide) je).append (by decide)))))
  | _ => exact (by decide : Plain "")

theorem plain_of_tied (h : l.Describes d a j) (ha : IsIdentifier a) (tied : l.kind = .tied) :
    Plain (j.on.toStatement d).sql ∧ ' ' ∈ (j.on.toStatement d).sql.toList := by
  rw [h.sql_of_tied tied]
  refine ⟨((h.isIdentifier_tie ha).plain.append (by decide)).append (h.plain_tie ha), ?_⟩
  simp [String.toList_append]

theorem kind_eq (h : l.Describes d a j) (h' : l'.Describes d a k) (ha : IsIdentifier a)
    (same : (j.on.toStatement d).sql = (k.on.toStatement d).sql) : l.kind = l'.kind := by
  have colon : ':' ∉ "1=1".toList := by decide
  have space : ' ' ∉ "1=1".toList := by decide
  cases kind : l.kind <;> cases kind' : l'.kind <;> try rfl
  · exact absurd (h'.sql_of_loose kind' ▸ same ▸ h.colon_mem_of_keyed ha kind) colon
  · exact absurd (same ▸ h.colon_mem_of_keyed ha kind) (h'.plain_of_tied ha kind').1
  · exact absurd (h.sql_of_loose kind ▸ same.symm ▸ h'.colon_mem_of_keyed ha kind') colon
  · exact absurd (h.sql_of_loose kind ▸ same.symm ▸ (h'.plain_of_tied ha kind').2) space
  · exact absurd (same.symm ▸ h'.colon_mem_of_keyed ha kind') (h.plain_of_tied ha kind).1
  · exact absurd (h'.sql_of_loose kind' ▸ same ▸ (h.plain_of_tied ha kind).2) space

end Link.Describes

theorem chars_inj {c : Char} {xs ys xs' ys' : List Char} (hx : c ∉ xs) (hx' : c ∉ xs')
    (h : xs ++ c :: ys = xs' ++ c :: ys') : xs = xs' ∧ ys = ys' := by
  rcases List.append_eq_append_iff.mp h with ⟨t, rfl, rest⟩ | ⟨t, rfl, rest⟩
  · cases t with
    | nil => exact ⟨(List.append_nil _).symm, (List.cons.inj rest).2⟩
    | cons x t =>
      rw [(List.cons.inj rest).1] at hx'
      simp at hx'
  · cases t with
    | nil => exact ⟨List.append_nil _, (List.cons.inj rest).2.symm⟩
    | cons x t =>
      rw [(List.cons.inj rest).1] at hx
      simp at hx

theorem blank_inj {x x' z z' : String} (hx : IsIdentifier x) (hx' : IsIdentifier x')
    (h : x ++ " " ++ z = x' ++ " " ++ z') : x = x' ∧ z = z' := by
  have chars := congrArg String.toList h
  simp only [String.toList_append, List.append_assoc] at chars
  obtain ⟨left, right⟩ := chars_inj (hx.not_mem (c := ' ') (by decide))
    (hx'.not_mem (by decide)) chars
  exact ⟨String.toList_inj.mp left, String.toList_inj.mp right⟩

theorem glued_inj {row row' x x' y y' : String} (column : row ++ "." ++ x = row' ++ "." ++ x')
    (glued : row ++ "_" ++ y = row' ++ "_" ++ y') : row = row' ∧ x = x' ∧ y = y' := by
  have dots := congrArg String.toList column
  have bars := congrArg String.toList glued
  simp only [String.toList_append, List.append_assoc] at dots bars
  have rows : row.toList = row'.toList := by
    rcases List.append_eq_append_iff.mp dots with ⟨t, there, rest⟩ | ⟨t, there, rest⟩
    · rw [there, List.append_assoc, List.append_cancel_left_eq] at bars
      cases t with
      | nil => simpa using there.symm
      | cons c t => exact absurd ((List.cons.inj rest).1.trans (List.cons.inj bars).1.symm) (by decide)
    · rw [there, List.append_assoc, List.append_cancel_left_eq] at bars
      cases t with
      | nil => simpa using there
      | cons c t => exact absurd ((List.cons.inj rest).1.trans (List.cons.inj bars).1) (by decide)
  rw [rows, List.append_cancel_left_eq] at dots bars
  exact ⟨String.toList_inj.mp rows, String.toList_inj.mp (List.cons.inj dots).2,
    String.toList_inj.mp (List.cons.inj bars).2⟩

theorem not_plain_boundElements (d : Dialect) (p : String) : ¬ Plain (d.boundElements p) := by
  intro plain
  apply plain
  cases d <;>
  · unfold Dialect.boundElements
    simp [String.toList_append]

theorem not_isIdentifier_columnElements (d : Dialect) (column : String) : ¬ IsIdentifier (d.columnElements column) := by
  intro h
  apply h.not_mem (c := '(') (by decide)
  cases d <;>
  · unfold Dialect.columnElements
    simp only [String.toList_append, List.mem_append]
    exact .inl (.inl (.inl (.inl (.inl (.inl (by decide))))))

theorem SameTable.eq_of_isIdentifier {d : Dialect} {t u : String} (ht : IsIdentifier t) (h : SameTable d t u) :
    t = u := by
  rcases h with same | ⟨m, n, rfl, -⟩
  · exact same
  · exact absurd ht.plain (not_plain_boundElements d _)

theorem column_ne_elementColumn {a row field row' field' : String} (named : a = row ++ "_" ++ field)
    (named' : a = row' ++ "_" ++ field') : row ++ "." ++ field ≠ Hop.elementAlias row' field' ++ ".value" := by
  intro same
  have glued := congrArg String.length (named.symm.trans named')
  have lengths := congrArg String.length same
  simp only [Hop.elementAlias, String.length_append, show "_".length = 1 from rfl, show ".".length = 1 from rfl,
    show "_je".length = 3 from rfl, show ".value".length = 6 from rfl] at glued lengths
  omega

theorem elementColumn_ne_id {a row field row' segment : String} (named : a = row ++ "_" ++ field)
    (named' : a = row' ++ "_" ++ segment) : Hop.elementAlias row field ++ ".value" ≠ row' ++ ".id" := by
  intro same
  have glued := congrArg String.length (named.symm.trans named')
  have lengths := congrArg String.length same
  simp only [Hop.elementAlias, String.length_append, show "_".length = 1 from rfl, show ".id".length = 3 from rfl,
    show "_je".length = 3 from rfl, show ".value".length = 6 from rfl] at glued lengths
  omega

theorem column_ne_id {a row field row' segment : String} (named : a = row ++ "_" ++ field)
    (named' : a = row' ++ "_" ++ segment) (other : segment ≠ "id") : row ++ "." ++ field ≠ row' ++ ".id" := by
  intro same
  have column : row ++ "." ++ field = row' ++ "." ++ "id" := by rw [same, String.append_assoc]; rfl
  obtain ⟨-, atId, segment'⟩ := glued_inj column (named.symm.trans named')
  exact other (segment'.symm.trans atId)

theorem equals_ne_in (t u : String) : "= " ++ t ≠ "IN (SELECT " ++ u := by
  intro same
  have chars := congrArg String.toList same
  simp only [String.toList_append] at chars
  exact absurd (List.cons.inj chars).1 (by decide)

namespace Link.Describes

variable {d : Dialect} {a : String} {l l' : Link} {j k : Join}

theorem eq_of_keyed (h : l.Describes d a j) (h' : l'.Describes d a k) (ha : IsIdentifier a) (kind : l.kind = .keyed)
    (kind' : l'.kind = .keyed) (same : SameJoin d j k) : l = l' := by
  have quoted := d.plain_quoteColumn (ha.append (b := ".id") (by decide)).plain
  have length : ∀ {ids : List String}, ids ≠ [] → ids.length ≠ 0 := fun given none =>
    given (List.length_eq_zero_iff.mp none)
  cases h with
  | auth ht =>
    cases h' with
    | auth ht' => rw [same.table.eq_of_isIdentifier ht]
    | submitted ht' given' named' =>
      have text := same.on
      rw [sql_columnIs, sql_valueIn] at text
      exact absurd text.symm (membership_ne d _ (length given'))
    | _ => cases kind'
  | submitted ht given named =>
    have text := same.on
    cases h' with
    | auth ht' =>
      rw [sql_columnIs, sql_valueIn] at text
      exact absurd text (membership_ne d _ (length given))
    | submitted ht' given' named' =>
      obtain rfl := same.table.eq_of_isIdentifier ht
      rw [sql_valueIn, sql_valueIn] at text
      have counts := congrArg (fun t => t.toList.count ':') text
      simp only [count_membership d quoted (length given), count_membership d quoted (length given')] at counts
      have fields := congrArg String.toList (named.symm.trans named')
      simp only [String.toList_append, List.append_cancel_left_eq] at fields
      rw [counts, String.toList_inj.mp fields]
    | _ => cases kind'
  | _ => cases kind

theorem eq_of_loose (h : l.Describes d a j) (h' : l'.Describes d a k) (kind : l.kind = .loose)
    (kind' : l'.kind = .loose) (same : SameJoin d j k) : l = l' := by
  have items_ne_elements : ∀ {n : Nat} {row field : String}, IsIdentifier row → IsIdentifier field →
      ¬ SameTable d (d.boundElements (numbered "dataEach" n)) (d.columnElements (row ++ "." ++ field)) := by
    intro n row field hr hf same
    have plain := d.plain_columnElements (isIdentifier_column hr hf).plain
    rcases same with same | ⟨_, m, -, same⟩ <;> exact not_plain_boundElements d _ (same ▸ plain)
  cases h with
  | collection ht =>
    have table := same.table.eq_of_isIdentifier ht
    cases h' with
    | collection ht' => rw [show _ = _ from table]
    | items named' => exact absurd (table ▸ ht.plain) (not_plain_boundElements d _)
    | elements hr' hf' named' => exact absurd (table ▸ ht) (not_isIdentifier_columnElements d _)
    | _ => cases kind'
  | items named =>
    cases h' with
    | collection ht' =>
      exact absurd (same.table.symm.eq_of_isIdentifier ht' ▸ ht'.plain) (not_plain_boundElements d _)
    | items named' =>
      have fields := congrArg String.toList (named.symm.trans named')
      simp only [String.toList_append, List.append_assoc, List.append_cancel_left_eq, List.append_cancel_right_eq] at fields
      rw [String.toList_inj.mp fields]
    | elements hr' hf' named' => exact absurd same.table (items_ne_elements hr' hf')
    | _ => cases kind'
  | elements hr hf named =>
    cases h' with
    | collection ht' =>
      exact absurd (same.table.symm.eq_of_isIdentifier ht' ▸ ht') (not_isIdentifier_columnElements d _)
    | items named' => exact absurd same.table.symm (items_ne_elements hr hf)
    | elements hr' hf' named' =>
      rename_i row field row' field'
      have columns : d.quoteColumn (row ++ "." ++ field) = d.quoteColumn (row' ++ "." ++ field') := by
        rcases same.table with table | ⟨m, n, table, -⟩
        · exact d.columnElements_inj table
        · exact absurd (.inl table.symm) (items_ne_elements hr hf)
      have mark : isIdentifierChar d.quoteMark = false := by cases d <;> decide
      have column := d.quoteColumn_inj ((isIdentifier_column hr hf).not_mem mark)
        ((isIdentifier_column hr' hf').not_mem mark) columns
      have glued : row ++ "_" ++ (field ++ "_je") = row' ++ "_" ++ (field' ++ "_je") := by
        simpa only [Hop.elementAlias, String.append_assoc] using named.symm.trans named'
      obtain ⟨rfl, rfl, -⟩ := glued_inj column glued
      rfl
    | _ => cases kind'
  | _ => cases kind

/-- Tests of columns tell their links. Of the records of a field with several ids they tell only the table; the field is
told by the table of elements that is joined before. -/
theorem eq_of_tied (h : l.Describes d a j) (h' : l'.Describes d a k) (ha : IsIdentifier a) (kind : l.kind = .tied)
    (kind' : l'.kind = .tied) (same : SameJoin d j k) :
    l = l' ∨ ∃ row field row' field' table, l = .records row field table ∧ l' = .records row' field' table := by
  have text := same.on
  rw [h.sql_of_tied kind, h'.sql_of_tied kind'] at text
  obtain ⟨left, right⟩ := blank_inj (h.isIdentifier_tie ha) (h'.isIdentifier_tie ha) text
  cases h with
  | record ht hr hf named =>
    obtain rfl := same.table.eq_of_isIdentifier ht
    cases h' with
    | record ht' hr' hf' named' =>
      obtain ⟨rfl, rfl, -⟩ := glued_inj ((String.append_right_inj _).mp right) (named.symm.trans named')
      exact .inl rfl
    | records ht' hr' hf' named' =>
      exact absurd ((String.append_right_inj _).mp right) (column_ne_elementColumn named named')
    | @referrers _ _ _ _ multiple ht' hr' hs' other' hf' named' =>
      cases multiple with
      | false => exact absurd ((String.append_right_inj _).mp right) (column_ne_id named named' other')
      | true => exact absurd right (equals_ne_in _ _)
    | _ => cases kind'
  | records ht hr hf named =>
    obtain rfl := same.table.eq_of_isIdentifier ht
    cases h' with
    | record ht' hr' hf' named' =>
      exact absurd ((String.append_right_inj _).mp right).symm (column_ne_elementColumn named' named)
    | records ht' hr' hf' named' => exact .inr ⟨_, _, _, _, _, rfl, rfl⟩
    | @referrers _ _ _ _ multiple ht' hr' hs' other' hf' named' =>
      cases multiple with
      | false => exact absurd ((String.append_right_inj _).mp right) (elementColumn_ne_id named named')
      | true => exact absurd right (equals_ne_in _ _)
    | _ => cases kind'
  | @referrers row segment field _ multiple ht hr hs other hf named =>
    obtain rfl := same.table.eq_of_isIdentifier ht
    cases h' with
    | record ht' hr' hf' named' =>
      cases multiple with
      | false => exact absurd ((String.append_right_inj _).mp right).symm (column_ne_id named' named other)
      | true => exact absurd right.symm (equals_ne_in _ _)
    | records ht' hr' hf' named' =>
      cases multiple with
      | false => exact absurd ((String.append_right_inj _).mp right).symm (elementColumn_ne_id named' named)
      | true => exact absurd right.symm (equals_ne_in _ _)
    | @referrers row' segment' field' _ multiple' ht' hr' hs' other' hf' named' =>
      have mark : isIdentifierChar d.quoteMark = false := by cases d <;> decide
      cases multiple <;> cases multiple' <;> simp only [tie] at left right
      · obtain rfl := (String.append_left_inj _).mp ((String.append_right_inj _).mp right)
        obtain rfl := (String.append_right_inj _).mp left
        obtain rfl := (String.append_right_inj _).mp (named.symm.trans named')
        exact .inl rfl
      · exact absurd right (equals_ne_in _ _)
      · exact absurd right.symm (equals_ne_in _ _)
      · obtain rfl := (String.append_left_inj _).mp left
        obtain rfl := (String.append_right_inj _).mp (named.symm.trans named')
        simp only [String.append_right_inj, String.append_left_inj] at right
        have column := d.quoteColumn_inj ((isIdentifier_column ha hf).not_mem mark)
          ((isIdentifier_column ha hf').not_mem mark) (d.columnElements_inj right)
        obtain rfl := (String.append_right_inj _).mp column
        exact .inl rfl
    | _ => cases kind'
  | _ => cases kind

end Link.Describes

namespace Link.Describes

variable {d : Dialect} {a : String} {l : Link} {j k : Join}

theorem sameJoin (h : l.Describes d a j) (h' : l.Describes d a k) : SameJoin d j k := by
  cases h with
  | auth =>
    cases h'
    exact ⟨.inl rfl, by rw [sql_columnIs, sql_columnIs]⟩
  | @submitted table field ids =>
    generalize count : ids.length = n at h'
    cases h'
    exact ⟨.inl rfl, by rw [sql_valueIn, sql_valueIn, count]⟩
  | items =>
    cases h'
    exact ⟨.inr ⟨_, _, rfl, rfl⟩, rfl⟩
  | collection | record | records | referrers | elements =>
    cases h'
    exact .refl d _

theorem elementAlias_eq {row field table : String} (h : (Link.records row field table).Describes d a j) :
    Hop.elementAlias row field = a ++ "_je" := by
  cases h with
  | records ht hr hf named => rw [named, Hop.elementAlias]

end Link.Describes

end RelationFilter
