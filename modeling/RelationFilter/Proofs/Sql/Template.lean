import RelationFilter.Proofs.Sql.Bindings
import RelationFilter.Sql.Render

namespace RelationFilter.Sql

inductive TemplatePiece where
  | text (s : String)
  | value (v : Json)

abbrev Template := List TemplatePiece

/-- The text with a placeholder for each value; `slots` has their names with the values, in order. -/
inductive Fills : Template → (slots : List (String × Json)) → String → Prop
  | nil : Fills [] [] ""
  | text (s : String) {t : Template} {slots : List (String × Json)} {rest : String} (others : Fills t slots rest) :
    Fills (.text s :: t) slots (s ++ rest)
  | value (name : String) (v : Json) {t : Template} {slots : List (String × Json)} {rest : String}
    (others : Fills t slots rest) : Fills (.value v :: t) ((name, v) :: slots) (":" ++ name ++ rest)

inductive FillsAll : List Template → (slots : List (String × Json)) → List String → Prop
  | nil : FillsAll [] [] []
  | cons {t : Template} {ts : List Template} {slots others : List (String × Json)} {s : String} {texts : List String}
    (first : Fills t slots s) (rest : FillsAll ts others texts) : FillsAll (t :: ts) (slots ++ others) (s :: texts)

namespace Fills

variable {t u : Template} {slots others : List (String × Json)} {s r : String}

theorem append (first : Fills t slots s) (second : Fills u others r) : Fills (t ++ u) (slots ++ others) (s ++ r) := by
  induction first with
  | nil => simpa using second
  | text piece _ ih =>
    rw [String.append_assoc]
    exact .text piece ih
  | value name v _ ih =>
    rw [String.append_assoc]
    exact .value name v ih

theorem ofText (s : String) : Fills [.text s] [] s := by simpa using Fills.text s .nil

theorem slot (name : String) (v : Json) : Fills [.value v] [(name, v)] (":" ++ name) := by
  simpa using Fills.value name v .nil

theorem before (h : Fills t slots s) (after : String) : Fills (t ++ [.text after]) slots (s ++ after) := by
  simpa using h.append (ofText after)

theorem between (h : Fills t slots s) (before after : String) :
    Fills (.text before :: t ++ [.text after]) slots (before ++ s ++ after) := (Fills.text before h).before after

end Fills

def TemplatePiece.every (test : Char → Bool) : TemplatePiece → Bool
  | text s => s.toList.all test
  | value _ => false

namespace Template

def isEmpty (t : Template) : Bool := t.all (TemplatePiece.every fun _ => false)

def isBlank (t : Template) : Bool := t.all (TemplatePiece.every Text.isBlank)

end Template

theorem Fills.all_eq {t : Template} {slots : List (String × Json)} {s : String} (h : Fills t slots s)
    {test : Char → Bool} (colon : test ':' = false) : s.toList.all test = t.all (TemplatePiece.every test) := by
  induction h with
  | nil => rfl
  | text s _ ih => rw [String.toList_append, List.all_append, List.all_cons, ih, TemplatePiece.every]
  | value name v _ ih => simp [TemplatePiece.every, colon]

theorem Fills.eq_empty_iff {t : Template} {slots : List (String × Json)} {s : String} (h : Fills t slots s) :
    s = "" ↔ t.isEmpty = true := by
  rw [Template.isEmpty, ← h.all_eq rfl]
  simp [List.eq_nil_iff_forall_not_mem, ← String.toList_eq_nil_iff]

/-- Without a value in the template there is no placeholder. -/
theorem Fills.slots_eq_nil {t : Template} {slots : List (String × Json)} {s : String} (h : Fills t slots s)
    {test : Char → Bool} (every : t.all (TemplatePiece.every test) = true) : slots = [] := by
  induction h with
  | nil => rfl
  | text s _ ih => exact ih (Bool.and_eq_true_iff.mp every).2
  | value name v _ _ => cases every

namespace FillsAll

variable {ts : List Template} {slots : List (String × Json)} {texts : List String}

theorem visible (h : FillsAll ts slots texts) :
    FillsAll (ts.filter fun t => !t.isEmpty) slots (texts.filter (· ≠ "")) := by
  induction h with
  | nil => exact .nil
  | @cons t ts slots others s texts first _ ih =>
    by_cases empty : t.isEmpty = true
    · have nothing := first.slots_eq_nil empty
      simpa [nothing, empty, first.eq_empty_iff.mpr empty] using ih
    · have shown : s ≠ "" := fun same => empty (first.eq_empty_iff.mp same)
      simpa [empty, shown] using FillsAll.cons first ih

theorem intercalate (sep : String) (h : FillsAll ts slots texts) :
    Fills (List.intercalate [.text sep] ts) slots (String.intercalate sep texts) := by
  induction h with
  | nil => exact .nil
  | cons first rest ih =>
    cases rest with
    | nil => simpa using first
    | cons second rest =>
      rw [List.intercalate_cons_cons, String.intercalate_cons_cons]
      exact (first.before sep).append ih

theorem append {us : List Template} {others : List (String × Json)} {more : List String} (h : FillsAll ts slots texts)
    (h' : FillsAll us others more) : FillsAll (ts ++ us) (slots ++ others) (texts ++ more) := by
  induction h with
  | nil => exact h'
  | cons first _ ih =>
    rw [List.append_assoc]
    exact .cons first ih

end FillsAll

namespace Template

def combine (operator : String) (parts : List Template) : Template :=
  match parts.filter fun t => !t.isEmpty with
  | [] => []
  | [part] => part
  | parts => .text "(" :: List.intercalate [.text (") " ++ operator ++ " (")] parts ++ [.text ")"]

def membership (d : Dialect) (column : String) (values : List Template) (negated : Bool) : Template :=
  match values, negated with
  | [], true => []
  | [], false => [.text "0=1"]
  | [value], true => .text (d.quoteColumn column ++ "<>") :: value
  | [value], false => .text (d.quoteColumn column ++ "=") :: value
  | values, true =>
    .text (d.quoteColumn column ++ " NOT IN (") :: List.intercalate [.text ", "] values ++ [.text ")"]
  | values, false => .text (d.quoteColumn column ++ " IN (") :: List.intercalate [.text ", "] values ++ [.text ")"]

def existence (t : Template) (negated : Bool) : Template :=
  if t.isEmpty then [.text (if negated then "" else "0=1")]
  else .text (if negated then "NOT EXISTS (" else "EXISTS (") :: t ++ [.text ")"]

def negation (t : Template) : Template := if t.isBlank then [] else .text "NOT (" :: t ++ [.text ")"]

def enclose (t : Template) : Template := if t.isEmpty then [] else .text "(" :: t ++ [.text ")"]

def listValue (v : Json) : Template := if v.isNull then [.text "NULL"] else [.value v]

def columnValue (d : Dialect) (column : String) (v : Json) : Template :=
  match v with
  | .null => [.text (d.quoteColumn column ++ " IS NULL")]
  | .array items => membership d column (items.map listValue) false
  | v => [.text (d.quoteColumn column ++ " = "), .value v]

def leftJoin (d : Dialect) (table aliasName : String) (on : Template) : Template :=
  if on.isEmpty then [.text ("LEFT JOIN " ++ d.tableWithAlias table aliasName)]
  else .text ("LEFT JOIN " ++ d.tableWithAlias table aliasName ++ " ON ") :: on

def chainSource {C : Type} (d : Dialect) (m : ChainOf C) (joins : List Template) : Template :=
  List.intercalate [.text " "] ([.text ("FROM " ++ d.tableWithAlias m.fromTable m.fromAlias)] :: joins ++
    [[.text ("WHERE " ++ d.quoteColumn (m.fromAlias ++ ".id") ++ " = " ++ d.quoteColumn (m.baseAlias ++ ".id"))]])

def rowConditions (parts : List Template) : Template :=
  (parts.filter fun t => !t.isEmpty).flatMap fun t => .text " AND (" :: t ++ [.text ")"]

end Template

section

variable {t : Template} {ts : List Template} {slots : List (String × Json)} {s : String} {texts : List String}

theorem fills_combine (operator : String) (h : FillsAll ts slots texts) :
    Fills (Template.combine operator ts) slots (combine operator texts) := by
  have shown := h.visible
  unfold Template.combine combine
  generalize ts.filter (fun t => !t.isEmpty) = us at shown
  generalize texts.filter (· ≠ "") = parts at shown
  cases shown with
  | nil => exact .nil
  | cons first rest =>
    cases rest with
    | nil => simpa using first
    | cons second rest => exact (FillsAll.cons first (.cons second rest)).intercalate _ |>.between "(" ")"

theorem fills_membership (d : Dialect) (column : String) (h : FillsAll ts slots texts) (negated : Bool) :
    Fills (Template.membership d column ts negated) slots (membership d column texts negated) := by
  cases h with
  | nil =>
    cases negated
    · exact .ofText "0=1"
    · exact .nil
  | cons first rest =>
    cases rest with
    | nil =>
      rw [List.append_nil]
      cases negated <;> exact .text _ first
    | cons second rest =>
      have list := (FillsAll.cons first (.cons second rest)).intercalate ", "
      cases negated <;> exact list.between _ ")"

theorem fills_existence (h : Fills t slots s) (negated : Bool) :
    Fills (t.existence negated) slots (existence s negated) := by
  unfold Template.existence existence
  by_cases empty : t.isEmpty = true
  · rw [if_pos empty, if_pos (h.eq_empty_iff.mpr empty), h.slots_eq_nil empty]
    exact .ofText _
  · rw [if_neg empty, if_neg fun same => empty (h.eq_empty_iff.mp same)]
    exact h.between _ ")"

theorem fills_negation (h : Fills t slots s) : Fills t.negation slots (negation s) := by
  unfold Template.negation negation
  rw [Text.allBlank, h.all_eq (by decide), ← Template.isBlank]
  by_cases blank : t.isBlank = true
  · rw [if_pos blank, if_pos blank, h.slots_eq_nil blank]
    exact .nil
  · rw [if_neg blank, if_neg blank]
    exact h.between _ ")"

theorem fills_enclose (h : Fills t slots s) : Fills t.enclose slots (enclose s) := by
  unfold Template.enclose enclose
  by_cases empty : t.isEmpty = true
  · rw [if_pos empty, if_pos (h.eq_empty_iff.mpr empty), h.slots_eq_nil empty]
    exact .nil
  · rw [if_neg empty, if_neg fun same => empty (h.eq_empty_iff.mp same)]
    exact h.between "(" ")"

theorem fills_leftJoin (d : Dialect) (table aliasName : String) (h : Fills t slots s) :
    Fills (Template.leftJoin d table aliasName t) slots (leftJoin d table aliasName s) := by
  unfold Template.leftJoin leftJoin
  by_cases empty : t.isEmpty = true
  · rw [if_pos empty, if_pos (h.eq_empty_iff.mpr empty), h.slots_eq_nil empty]
    exact .ofText _
  · rw [if_neg empty, if_neg fun same => empty (h.eq_empty_iff.mp same)]
    exact .text _ h

theorem fills_chainSource {C : Type} (d : Dialect) (m : ChainOf C) (h : FillsAll ts slots texts) :
    Fills (Template.chainSource d m ts) slots (chainSource d m texts) := by
  have root := FillsAll.cons (.ofText ("FROM " ++ d.tableWithAlias m.fromTable m.fromAlias)) h
  have tie := FillsAll.cons (.ofText ("WHERE " ++ d.quoteColumn (m.fromAlias ++ ".id") ++ " = " ++
    d.quoteColumn (m.baseAlias ++ ".id"))) .nil
  have whole := (root.append tie).intercalate " "
  rwa [List.nil_append, List.append_nil, List.append_nil] at whole

theorem fills_rowConditions (h : FillsAll ts slots texts) :
    Fills (Template.rowConditions ts) slots (rowConditions texts) := by
  have shown := h.visible
  unfold Template.rowConditions rowConditions
  generalize ts.filter (fun t => !t.isEmpty) = us at shown ⊢
  generalize texts.filter (· ≠ "") = parts at shown ⊢
  clear h
  induction shown with
  | nil => exact .nil
  | cons first _ ih =>
    rw [List.flatMap_cons, List.map_cons, String.join_cons]
    exact (first.between " AND (" ")").append ih

end

end RelationFilter.Sql
