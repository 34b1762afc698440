import RelationFilter.Proofs.Path.Email
import RelationFilter.Proofs.Path.Renumber

namespace RelationFilter

theorem Route.bindings_operand_of_unbound (d : Dialect) (table : String) {r : Route}
    (unbound : r.root.bindings .primary = Bindings.empty) (a : Arrival) :
    (r.operand d table a).bindings = Bindings.empty := by
  cases a with
  | null => rfl
  | _ => exact unbound

theorem Route.text_operand (d : Dialect) (table : String) (r : Route) (a : Arrival) :
    (r.operand d table a).text = a.text d (r.aliasOn .primary) := by
  cases a <;> rfl

theorem Route.chain_operand {d : Dialect} {table : String} {r : Route} {a : Arrival} {m : Chain}
    (chained : (r.operand d table a).chain = some m) : m = r.chain d table a := by
  have multiple (m' : Chain) (there : (if r.isMultiple then some m' else none) = some m) : m = m' := by
    split at there
    · exact (Option.some.inj there).symm
    · cases there
  cases a with
  | null => cases chained
  | _ => exact multiple _ chained

namespace RecordScope

variable {s : RecordScope}

inductive AsksEach (s : RecordScope) : (path : List String) → Field → (items : List String) → Prop where
  | intro {r : Request} {head name : String} {f : Field} (given : s.request = some r)
    (asked : splitModifier head = .ok (name, some .each)) (field : s.base.field? name = some f)
    (arrayable : f.isArrayable) : AsksEach s ["@request", "data", head] f (submittedItems r f)

inductive Reads (s : RecordScope) : (path : List String) → Operand → Prop where
  | literal (text : String) (path : List String)
    (known : text ∈ ["NULL", "TRUE", "FALSE"] ∨ ∃ n : Nat, text = toString n) :
    Reads s ("@request" :: path) { text := text }
  | value (path : List String) (v : Json) : Reads s ("@request" :: path) (.bound (numbered "t" s.counter) v)
  | items {path : List String} {f : Field} {items : List String} {multiple : Bool} (asks : s.AsksEach path f items)
    (several : f.isMultiple? = some multiple) :
    Reads s path ((itemsRoute (identifier f.name) (Json.ofStrings items).text multiple s.counter).operand
      s.settings.dialect s.table .element)
  | walked {path segments : List String} {root : Root} {c : Collection} {loaded : List Collection}
    {lenient showHidden : Bool} {a : Arrival} (enters : s.Enters path loaded lenient showHidden root c segments)
    (arrived : (Walk.ofSegments (s.rules lenient showHidden) 0 c loaded segments).outcome = .ok a) :
    Reads s path ((Route.mk root (Walk.ofSegments (s.rules lenient showHidden) 0 c loaded segments).hops).operand
      s.settings.dialect s.table a)

theorem reads_null {loaded : List Collection} {path : List String} {o : Operand}
    (reached : (s.stay loaded (.ok .null)).outcome = .ok o) : s.Reads ("@request" :: path) o := by
  cases reached
  exact .literal "NULL" path (.inl (by decide))

theorem StaticCourse.reads {members path : List String} {v : Visit} (course : s.StaticCourse members v) {o : Operand}
    (reached : v.outcome = .ok o) : s.Reads ("@request" :: path) o := by
  cases course with
  | empty | misspelled => cases reached
  | presence =>
    cases reached
    exact .literal _ _ (.inl (by split <;> decide))
  | null => exact reads_null reached
  | value =>
    cases reached
    exact .value _ _

theorem Course.reads {path : List String} {v : Visit} (course : s.Course path v) {o : Operand}
    (reached : v.outcome = .ok o) : s.Reads path o := by
  cases course with
  | walked enters =>
    obtain ⟨a, arrived, rfl⟩ := exists_arrival reached
    exact .walked enters arrived
  | static given reads course => exact course.reads reached
  | items given split field several =>
    cases reached
    exact .items (.intro given split field (by rw [Field.isArrayable, several, Option.isSome_some])) several
  | count =>
    cases reached
    exact .literal _ _ (.inr ⟨_, rfl⟩)
  | unrequested | unauthenticated | unsubmitted => exact reads_null reached
  | short | uncollected | misspelled | targetless | untargeted => cases reached

theorem reads_of_visit {path : String} {o : Operand} (reached : (s.visit path).outcome = .ok o) :
    s.Reads (Text.split '.' path) o := by
  rcases s.course_visit path with refused | ⟨-, course⟩
  · rw [refused] at reached
    cases reached
  · exact course.reads reached

end RecordScope
end RelationFilter
