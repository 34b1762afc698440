import RelationFilter.Proofs.Path.Entry
import RelationFilter.Proofs.Path.Loading

namespace RelationFilter

namespace BackReference

def via : List Char := ['_', 'v', 'i', 'a', '_']

structure IsCut (whole left right : List Char) : Prop where
  shape : left ++ via ++ right = whole
  left : left ≠ []
  right : right ≠ []

theorem isCut_of_splitVia? {after cs left right : List Char} (cut : splitVia? after cs = some (left, right)) :
    IsCut (cs.reverse ++ after) left right := by
  induction cs generalizing after with
  | nil => cases cut
  | cons c back ih =>
    unfold splitVia? at cut
    split at cut
    · rename_i b before a after' found
      cases cut
      rw [List.isPrefixOf?_eq_some_iff_append_eq] at found
      rw [← found]
      exact ⟨by simp [via], by simp, by simp⟩
    · rw [List.reverse_cons, List.append_assoc, List.singleton_append]
      exact ih cut

/-- Every other cut leaves no less on the right, of those that leave all that has been passed. -/
theorem splitVia?_le {after cs left right : List Char} (cut : IsCut (cs.reverse ++ after) left right)
    (passed : after.length ≤ right.length) :
    ∃ left' right', splitVia? after cs = some (left', right') ∧ right'.length ≤ right.length := by
  induction cs generalizing after with
  | nil =>
    have lengths := congrArg List.length cut.shape
    simp [via] at lengths
    omega
  | cons c back ih =>
    unfold splitVia?
    split
    · exact ⟨_, _, rfl, passed⟩
    · rename_i after _ _ elsewhere
      have shorter : after.length ≠ right.length := by
        -- Otherwise this is the cut, and the text is cut here.
        intro same
        obtain ⟨front, back'⟩ := List.append_inj' cut.shape same.symm
        obtain ⟨b, before, shape⟩ := List.exists_cons_of_ne_nil (List.reverse_ne_nil_iff.mpr cut.left)
        obtain ⟨a, after', there⟩ := List.exists_cons_of_ne_nil cut.right
        refine elsewhere b before a after' ?_ (back'.symm.trans there)
        rw [List.isPrefixOf?_eq_some_iff_append_eq, ← shape, ← List.reverse_inj]
        simp [← front, via]
      refine ih ?_ (by rw [List.length_cons]; omega)
      rwa [List.reverse_cons, List.append_assoc, List.singleton_append] at cut

theorem IsCut.eq_of_length {whole left right left' right' : List Char} (cut : IsCut whole left right)
    (cut' : IsCut whole left' right') (same : right.length = right'.length) : left = left' ∧ right = right' := by
  obtain ⟨front, back⟩ := List.append_inj' (cut.shape.trans cut'.shape.symm) same
  exact ⟨List.append_cancel_right front, back⟩

/-- A segment of word characters is cut where no other cut leaves less on the right. -/
theorem parse?_eq_some_iff {segment collection field : String} :
    parse? segment = some ⟨collection, field⟩ ↔
      segment.toList.all Text.isWord = true ∧ IsCut segment.toList collection.toList field.toList ∧
        ∀ left right, IsCut segment.toList left right → field.toList.length ≤ right.length := by
  have whole : segment.toList.reverse.reverse ++ [] = segment.toList := by rw [List.reverse_reverse, List.append_nil]
  have found {left right : List Char} (cut : IsCut segment.toList left right) := by
    rw [← whole] at cut
    exact splitVia?_le cut (Nat.zero_le _)
  unfold parse?
  split
  · rename_i word
    rw [Option.map_eq_some_iff]
    constructor
    · rintro ⟨⟨left, right⟩, split, same⟩
      cases same
      rw [String.toList_ofList, String.toList_ofList]
      have cut := isCut_of_splitVia? split
      rw [whole] at cut
      refine ⟨word, cut, fun left' right' cut' => ?_⟩
      obtain ⟨left'', right'', split', le⟩ := found cut'
      cases split.symm.trans split'
      exact le
    · rintro ⟨-, cut, least⟩
      obtain ⟨left, right, split, le⟩ := found cut
      have cut' := isCut_of_splitVia? split
      rw [whole] at cut'
      obtain ⟨rfl, rfl⟩ := cut'.eq_of_length cut (Nat.le_antisymm le (least left right cut'))
      exact ⟨_, split, by rw [String.ofList_toList, String.ofList_toList]⟩
  · rename_i other
    simp [other]

def backName (collection field : String) : String := collection ++ "_via_" ++ field

/-- After an underscore the name of the field holds no `_via_` but at its end. -/
def StaysWhole (field : String) : Prop := ∀ before after, '_' :: field.toList = before ++ via ++ after → after = []

theorem toList_backName (collection field : String) :
    (backName collection field).toList = collection.toList ++ via ++ field.toList := by
  rw [backName, String.toList_append, String.toList_append]
  rfl

/-- The `_via_` of a cut may share its first underscore with the one that stands before the field. -/
theorem via_suffix {left collection mid : List Char} (more : mid ≠ []) (same : left ++ via = collection ++ via ++ mid) :
    via <:+ '_' :: mid := by
  have ends : via <:+ collection ++ via ++ mid := ⟨left, same⟩
  have ends' : '_' :: mid <:+ collection ++ via ++ mid := ⟨collection ++ ['_', 'v', 'i', 'a'], by simp [via]⟩
  rcases Nat.le_total via.length ('_' :: mid).length with le | le
  · exact List.suffix_of_suffix_length_le ends ends' le
  · have within := List.suffix_of_suffix_length_le ends' ends le
    simp [via, List.suffix_cons_iff, more] at within
    rw [within]
    exact List.suffix_rfl

theorem isCut_backName {collection field : String} (named : RecordPath.isName collection.toList)
    (named' : RecordPath.isName field.toList) :
    (backName collection field).toList.all Text.isWord = true ∧
      IsCut (backName collection field).toList collection.toList field.toList := by
  simp only [RecordPath.isName, Bool.and_eq_true, Bool.not_eq_true', List.isEmpty_eq_false_iff] at named named'
  refine ⟨?_, (toList_backName collection field).symm, named.2, named'.2⟩
  rw [toList_backName, List.all_append, List.all_append, named.1, named'.1]
  decide

theorem parse?_backName_iff {collection field : String} (named : RecordPath.isName collection.toList)
    (named' : RecordPath.isName field.toList) :
    parse? (backName collection field) = some ⟨collection, field⟩ ↔ StaysWhole field := by
  obtain ⟨word, cut⟩ := isCut_backName named named'
  rw [parse?_eq_some_iff]
  constructor
  · rintro ⟨-, -, least⟩ before after shape
    by_contra more
    have later : IsCut (backName collection field).toList (collection.toList ++ ['_', 'v', 'i', 'a'] ++ before) after := by
      refine ⟨?_, by simp, more⟩
      rw [toList_backName, List.append_assoc, List.append_assoc, ← List.append_assoc before, ← shape]
      simp [via]
    have lengths := congrArg List.length shape
    have le := least _ _ later
    simp [via] at lengths
    omega
  · intro whole
    refine ⟨word, cut, fun left right cut' => ?_⟩
    by_contra later
    have ends : right <:+ (backName collection field).toList := ⟨_, cut'.shape⟩
    have ends' : field.toList <:+ (backName collection field).toList := ⟨_, cut.shape⟩
    obtain ⟨mid, parts⟩ := List.suffix_of_suffix_length_le ends ends' (by omega)
    have more : mid ≠ [] := by
      rintro rfl
      rw [← parts] at later
      exact later (Nat.le_refl _)
    have same : left ++ via = collection.toList ++ via ++ mid := by
      have shape := cut'.shape.trans cut.shape.symm
      rw [← parts, ← List.append_assoc] at shape
      exact List.append_cancel_right shape
    obtain ⟨before, within⟩ := via_suffix more same
    exact cut'.right (whole before right (by rw [within, ← parts, List.cons_append]))

end BackReference

open BackReference

/-- No other collection has the name for its id. -/
def Catalog.OwnsName (cat : Catalog) (c : Collection) : Prop := ∀ c' ∈ cat.collections, c'.id = c.name → c' = c

theorem Catalog.Keyed.load_name_iff {cat : Catalog} (keyed : cat.Keyed) {c : Collection} (member : c ∈ cat.collections) :
    (∀ loaded, loaded ⊆ cat.collections → (loadCollection cat loaded c.name).1 = some c) ↔ cat.OwnsName c := by
  constructor
  · intro loads c' member' id
    have first := loads [] (List.nil_subset _)
    have second := keyed.get?_id member'
    rw [id] at second
    simp only [loadCollection, List.find?_nil, second] at first
    exact Option.some.inj first
  · intro own loaded within
    rcases load : loadCollection cat loaded c.name with ⟨_ | c', loaded'⟩
    · have unnamed := (Option.or_eq_none_iff.mp (RecordScope.get?_of_loadCollection load)).2
      have named : Text.sameIgnoringCase c.name c.name = true := Text.sameIgnoringCase_iff.mpr rfl
      simpa [named] using List.find?_eq_none.mp unnamed c member
    · have member' := Catalog.mem_of_loadCollection within load
      have called := Catalog.isCalled_of_loadCollection load
      rw [Collection.isCalled, Bool.or_eq_true, decide_eq_true_eq] at called
      rcases called with id | named
      · rw [own c' member' id]
      · rw [keyed.eq member' member (.inr named)]

/-- The field of another collection is for the records of a collection. Its name and that of the other collection are
words. -/
structure Refers (cat : Catalog) (c other : Collection) (f : Field) (o : RelationOptions) : Prop where
  member : other ∈ cat.collections
  field : other.field? f.name = some f
  options : f.relation? = some o
  named : o.collectionId ≠ ""
  target : o.collectionId = c.id
  otherName : RecordPath.isName other.name.toList
  fieldName : RecordPath.isName f.name.toList

def Hop.back (other : Collection) (f : Field) (o : RelationOptions) : Hop :=
  .referrers (identifier (backName other.name f.name)) (identifier f.name) (identifier other.name)
    (o.isMultiple || !other.isUniqueColumn f.name)

section

variable {cat : Catalog} {c other : Collection} {f : Field} {o : RelationOptions} (refers : Refers cat c other f o)
  (free : c.field? (backName other.name f.name) = none)
include refers free

theorem names_of_leadsBy {loaded loaded' : List Collection}
    (link : LeadsBy cat loaded c (backName other.name f.name) (Hop.back other f o) other loaded') :
    parse? (backName other.name f.name) = some ⟨other.name, f.name⟩ ∧
      loadCollection cat loaded other.name = (some other, loaded') := by
  generalize made : Hop.back other f o = h at link
  cases link with
  | relation field => cases free.symm.trans field
  | @referrer _ _ back f' o' _ parsed there field =>
    rw [Hop.back, Hop.referrers.injEq] at made
    obtain ⟨collection, name⟩ := back
    obtain ⟨word, cut, -⟩ := parse?_eq_some_iff.mp parsed
    rw [← cut.shape, List.all_append, Bool.and_eq_true] at word
    -- The hop tells only the columns of the two fields. Both names are words, and a word is its own column.
    have same : f.name = name := by
      have names := made.2.1
      rwa [identifier_of_word (Bool.and_eq_true_iff.mp refers.fieldName).1, Collection.name_of_field? field,
        identifier_of_word word.2] at names
    subst same
    obtain ⟨front, -⟩ := cut.eq_of_length (isCut_backName refers.otherName refers.fieldName).2 rfl
    obtain rfl : collection = other.name := String.toList_inj.mp front
    exact ⟨parsed, there⟩

theorem leadsBy_backName_iff (keyed : cat.Keyed) :
    (∀ loaded, loaded ⊆ cat.collections →
        ∃ loaded', LeadsBy cat loaded c (backName other.name f.name) (Hop.back other f o) other loaded') ↔
      StaysWhole f.name ∧ cat.OwnsName other := by
  have parses := parse?_backName_iff refers.otherName refers.fieldName
  have loads := keyed.load_name_iff refers.member
  constructor
  · intro links
    obtain ⟨_, first⟩ := links [] (List.nil_subset _)
    refine ⟨parses.mp (names_of_leadsBy refers free first).1, loads.mp fun loaded own => ?_⟩
    obtain ⟨loaded', link⟩ := links loaded own
    rw [(names_of_leadsBy refers free link).2]
  · rintro ⟨whole, own⟩ loaded within
    have answer := loads.mpr own loaded within
    have load : loadCollection cat loaded other.name = (some other, (loadCollection cat loaded other.name).2) :=
      Prod.ext answer rfl
    exact ⟨_, .referrer free (parses.mpr whole) load refers.field refers.options refers.named refers.target⟩

end

namespace RecordScope

variable {s : RecordScope} {cat : Catalog}

theorem knows_loadedAlong {loaded : List Collection} {c c' : Collection} {segments : List String} {hops : List Hop}
    (cached : ∀ other ∈ loaded, s.Knows other) (along : LeadsAlong s.catalog loaded c segments hops c') :
    ∀ other ∈ loadedAlong s.catalog loaded c segments, s.Knows other := by
  generalize known : s.catalog = cat at along
  induction along with
  | here => exact cached
  | step link tail ih =>
    subst known
    rw [loadedAlong_cons link]
    exact ih (knows_of_leadsBy cached link).2

structure Owned (cat : Catalog) (s : RecordScope) : Prop where
  catalog : s.catalog = cat
  known : ∀ c, s.Knows c → c ∈ cat.collections

/-- Where more was loaded, no other collections are known. -/
theorem Owned.of_loaded {t : RecordScope} (owned : s.Owned cat) (catalog : t.catalog = s.catalog) (base : t.base = s.base)
    (request : t.request = s.request) (loaded : ∀ c ∈ t.loaded, s.Knows c) : t.Owned cat := by
  refine ⟨catalog.trans owned.catalog, fun c known => owned.known c ?_⟩
  cases known with
  | loaded member => exact loaded c member
  | stored member => exact .stored (catalog ▸ member)
  | base same => exact .base (same.trans base)
  | auth given authenticated same => exact .auth (request ▸ given) authenticated same

theorem Reached.owned (reached : Reached cat s) : s.Owned cat := by
  induction reached with
  | new settings own auth =>
    refine ⟨rfl, fun c known => ?_⟩
    cases known with
    | loaded member => exact List.mem_singleton.mp member ▸ own
    | stored member => exact member
    | base same => exact same ▸ own
    | auth given authenticated same => exact same ▸ auth _ _ given authenticated
  | resolve path _ ih => exact ih.of_loaded rfl rfl rfl (comes_visit path).knows
  | resolveStatic segments _ ih => exact ih.of_loaded rfl rfl rfl ((course_static segments).comes []).knows
  | load nameOrId _ ih => exact ih.of_loaded rfl rfl rfl (knows_of_loadCollection (fun _ => .loaded) rfl).2
  | remember own _ ih => exact ih.of_loaded rfl rfl rfl (knows_rememberCollection (.stored (ih.catalog ▸ own)))
  | registerJoin j _ ih => exact ih.of_loaded rfl rfl rfl fun _ member => .loaded member
  | placeholder start _ ih => exact ih.of_loaded rfl rfl rfl fun _ member => .loaded member

variable {path : String} {loaded : List Collection} {lenient showHidden : Bool} {root : Root} {c₀ c other : Collection}
  {before rest : List String} {hops : List Hop} {f : Field} {o : RelationOptions}

theorem visit_of_backName (built : s.catalog.Built) (reached : Reached s.catalog s) (allowed : RecordPath.isAllowed path)
    (refers : Refers s.catalog c other f o) (free : c.field? (backName other.name f.name) = none)
    (enters : s.Enters (Text.split '.' path) loaded lenient showHidden root c₀
      (before ++ backName other.name f.name :: rest))
    (along : LeadsAlong s.catalog loaded c₀ before hops c) (within : before.length < s.settings.maxNestedRelations)
    (more : rest ≠ []) :
    ((∀ loaded, loaded ⊆ s.catalog.collections → ∃ loaded',
          LeadsBy s.catalog loaded c (backName other.name f.name) (Hop.back other f o) other loaded') ↔
        StaysWhole f.name ∧ s.catalog.OwnsName other) ∧
      (StaysWhole f.name → s.catalog.OwnsName other →
        s.visit path = s.arrive root (.afterAll (hops ++ [Hop.back other f o])
          (Walk.ofSegments (s.rules lenient showHidden) (before.length + 1) other
            (loadedAlong s.catalog loaded c₀ (before ++ [backName other.name f.name])) rest))) := by
  have links := leadsBy_backName_iff refers free built.keyed
  refine ⟨links, fun whole own => ?_⟩
  have known : loadedAlong s.catalog loaded c₀ before ⊆ s.catalog.collections := fun c' member =>
    reached.owned.known c' (knows_loadedAlong enters.knows.2 along c' member)
  obtain ⟨loaded', link⟩ := links.mpr ⟨whole, own⟩ _ known
  have longer := along.concat link
  have shape : before ++ backName other.name f.name :: rest = (before ++ [backName other.name f.name]) ++ rest := by simp
  rw [shape] at enters
  have limit : (before ++ [backName other.name f.name]).length ≤ s.settings.maxNestedRelations := by
    rw [List.length_append, List.length_singleton]
    exact within
  rw [visit_of_leadsAlong allowed enters longer more limit, List.length_append, List.length_singleton]

theorem visit_of_backName_comments :
    let c := Blog.comments ""
    let s := Blog.commentScope ""
    let o : RelationOptions := { collectionId := "p", maxSelect := some 1 }
    let f : Field := { name := "post", kind := .relation o }
    StaysWhole f.name ∧ s.catalog.OwnsName c ∧
      s.visit "comments_via_post.id" = s.arrive (.base s.table) (.afterAll [Hop.back c f o]
        (Walk.ofSegments (s.rules false false) 1 c (loadedAlong s.catalog s.loaded s.base ["comments_via_post"]) ["id"])) := by
  intro c s o f
  have built : s.catalog.Built := (Catalog.Built.empty.save Blog.posts).save (Blog.comments "")
  have whole : StaysWhole f.name := by
    intro before after shape
    have lengths := congrArg List.length shape
    have five : ('_' :: f.name.toList).length = 5 := by decide
    rw [five, List.length_append, List.length_append, show via.length = 5 from rfl] at lengths
    exact List.length_eq_zero_iff.mp (by omega)
  have own : s.catalog.OwnsName c := by
    have each : ∀ c' ∈ [Blog.posts, c], c'.id = c.name → c' = c := by decide
    exact each
  have refers : Refers s.catalog s.base c f o := ⟨by decide, rfl, rfl, by decide, rfl, by decide, by decide⟩
  have enters : s.Enters (Text.split '.' "comments_via_post.id") s.loaded false false (.base s.table) s.base
      ([] ++ backName c.name f.name :: ["id"]) := by
    have split : Text.split '.' "comments_via_post.id" = [] ++ backName c.name f.name :: ["id"] := by decide
    rw [split]
    exact .base (by simp [backName, c, f, Blog.comments]) (by simp [backName, c, f, Blog.comments])
  have allowed : RecordPath.isAllowed "comments_via_post.id" := by decide +kernel
  obtain ⟨-, visited⟩ := visit_of_backName built (.new {} (by decide) nofun) allowed refers (by decide) enters (.here ..)
    (by decide) (List.cons_ne_nil _ _)
  exact ⟨whole, own, visited whole own⟩

/-- The segment for the notes is cut too late, and that for the authors leads to the staff. -/
theorem not_visit_of_backName :
    let s := Blog.noteScope
    let o : RelationOptions := { collectionId := "p", maxSelect := some 1 }
    let path := "notes_via_for_via_post.id"
    let path' := "authors_via_post.id"
    s.catalog.Built ∧ Reached s.catalog s ∧
      Refers s.catalog s.base Blog.notes { name := "for_via_post", kind := .relation o } o ∧
      Refers s.catalog s.base Blog.authors { name := "post", kind := .relation o } o ∧
      Text.split '.' path = [backName "notes" "for_via_post", "id"] ∧ Text.split '.' path' = [backName "authors" "post", "id"] ∧
      s.base.field? (backName "notes" "for_via_post") = none ∧ s.base.field? (backName "authors" "post") = none ∧
      (resolve path s).1 = .error ⟨path, .unknownCollection "notes_via_for"⟩ ∧
      (resolve path' s).1 = .error ⟨path', .unknownField "post"⟩ := by
  have later : (resolve "notes_via_for_via_post.id" Blog.noteScope).1 =
    .error ⟨"notes_via_for_via_post.id", .unknownCollection "notes_via_for"⟩ := by rfl
  have other : (resolve "authors_via_post.id" Blog.noteScope).1 = .error ⟨"authors_via_post.id", .unknownField "post"⟩ := by rfl
  intro s o path path'
  have built : s.catalog.Built :=
    (((Catalog.Built.empty.save Blog.posts).save Blog.notes).save Blog.authors).save Blog.staff
  refine ⟨built, .new {} (by decide) nofun, ⟨by decide, rfl, rfl, by decide, rfl, by decide, by decide⟩,
    ⟨by decide, rfl, rfl, by decide, rfl, by decide, by decide⟩, by decide, by decide, by decide, by decide, later, other⟩

end RecordScope

end RelationFilter
