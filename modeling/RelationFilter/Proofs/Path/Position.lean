import Mathlib.Data.Nat.PSub
import RelationFilter.Proofs.Path.Fault

namespace RelationFilter

def slice? {α : Type} (n : Nat) (xs : List α) : Option (List α) := if n ≤ xs.length then some (xs.drop n) else none

theorem slice?_eq_some {α : Type} {n : Nat} {xs : List α} (h : n ≤ xs.length) : slice? n xs = some (xs.drop n) :=
  if_pos h

namespace Walk

def ofPosition? (rules : WalkRules) (props : List String) (i : Nat) (c : Collection) (loaded : List Collection) :
    Option Walk :=
  if h : i < props.length then do
    let last ← props.length.ppred
    if i = last then some (ofLast rules c loaded props[i])
    else
      match (c.field? props[i]).filter Field.isJson with
      | some f => (slice? (i + 1) props).map fun rest =>
        ⟨[], loaded, .ok (.json (identifier f.name) (JsonPath.ofSegments rest))⟩
      | none =>
        if rules.maxNested ≤ i then some ⟨[], loaded, .error (.maxNestedRelations props[i])⟩
        else
          match Step.ofSegment rules.catalog loaded c props[i] with
          | (.hop h reached, loaded) => (ofPosition? rules props (i + 1) reached loaded).map (after h)
          | (.absent cause, loaded) => some ⟨[], loaded, missing rules cause⟩
          | (.failure cause, loaded) => some ⟨[], loaded, .error cause⟩
  else some ⟨[], loaded, .error .emptyPath⟩
termination_by props.length - i

theorem exists_of_drop {props : List String} {i : Nat} {segment : String} {rest : List String}
    (shape : props.drop i = segment :: rest) :
    ∃ h : i < props.length, props[i] = segment ∧ props.drop (i + 1) = rest ∧ props.length.ppred = some (i + rest.length) := by
  have long := congrArg List.length shape
  rw [List.length_drop, List.length_cons] at long
  have h : i < props.length := by omega
  rw [List.drop_eq_getElem_cons h] at shape
  obtain ⟨first, later⟩ := List.cons.inj shape
  refine ⟨h, first, later, ?_⟩
  rw [show props.length = i + rest.length + 1 by omega]
  rfl

/-- From every position the walk is the one along the segments that are left. -/
theorem ofPosition?_of_drop {rules : WalkRules} {props : List String} {i : Nat} {c : Collection}
    {loaded : List Collection} {segments : List String} (left : props.drop i = segments) :
    ofPosition? rules props i c loaded = some (ofSegments rules i c loaded segments) := by
  fun_induction ofSegments rules i c loaded segments with
  | case1 i c loaded =>
    have beyond : ¬ i < props.length := Nat.not_lt.mpr (List.drop_eq_nil_iff.mp left)
    rw [ofPosition?, dif_neg beyond]
  | case2 i c loaded last =>
    obtain ⟨h, first, -, ends⟩ := exists_of_drop left
    rw [ofPosition?, dif_pos h, ends, first]
    exact if_pos rfl
  | case3 i c loaded segment next rest f json =>
    obtain ⟨h, first, later, ends⟩ := exists_of_drop left
    have inRange : i + 1 ≤ props.length := h
    rw [ofPosition?, dif_pos h, ends, first]
    simp [json, slice?_eq_some inRange, later]
  | case4 i c loaded segment next rest plain beyond =>
    obtain ⟨h, first, -, ends⟩ := exists_of_drop left
    rw [ofPosition?, dif_pos h, ends, first]
    simp [plain, beyond]
  | case5 i c loaded segment next rest plain within hop reached loaded' step ih =>
    obtain ⟨h, first, later, ends⟩ := exists_of_drop left
    rw [ofPosition?, dif_pos h, ends, first]
    simp [plain, within, step, ih later]
  | case6 i c loaded segment next rest plain within cause loaded' step =>
    obtain ⟨h, first, -, ends⟩ := exists_of_drop left
    rw [ofPosition?, dif_pos h, ends, first]
    simp [plain, within, step]
  | case7 i c loaded segment next rest plain within cause loaded' step =>
    obtain ⟨h, first, -, ends⟩ := exists_of_drop left
    rw [ofPosition?, dif_pos h, ends, first]
    simp [plain, within, step]

theorem ofPosition?_eq (rules : WalkRules) (props : List String) (c : Collection) (loaded : List Collection) :
    ofPosition? rules props 0 c loaded = some (ofSegments rules 0 c loaded props) :=
  ofPosition?_of_drop rfl

end Walk

namespace RecordPath

/-- A path begins with a member of the request and a dot just if some segment follows the two that say so. -/
theorem prefix_iff_of_member (path member : String) {start : String} (whole : '.' ∉ member.toList)
    (shape : start.toList = "@request".toList ++ '.' :: (member.toList ++ ['.'])) :
    start.toList <+: path.toList ↔ ∃ next more, Text.split '.' path = "@request" :: member :: next :: more := by
  constructor
  · rintro ⟨rest, chars⟩
    have first : path.toList = "@request".toList ++ '.' :: (member.toList ++ '.' :: rest) := by simp [← chars, shape]
    have second := Text.split_of_prefix (s := String.ofList (member.toList ++ '.' :: rest)) rest String.toList_ofList whole
    rw [Text.split, String.toList_ofList] at second
    obtain ⟨part, parts, last⟩ := List.exists_cons_of_ne_nil (List.splitOn_ne_nil '.' rest)
    refine ⟨String.ofList part, parts.map String.ofList, ?_⟩
    rw [Text.split_of_prefix _ first (by decide), second, last, List.map_cons]
  · rintro ⟨next, more, split⟩
    have joined := Text.intercalate_split '.' path
    rw [split, List.map_cons, List.map_cons, List.map_cons, List.intercalate_cons_cons, List.intercalate_cons_cons] at joined
    refine ⟨['.'].intercalate (next.toList :: more.map String.toList), ?_⟩
    rw [← joined, shape]
    simp only [List.append_assoc, List.cons_append, List.nil_append]

end RecordPath

namespace RecordScope

variable (s : RecordScope)

def followFrom? (loaded : List Collection) (lenient showHidden : Bool) (root : Root) (c : Collection) (n : Nat)
    (segments : List String) : Option Visit := do
  let props ← slice? n segments
  let w ← Walk.ofPosition? (s.rules lenient showHidden) props 0 c loaded
  let route : Route := ⟨root, w.hops⟩
  some
    { outcome := w.outcome.map (route.operand s.settings.dialect s.table)
      route := some route
      loaded := w.loaded
      counter := s.counter }

def staticFrom? (segments : List String) : Option Visit := (slice? 1 segments).map s.visitStatic

def collectionAt? (segments : List String) : Option Visit :=
  if segments.length < 3 then some (s.stay s.loaded (.error .invalidCollectionPath))
  else do
    let segment ← segments[1]?
    let (name, aliasName) := splitCollection segment
    match loadCollection s.catalog s.loaded name with
    | (none, loaded) => some (s.stay loaded (.error (.unknownCollection name)))
    | (some c, loaded) =>
      let root := Root.collection (identifier c.name) (collectionAlias c.name aliasName)
      s.followFrom? loaded false true root c 2 segments

def submittedRecordsAt? (r : Request) (f : Field) (o : RelationOptions) (segments : List String) : Option Visit :=
  match Step.target? f o with
  | .error cause => some (s.stay s.loaded (.error cause))
  | .ok id =>
    match loadCollection s.catalog s.loaded id with
    | (none, loaded) => some (s.stay loaded (.error (.unknownCollection id)))
    | (some c, loaded) =>
      let ids := submittedItems r f
      if ids.isEmpty then some (s.stay loaded (.ok .null))
      else s.followFrom? loaded true true (.submitted c.name f.name ids o.isMultiple) c 3 segments

def submittedFieldAt? (r : Request) (f : Field) (modifier : Option Modifier) (segments : List String) : Option Visit :=
  if segments.length = 3 then
    match modifier, f.isMultiple? with
    | some .each, some multiple => some (s.visitSubmittedItems r f multiple)
    | some .length, some _ => some (s.stay s.loaded (.ok { text := toString (submittedItems r f).length }))
    | _, _ => s.staticFrom? segments
  else s.staticFrom? segments

def dataAt? (r : Request) (segments : List String) : Option Visit := do
  let head ← segments[2]?
  match splitModifier head with
  | .error cause => some (s.stay s.loaded (.error cause))
  | .ok (name, modifier) =>
    match s.base.field? name with
    | none => s.staticFrom? segments
    | some f =>
      match f.relation? with
      | some o =>
        if 3 < segments.length then s.submittedRecordsAt? r f o segments else s.submittedFieldAt? r f modifier segments
      | none => s.submittedFieldAt? r f modifier segments

def plainAuthPaths : List String :=
  ["@request.auth.id", "@request.auth.collectionId", "@request.auth.collectionName", "@request.auth.username",
    "@request.auth.email", "@request.auth.emailVisibility", "@request.auth.verified", "@request.auth.created",
    "@request.auth.updated"]

def authAt? (r : Request) (path : String) (segments : List String) : Option Visit :=
  if plainAuthPaths.contains path then s.staticFrom? segments
  else
    match r.auth with
    | none => some (s.stay s.loaded (.ok .null))
    | some a =>
      let root := Root.auth (identifier a.collection.name) a.id
      s.followFrom? (rememberCollection s.loaded a.collection) true true root a.collection 2 segments

def requestAt? (path : String) (segments : List String) : Option Visit :=
  match s.request with
  | none => some (s.stay s.loaded (.ok .null))
  | some r =>
    if "@request.auth.".toList <+: path.toList then s.authAt? r path segments
    else if "@request.data.".toList <+: path.toList ∧ 2 < segments.length then s.dataAt? r segments
    else s.staticFrom? segments

/-- The visit of a path of which the segments are read by their positions, unless one is out of range. -/
def visitAt? (path : String) : Option Visit :=
  if RecordPath.isAllowed path then
    let segments := Text.split '.' path
    if segments.head? = some "@collection" then s.collectionAt? segments
    else if segments.head? = some "@request" then s.requestAt? path segments
    else s.followFrom? s.loaded false false (.base s.table) s.base 0 segments
  else some (s.stay s.loaded (.error .disallowedField))

variable {s}

theorem followFrom?_eq {segments walked : List String} {n : Nat} (loaded : List Collection) (lenient showHidden : Bool)
    (root : Root) (c : Collection) (inRange : n ≤ segments.length) (left : segments.drop n = walked) :
    s.followFrom? loaded lenient showHidden root c n segments = some (s.follow loaded lenient showHidden root c walked) := by
  simp only [followFrom?, slice?_eq_some inRange, left, Walk.ofPosition?_eq, Option.bind_eq_bind, Option.bind_some]
  rfl

theorem staticFrom?_cons (first : String) (members : List String) :
    s.staticFrom? (first :: members) = some (s.visitStatic members) := by
  rw [staticFrom?, slice?_eq_some (by simp)]
  rfl

theorem collectionAt?_cons (first segment next : String) (more : List String) :
    s.collectionAt? (first :: segment :: next :: more) = some (s.visitCollection (segment :: next :: more)) := by
  have long : 3 ≤ (first :: segment :: next :: more).length := by simp
  rw [collectionAt?, if_neg (Nat.not_lt.mpr long), visitCollection]
  dsimp only [List.getElem?_cons_succ, List.getElem?_cons_zero, Option.bind_eq_bind, Option.bind_some]
  rcases loadCollection s.catalog s.loaded (splitCollection segment).1 with ⟨_ | c, loaded⟩
  · rfl
  · exact followFrom?_eq _ _ _ _ _ (Nat.le_of_succ_le long) rfl

theorem submittedRecordsAt?_eq (r : Request) (f : Field) (o : RelationOptions) {segments rest : List String}
    (inRange : 3 ≤ segments.length) (left : segments.drop 3 = rest) :
    s.submittedRecordsAt? r f o segments = some (s.visitSubmittedRecords r f o rest) := by
  unfold submittedRecordsAt? visitSubmittedRecords
  cases Step.target? f o with
  | error cause => rfl
  | ok id =>
    dsimp only
    rcases loadCollection s.catalog s.loaded id with ⟨_ | c, loaded⟩
    · rfl
    · dsimp only
      rw [apply_ite some]
      congr 1
      exact followFrom?_eq _ _ _ _ _ inRange left

/-- A field of the submitted data, without segments after it. -/
theorem submittedFieldAt?_eq (r : Request) (f : Field) (modifier : Option Modifier) (first second third : String) :
    s.submittedFieldAt? r f modifier [first, second, third] =
      some (match modifier, f.isMultiple? with
        | some .each, some multiple => s.visitSubmittedItems r f multiple
        | some .length, some _ => s.stay s.loaded (.ok { text := toString (submittedItems r f).length })
        | _, _ => s.visitStatic [second, third]) := by
  have three : [first, second, third].length = 3 := rfl
  rw [submittedFieldAt?.eq_def, if_pos three, staticFrom?_cons]
  rcases modifier with _ | _ | _ | _ <;> rcases f.isMultiple? with _ | multiple <;> rfl

theorem dataAt?_cons (r : Request) (first : String) (head : String) (rest : List String) :
    s.dataAt? r (first :: "data" :: head :: rest) = some (s.visitData r head rest) := by
  unfold dataAt? visitData
  dsimp only [List.getElem?_cons_succ, List.getElem?_cons_zero, Option.bind_eq_bind, Option.bind_some]
  cases splitModifier head with
  | error cause => rfl
  | ok p =>
    dsimp only
    cases s.base.field? p.1 with
    | none => exact staticFrom?_cons _ _
    | some f =>
      dsimp only
      cases rest with
      | nil =>
        have field := s.submittedFieldAt?_eq r f p.2 first "data" head
        have short : ¬ 3 < [first, "data", head].length := Nat.lt_irrefl 3
        simp only [field, if_neg short]
        rcases f.relation? with _ | o <;> rcases p.2 with _ | _ | _ | _ <;> rcases f.isMultiple? with _ | _ <;> rfl
      | cons next rest =>
        have long : 3 < (first :: "data" :: head :: next :: rest).length := by simp
        cases f.relation? with
        | none => simp only [submittedFieldAt?, if_neg (Nat.ne_of_gt long), staticFrom?_cons]
        | some o =>
          simp only [if_pos long]
          exact submittedRecordsAt?_eq r f o (Nat.le_of_lt long) rfl

theorem plainAuthPaths_contains {path : String} {rest : List String}
    (shape : Text.split '.' path = "@request" :: "auth" :: rest) :
    plainAuthPaths.contains path = isPlainAuthField rest := by
  rw [Bool.eq_iff_iff]
  constructor
  · intro listed
    have fields : ∀ p ∈ plainAuthPaths, isPlainAuthField ((Text.split '.' p).drop 2) := by decide
    have field := fields path (List.contains_iff_mem.mp listed)
    rwa [shape] at field
  · intro plain
    unfold isPlainAuthField at plain
    split at plain
    · rename_i name
      have joined := Text.intercalate_split '.' path
      have whole : path = "@request.auth." ++ name := by
        rw [← String.toList_inj, ← joined, shape]
        simp [List.intercalate]
      simp only [List.contains_iff_mem, List.mem_cons, List.not_mem_nil, or_false] at plain
      rw [whole]
      rcases plain with rfl | rfl | rfl | rfl | rfl | rfl | rfl | rfl | rfl <;> decide
    · cases plain

theorem authAt?_eq (r : Request) {path : String} {rest : List String}
    (shape : Text.split '.' path = "@request" :: "auth" :: rest) :
    s.authAt? r path ("@request" :: "auth" :: rest) = some (s.visitAuth r rest) := by
  rw [authAt?, visitAuth, plainAuthPaths_contains shape]
  cases isPlainAuthField rest with
  | true => exact staticFrom?_cons _ _
  | false =>
    cases r.auth with
    | none => rfl
    | some a => exact followFrom?_eq _ _ _ _ _ (by simp) rfl

theorem requestAt?_eq {path : String} {members : List String} (shape : Text.split '.' path = "@request" :: members) :
    s.requestAt? path ("@request" :: members) = some (s.visitRequest members) := by
  have auth : "@request.auth.".toList <+: path.toList ↔ _ := RecordPath.prefix_iff_of_member path "auth" (by decide) rfl
  have data : "@request.data.".toList <+: path.toList ↔ _ := RecordPath.prefix_iff_of_member path "data" (by decide) rfl
  unfold requestAt? visitRequest
  cases s.request with
  | none => rfl
  | some r =>
    dsimp only
    split
    · rename_i inAuth
      obtain ⟨next, more, split⟩ := auth.mp inAuth
      obtain ⟨-, rfl⟩ := List.cons.inj (shape.symm.trans split)
      exact authAt?_eq r split
    · rename_i notAuth
      split
      · rename_i inData
        obtain ⟨head, rest, split⟩ := data.mp inData.1
        obtain ⟨-, rfl⟩ := List.cons.inj (shape.symm.trans split)
        exact dataAt?_cons r _ _ _
      · rename_i notData
        rw [staticFrom?_cons]
        split
        · exact absurd (auth.mpr ⟨_, _, shape⟩) notAuth
        · exact absurd ⟨data.mpr ⟨_, _, shape⟩, by simp⟩ notData
        · rfl

theorem visitAt?_eq (s : RecordScope) (path : String) : s.visitAt? path = some (s.visit path) := by
  unfold visitAt? visit
  by_cases allowed : RecordPath.isAllowed path
  · rw [if_pos allowed, if_pos allowed]
    dsimp only
    split
    · rename_i collection
      obtain ⟨rest, shape⟩ := List.head?_eq_some_iff.mp collection
      obtain ⟨segment, next, more, rfl⟩ := RecordPath.exists_of_collection allowed shape
      rw [shape]
      exact collectionAt?_cons _ _ _ _
    · rename_i notCollection
      split
      · rename_i request
        obtain ⟨members, shape⟩ := List.head?_eq_some_iff.mp request
        rw [shape]
        exact requestAt?_eq shape
      · rename_i notRequest
        unfold visitSegments
        split
        · rename_i shape
          exact absurd (List.head?_eq_some_iff.mpr ⟨_, shape⟩) notCollection
        · rename_i shape
          exact absurd (List.head?_eq_some_iff.mpr ⟨_, shape⟩) notRequest
        · exact followFrom?_eq _ _ _ _ _ (Nat.zero_le _) rfl
  · rw [if_neg allowed, if_neg allowed]

/-- A path is read without a step out of range, and it never turns out to be empty or too short for a collection. One that is
not allowed is refused, and nothing else happens. -/
theorem resolve_inRange (s : RecordScope) (path : String) :
    s.visitAt? path = some (s.visit path) ∧
      (∀ e, (resolve path s).1 = .error e → e.path = path ∧ e.cause ≠ .emptyPath ∧ e.cause ≠ .invalidCollectionPath) ∧
      (RecordPath.isAllowed path = false → resolve path s = (.error ⟨path, .disallowedField⟩, s)) := by
  have refused (other : RecordPath.isAllowed path = false) :
      resolve path s = (.error ⟨path, .disallowedField⟩, s) := by
    have visited : s.visit path = s.stay s.loaded (.error .disallowedField) := by
      rw [visit, if_neg (by rw [other]; decide)]
    rw [resolve, visited]
    rfl
  refine ⟨s.visitAt?_eq path, fun e failed => ?_, refused⟩
  cases allowed : RecordPath.isAllowed path with
  | false =>
    rw [refused allowed] at failed
    cases failed
    simp
  | true =>
    rcases outcome : (s.visit path).outcome with cause | o
    · rw [resolve_of_error outcome] at failed
      cases failed
      refine ⟨rfl, ?_⟩
      rcases fault_of_visit allowed outcome with fault | ⟨-, absent⟩
      · cases fault <;> simp
      · cases absent <;> simp
    · simp [resolve_of_ok outcome] at failed

end RecordScope
end RelationFilter
