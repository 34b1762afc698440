import RelationFilter.Proofs.Path.Visit
import RelationFilter.Proofs.Sql.Statement

namespace RelationFilter

def IsFree (P : String → Json → Prop) : Prop := ∀ name value, (∀ n, name ≠ numbered "f" n) → P name value

theorem ne_numbered {start rest : String} (other : start.toList.head?.any (· ≠ 'f')) (n : Nat) :
    start ++ rest ≠ numbered "f" n := by
  intro same
  have lists := congrArg String.toList same
  cases shape : start.toList with
  | nil => simp [shape] at other
  | cons c cs =>
    simp only [numbered, String.toList_append, shape, List.cons_append] at lists
    have first : c = 'f' := (List.cons.inj lists).1
    simp [shape, first] at other

section

variable {P : String → Json → Prop} (free : IsFree P)
include free

theorem IsFree.slots (n : Nat) (v : Json) : P (Bindings.slot n) v := free _ v (ne_numbered (by decide))

omit free

/-- The text of the operand writes its own placeholders, its chain is sound, and its guard keeps what the comparison writes
and binds. -/
structure Operand.Sound (P : String → Json → Prop) (o : Operand) : Prop where
  text : Covers o.bindings.names o.text
  chain : ∀ m, o.chain = some m → SoundChain P m
  guard : ∀ g, o.guard = some g →
    ∀ c, (c.Sound P → (g c).Sound P) ∧ ∀ name, c.Binds name → (g c).Binds name

structure Join.Sound (P : String → Json → Prop) (names : List String) (j : Join) : Prop where
  table : Covers names j.table
  alias_plain : Plain j.aliasName
  on : j.on.Sound P

theorem Operand.Sound.of_plain {text : String} (plain : Plain text) : Operand.Sound P { text := text } :=
  ⟨Covers.of_plain plain, nofun, nofun⟩

theorem Operand.Sound.bound {start : String} {n : Nat} (value : Json) (word : start.toList.all Text.isWord) :
    (Operand.bound (numbered start n) value).Sound P :=
  ⟨covers_numbered rfl word (by simp [Operand.bound, Bindings.names, Bindings.single]), nofun, nofun⟩

theorem Condition.sound_text {sql : String} (plain : Plain sql) : (Condition.text sql).Sound P :=
  ⟨.of_plain plain, by simp [Bindings.Are, Bindings.empty]⟩

end

namespace Dialect

theorem covers_boundElements {names : List String} (d : Dialect) {name : String} (h : Covers names (":" ++ name)) :
    Covers names (d.boundElements name) := by
  cases d
  · have parts : "JSON_TABLE(:" = "JSON_TABLE(" ++ ":" := rfl
    have whole := (h.after (by decide : Plain "JSON_TABLE(")).before
      (by decide +kernel : IsSeparator ",'$[*]' COLUMNS(`value` VARCHAR(255) PATH '$'))")
    unfold boundElements
    rw [parts]
    simpa only [String.append_assoc] using whole
  · have parts : "json_each(:" = "json_each(" ++ ":" := rfl
    have whole := (h.after (by decide : Plain "json_each(")).before (by decide : IsSeparator ")")
    unfold boundElements
    rw [parts]
    simpa only [String.append_assoc] using whole

theorem plain_jsonStep {path : String} (h : Plain path) : Plain (jsonStep path) := by
  unfold jsonStep
  split
  · exact h
  · split
    · exact h
    · exact Plain.append (by decide) h

theorem plain_jsonExtract (d : Dialect) {column path : String} (h : Plain column) (h' : Plain path) :
    Plain (d.jsonExtract column path) := by
  have c := d.plain_quoteColumn h
  have p := plain_jsonStep h'
  cases d <;>
  · unfold jsonExtract
    simp only [plain_append, c, p, and_true]
    decide +kernel

theorem plain_elementCount (d : Dialect) {column : String} (h : Plain column) : Plain (d.elementCount column) := by
  have c := d.plain_quoteColumn h
  cases d <;>
  · unfold elementCount
    simp only [plain_append, c, and_true]
    decide +kernel

end Dialect

theorem Arrival.plain_text (d : Dialect) {a : Arrival} {row : String} (clean : a.Clean) (hr : IsIdentifier row) :
    Plain (a.text d row) := by
  cases a with
  | null => exact (by decide : Plain "NULL")
  | column name guarded => exact (isIdentifier_column hr clean).plain
  | json field path => exact d.plain_jsonExtract (isIdentifier_column hr clean.1).plain clean.2
  | count field => exact d.plain_elementCount (isIdentifier_column hr clean).plain
  | element => exact (hr.append (by decide : IsIdentifier ".value")).plain

section

variable {P : String → Json → Prop}

theorem soundEntries_values (values : List Json) : SoundEntries P (values.map .value) := by
  induction values with
  | nil => trivial
  | cons v rest ih => exact ih

theorem sound_always : always.Sound P := Condition.sound_text (by decide)

theorem Root.joins_sound (d : Dialect) (side : Side) {r : Root} (clean : r.Clean) :
    ∀ j ∈ r.joins d side, Join.Sound P (r.bindings side).names j := by
  have named := (r.isIdentifier_aliasOn clean side).plain
  have id : Plain (r.aliasOn side ++ ".id") := named.append (by decide)
  intro j member
  cases r with
  | base table => cases member
  | collection table aliasName =>
    rw [List.mem_singleton.mp member]
    exact ⟨.of_plain clean.1.plain, named, sound_always⟩
  | auth table value =>
    rw [List.mem_singleton.mp member]
    exact ⟨.of_plain clean.plain, named, id, trivial⟩
  | submitted source field ids multiple =>
    rw [List.mem_singleton.mp member]
    exact ⟨.of_plain (isIdentifier_identifier _).plain, named, id, soundEntries_values _⟩
  | submittedItems field placeholder items multiple =>
    rw [List.mem_singleton.mp member]
    obtain ⟨-, n, rfl⟩ := clean
    refine ⟨d.covers_boundElements ?_, named, sound_always⟩
    cases side
    · exact covers_numbered rfl (by decide) (by simp [bindings, placeholder, Bindings.names, Bindings.single])
    · have shape : "mm" ++ numbered "dataEach" n = "mmdataEach" ++ toString n := by
        rw [numbered, ← String.append_assoc]
        rfl
      exact covers_numbered shape (by decide) (by simp [bindings, placeholder, Bindings.names, Bindings.single])

theorem Hop.joins_sound (d : Dialect) {h : Hop} {row : String} (clean : h.Clean) (hr : IsIdentifier row) :
    ∀ j ∈ h.joins d row, Join.Sound P [] j := by
  have target := Hop.isIdentifier_target clean hr
  intro j member
  cases h with
  | record field table =>
    rw [List.mem_singleton.mp member]
    refine ⟨.of_plain clean.2.plain, target.plain, Condition.sound_text ?_⟩
    simp only [plain_append, target.plain, hr.plain, clean.1.plain, and_true, true_and]
    decide
  | records field table =>
    have element := isIdentifier_elementAlias hr clean.1
    rcases List.mem_cons.mp member with rfl | member
    · exact ⟨.of_plain (d.plain_columnElements (isIdentifier_column hr clean.1).plain), element.plain, sound_always⟩
    · rw [List.mem_singleton.mp member]
      refine ⟨.of_plain clean.2.plain, target.plain, Condition.sound_text ?_⟩
      simp only [plain_append, target.plain, element.plain, and_true, true_and]
      decide
  | referrers segment field table multiple =>
    rw [List.mem_singleton.mp member]
    have element := isIdentifier_elementAlias hr clean.1
    have new := isIdentifier_glued hr clean.1
    have column := isIdentifier_column new clean.2.2.1
    refine ⟨.of_plain clean.2.2.2.plain, target.plain, Condition.sound_text ?_⟩
    unfold referrerCondition
    split
    · simp only [plain_append, hr.plain, element.plain, d.plain_columnElements column.plain, and_true, true_and]
      decide +kernel
    · simp only [plain_append, hr.plain, new.plain, clean.2.2.1.plain, and_true, true_and]
      decide
  | elements field multiple =>
    rw [List.mem_singleton.mp member]
    exact ⟨.of_plain (d.plain_columnElements (isIdentifier_column hr clean).plain), target.plain, sound_always⟩

theorem Join.Sound.mono {names more : List String} (sub : names ⊆ more) {j : Join} (h : Join.Sound P names j) :
    Join.Sound P more j := ⟨h.table.mono sub, h.alias_plain, h.on⟩

theorem Route.hopJoins_sound (d : Dialect) {hops : List Hop} {row : String} (clean : ∀ h ∈ hops, h.Clean)
    (hr : IsIdentifier row) : ∀ j ∈ hopJoins d row hops, Join.Sound P [] j := by
  induction hops generalizing row with
  | nil => exact nofun
  | cons h rest ih =>
    intro j member
    have first := clean h List.mem_cons_self
    rcases List.mem_append.mp member with inFirst | later
    · exact h.joins_sound d first hr j inFirst
    · exact ih (fun h inRest => clean h (List.mem_cons_of_mem _ inRest)) (Hop.isIdentifier_target first hr) j later

theorem Route.joins_sound (d : Dialect) (side : Side) {r : Route} (clean : r.Clean) :
    ∀ j ∈ r.joins d side, Join.Sound P (r.root.bindings side).names j := by
  intro j member
  rcases List.mem_append.mp member with inRoot | inHops
  · exact Root.joins_sound d side clean.root j inRoot
  · exact (hopJoins_sound d clean.hops (r.root.isIdentifier_aliasOn clean.root side) j inHops).mono (List.nil_subset _)

theorem Route.isIdentifier_aliasOn (side : Side) {r : Route} (clean : r.Clean) : IsIdentifier (r.aliasOn side) :=
  isIdentifier_hopAlias clean.hops (r.root.isIdentifier_aliasOn clean.root side)

theorem Root.not_numbered_of_mem_bindings {side : Side} {r : Root} (clean : r.Clean) {name : String}
    (h : name ∈ (r.bindings side).names) (n : Nat) : name ≠ numbered "f" n := by
  cases r with
  | submittedItems field placeholder items multiple =>
    obtain ⟨-, m, rfl⟩ := clean
    simp only [bindings, Bindings.names, Bindings.single, List.map_cons, List.map_nil, List.mem_singleton] at h
    subst h
    cases side
    · exact ne_numbered (by decide) n
    · exact ne_numbered (by decide) n
  | _ => simp [bindings, Bindings.names, Bindings.empty] at h

theorem IsFree.are (free : IsFree P) {b : Bindings} (h : ∀ name ∈ b.names, ∀ n, name ≠ numbered "f" n) : b.Are P :=
  fun e member => free e.1 e.2 (h e.1 (List.mem_map_of_mem member))

theorem Route.chain_sound (free : IsFree P) (d : Dialect) {table : String} (named : IsIdentifier table) {r : Route}
    (clean : r.Clean) {a : Arrival} (arrived : a.Clean) : SoundChain P (r.chain d table a) := by
  refine ⟨⟨named.plain, named.plain, ?_, ?_⟩, free.are ?_, soundJoins_of ?_⟩
  · exact ((Root.base table).isIdentifier_aliasOn named .copy).plain
  · exact a.plain_text d arrived (r.isIdentifier_aliasOn .copy clean)
  · exact fun name member => Root.not_numbered_of_mem_bindings clean.root member
  · intro j member
    have sound : Join.Sound P _ j := r.joins_sound d .copy clean j member
    exact ⟨sound.table, sound.alias_plain, sound.on⟩

theorem Arrival.guard_sound {a : Arrival} {row : String} (hr : IsIdentifier row) {g : Condition → Condition}
    (h : a.guard row = some g) (c : Condition) :
    (c.Sound P → (g c).Sound P) ∧ ∀ name, c.Binds name → (g c).Binds name := by
  have shown : g = emailGuard row := by
    unfold guard at h
    split at h
    · exact (Option.some.inj h).symm
    · cases h
  subst shown
  refine ⟨fun sound => ⟨sound, Condition.sound_text (hr.plain.append (by decide +kernel)), trivial⟩, ?_⟩
  exact fun name binds => .enclosed (.all List.mem_cons_self binds)

theorem Route.operand_sound (free : IsFree P) (d : Dialect) {table : String} (named : IsIdentifier table) {r : Route}
    (clean : r.Clean) {a : Arrival} (arrived : a.Clean) : (r.operand d table a).Sound P := by
  have text := a.plain_text d arrived (r.isIdentifier_aliasOn .primary clean)
  have chain : ∀ m, (if r.isMultiple then some (r.chain d table a) else none) = some m → SoundChain P m := by
    intro m same
    split at same
    · exact Option.some.inj same ▸ r.chain_sound free d named clean arrived
    · cases same
  have guard := fun g => a.guard_sound (P := P) (g := g) (r.isIdentifier_aliasOn .primary clean)
  cases a with
  | null => exact Operand.Sound.of_plain (by decide)
  | _ => exact ⟨.of_plain text, chain, guard⟩

namespace RecordScope

variable {s : RecordScope} {v : Visit}

theorem isIdentifier_table (s : RecordScope) : IsIdentifier s.table := isIdentifier_identifier _

def Visit.names (v : Visit) : List String := v.outcome.toOption.elim [] fun o => o.bindings.names

theorem Visits.operand (free : IsFree P) (seen : s.Visits v) {o : Operand} (reached : v.outcome = .ok o) :
    o.Sound P ∧ ∀ name ∈ o.bindings.names, ∀ n, name ≠ numbered "f" n := by
  cases seen with
  | stayed loaded outcome plain =>
    obtain ⟨text, rfl, plain⟩ := plain o reached
    exact ⟨.of_plain plain, by simp [Bindings.names, Bindings.empty]⟩
  | bound value =>
    cases reached
    refine ⟨.bound value (by decide), ?_⟩
    intro name member n
    simp only [Operand.bound, Bindings.names, Bindings.single, List.map_cons, List.map_nil, List.mem_singleton] at member
    subst member
    exact ne_numbered (by decide) n
  | walked r arrival loaded clean end_clean unbound based =>
    cases arrival with
    | error cause => cases reached
    | ok a =>
      cases reached
      refine ⟨r.operand_sound free _ s.isIdentifier_table clean (end_clean a rfl), ?_⟩
      cases a <;> simp [Route.operand, Operand.null, unbound, Bindings.names, Bindings.empty]
  | items field items multiple clean =>
    cases reached
    have route : Route.Clean ⟨.submittedItems field (numbered "dataEach" s.counter) items multiple, []⟩ :=
      ⟨⟨clean, _, rfl⟩, by simp⟩
    have names : ∀ name ∈ (Root.bindings .primary _).names, ∀ n, name ≠ numbered "f" n :=
      fun name member => Root.not_numbered_of_mem_bindings route.root member
    exact ⟨Route.operand_sound free _ s.isIdentifier_table route trivial, names⟩

theorem Visits.join (seen : s.Visits v) : ∀ j ∈ v.joins s.settings.dialect, Join.Sound P v.names j := by
  intro j member
  cases seen with
  | stayed => cases member
  | bound => cases member
  | walked r arrival loaded clean end_clean unbound based =>
    have sound : Join.Sound P _ j := r.joins_sound s.settings.dialect .primary clean j member
    rw [unbound] at sound
    exact sound.mono (by simp [Bindings.names, Bindings.empty])
  | items field items multiple clean =>
    have route : Route.Clean ⟨.submittedItems field (numbered "dataEach" s.counter) items multiple, []⟩ :=
      ⟨⟨clean, _, rfl⟩, by simp⟩
    exact Route.joins_sound _ .primary route j member

theorem Visits.counter_le (seen : s.Visits v) : s.counter ≤ v.counter := by
  cases seen with
  | stayed | walked => exact Nat.le_refl _
  | bound | items => exact Nat.le_succ _

def JoinsSound (P : String → Json → Prop) (names : List String) (s : RecordScope) : Prop :=
  ∀ j ∈ s.joins, Join.Sound P names j

theorem sound_putJoin {names : List String} {new : Join} (h : Join.Sound P names new) {joins : List Join}
    (h' : ∀ j ∈ joins, Join.Sound P names j) : ∀ j ∈ putJoin new joins, Join.Sound P names j := by
  intro j member
  induction joins with
  | nil => exact List.mem_singleton.mp member ▸ h
  | cons first rest ih =>
    unfold putJoin at member
    split at member
    · rcases List.mem_cons.mp member with rfl | inRest
      · exact h
      · exact h' j (List.mem_cons_of_mem _ inRest)
    · rcases List.mem_cons.mp member with rfl | inRest
      · exact h' j List.mem_cons_self
      · exact ih (fun j inRest => h' j (List.mem_cons_of_mem _ inRest)) inRest

theorem JoinsSound.after {names : List String} (h : s.JoinsSound P names) (seen : s.Visits v) :
    (s.after v).JoinsSound P (names ++ v.names) := by
  have old : ∀ j ∈ s.joins, Join.Sound P (names ++ v.names) j :=
    fun j member => (h j member).mono (List.subset_append_left _ _)
  have new : ∀ j ∈ v.joins s.settings.dialect, Join.Sound P (names ++ v.names) j :=
    fun j member => (seen.join j member).mono (List.subset_append_right _ _)
  show ∀ j ∈ putJoins _ _, Join.Sound P _ j
  unfold putJoins
  generalize s.joins = joins at old
  generalize v.joins s.settings.dialect = registered at new
  induction registered generalizing joins with
  | nil => exact old
  | cons first rest ih =>
    exact ih _ (sound_putJoin (new first List.mem_cons_self) old) fun j inRest => new j (List.mem_cons_of_mem _ inRest)

theorem JoinsSound.update {names : List String} (h : s.JoinsSound P names) {q : Select} (bare : q.joins = []) :
    ∀ j ∈ (s.update q).joins, j.Sound P names := by
  unfold RecordScope.update
  split
  · simp [bare]
  · have step : ∀ (joins : List Join) (q : Select), (∀ j ∈ joins, Join.Sound P names j) →
        (∀ j ∈ q.joins, j.Sound P names) → ∀ j ∈ (joins.foldl addJoin q).joins, j.Sound P names := by
      intro joins
      induction joins with
      | nil => exact fun q _ old => old
      | cons first rest ih =>
        intro q new old
        have head := new first List.mem_cons_self
        refine ih _ (fun j inRest => new j (List.mem_cons_of_mem _ inRest)) (Select.sound_join ?_ head.on old)
        exact head.table.between (by decide) (.of_plain head.alias_plain)
    exact step s.joins _ h (by simp [bare])

end RecordScope

end

end RelationFilter
