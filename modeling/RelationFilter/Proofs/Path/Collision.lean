import RelationFilter.Proofs.Path.LinkText

namespace RelationFilter

theorem exists_of_mem_left {α β : Type} {R : α → β → Prop} {xs : List α} {ys : List β} (h : List.Forall₂ R xs ys)
    {x : α} (member : x ∈ xs) : ∃ y ∈ ys, R x y := by
  induction h with
  | nil => simp at member
  | cons head _ ih =>
    rcases List.mem_cons.mp member with rfl | member
    · exact ⟨_, List.mem_cons_self, head⟩
    · obtain ⟨y, there, related⟩ := ih member
      exact ⟨y, List.mem_cons_of_mem _ there, related⟩

/-- No alias is given to two links. -/
def OneLink (links : List (String × Link)) : Prop := ∀ a l l', (a, l) ∈ links → (a, l') ∈ links → l = l'

/-- No alias is shared by two chains. -/
def OneChain (table : String) (links : List (String × Link)) : Prop :=
  ∀ a chain chain', Reaches table links a chain → Reaches table links a chain' → chain = chain'

theorem agree_iff_oneLink {d : Dialect} {links : List (String × Link)} {joins : List Join} {table : String}
    (linked : WellLinked table links)
    (described : List.Forall₂ (fun p j => p.2.Describes d p.1 j) links joins) :
    RecordScope.Agree d joins ↔ OneLink links := by
  constructor
  · intro agree
    have same : ∀ a l l', (a, l) ∈ links → (a, l') ∈ links →
        l = l' ∨ ∃ row field row' field' table, l = .records row field table ∧ l' = .records row' field' table := by
      intro a l l' hp hq
      obtain ⟨j, hj, hl⟩ := exists_of_mem_left described hp
      obtain ⟨k, hk, hl'⟩ := exists_of_mem_left described hq
      have same := agree j hj k hk (hl.aliasName.trans hl'.aliasName.symm)
      have ha := linked.clean _ hp
      have kind := hl.kind_eq hl' ha same.on
      cases own : l.kind with
      | keyed => exact .inl (hl.eq_of_keyed hl' ha own (kind ▸ own) same)
      | loose => exact .inl (hl.eq_of_loose hl' own (kind ▸ own) same)
      | tied => exact hl.eq_of_tied hl' ha own (kind ▸ own) same
    intro a l l' hp hq
    rcases same a l l' hp hq with equal | ⟨row, field, row', field', table, rfl, rfl⟩
    · exact equal
    · -- the tables of elements have one alias too, and tell the fields
      obtain ⟨_, -, hl⟩ := exists_of_mem_left described hp
      obtain ⟨_, -, hl'⟩ := exists_of_mem_left described hq
      have elements := linked.elements _ _ _ _ hp
      have elements' := linked.elements _ _ _ _ hq
      rw [hl.elementAlias_eq] at elements
      rw [hl'.elementAlias_eq] at elements'
      rcases same _ _ _ elements elements' with equal | ⟨_, _, _, _, _, none, -⟩
      · cases equal
        rfl
      · cases none
  · intro one j hj k hk named
    obtain ⟨⟨a, l⟩, hp, hl⟩ := exists_of_mem_left described.flip hj
    obtain ⟨⟨b, l'⟩, hq, hl'⟩ := exists_of_mem_left described.flip hk
    obtain rfl : a = b := hl.aliasName.symm.trans (named.trans hl'.aliasName)
    obtain rfl := one a l l' hp hq
    exact hl.sameJoin hl'

/-- An alias has one link, and is not that of the base table, exactly if it has one chain. -/
theorem oneChain_iff {table : String} {links : List (String × Link)} (linked : WellLinked table links) :
    OneChain table links ↔ OneLink links ∧ ∀ p ∈ links, p.1 ≠ table := by
  constructor
  · intro one
    constructor
    · intro a l l' hp hq
      obtain ⟨chain, reached⟩ := linked.reached _ hp
      obtain ⟨chain', reached'⟩ := linked.reached _ hq
      exact List.singleton_inj.mp (List.append_inj_right' (one a _ _ reached reached') rfl)
    · rintro ⟨a, l⟩ hp rfl
      obtain ⟨chain, reached⟩ := linked.reached _ hp
      exact absurd (one a _ _ .base reached) (by simp)
  · rintro ⟨one, other⟩ a chain chain' reached
    induction reached generalizing chain' with
    | base =>
      intro reached'
      cases reached' with
      | base => rfl
      | root there => exact absurd rfl (other _ there)
      | step _ there => exact absurd rfl (other _ there)
    | root there first =>
      intro reached'
      cases reached' with
      | base => exact absurd rfl (other _ there)
      | root there' => rw [one _ _ _ there there']
      | step _ there' next =>
        rw [one _ _ _ there there', next] at first
        cases first
    | step before there next ih =>
      intro reached'
      cases reached' with
      | base => exact absurd rfl (other _ there)
      | root there' first =>
        rw [one _ _ _ there there', first] at next
        cases next
      | step before' there' next' =>
        obtain rfl := one _ _ _ there there'
        obtain rfl := Option.some.inj (next.symm.trans next')
        rw [ih _ before']

namespace RecordScope

/-- Over any run of paths from a new scope, registering joins anew loses nothing exactly if no alias is given to two
links; and then every join that was registered is there in the end. No two chains share an alias exactly if, moreover, no
alias is that of the base table. -/
theorem idempotent_iff_oneLink (catalog : Catalog) (base : Collection) (request : Option Request) (settings : Settings)
    (paths : List String) :
    let s := RecordScope.new catalog base request settings
    (Idempotent settings.dialect (registered paths s) ↔ OneLink (linked paths s)) ∧
    (Idempotent settings.dialect (registered paths s) ↔
      ∀ j ∈ registered paths s, ∃ k ∈ (resolveEach paths s).joins,
        k.aliasName = j.aliasName ∧ SameJoin settings.dialect j k) ∧
    (OneChain s.table (linked paths s) ↔
      Idempotent settings.dialect (registered paths s) ∧ ∀ j ∈ registered paths s, j.aliasName ≠ s.table) := by
  intro s
  have described : List.Forall₂ (fun p j => p.2.Describes settings.dialect p.1 j) (linked paths s) (registered paths s) :=
    describes_linked paths s
  have wellLinked := wellLinked_linked paths s
  have oneLink : Idempotent settings.dialect (registered paths s) ↔ OneLink (linked paths s) :=
    idempotent_iff_agree.trans (agree_iff_oneLink wellLinked described)
  refine ⟨oneLink, ?_, ?_⟩
  · rw [idempotent_iff_agree, ← kept_iff_agree, joins_resolveEach]
    rfl
  · rw [oneChain_iff wellLinked, oneLink]
    have aliases : (∀ p ∈ linked paths s, p.1 ≠ s.table) ↔ ∀ j ∈ registered paths s, j.aliasName ≠ s.table := by
      constructor
      · intro other j hj
        obtain ⟨p, hp, describes⟩ := exists_of_mem_left described.flip hj
        exact describes.aliasName ▸ other p hp
      · intro other p hp
        obtain ⟨j, hj, describes⟩ := exists_of_mem_left described hp
        exact describes.aliasName ▸ other j hj
    rw [aliases]

def blogs : Collection :=
  { id := "b"
    name := "blogs"
    fields := [{ name := "owner", kind := .relation { collectionId := "c", maxSelect := some 1 } }] }

def ownedPosts : Collection :=
  { id := "p"
    name := "posts"
    fields := [{ name := "blog_owner", kind := .relation { collectionId := "u", maxSelect := some 1 } },
      { name := "blog", kind := .relation { collectionId := "b", maxSelect := some 1 } }] }

def ownedScope : RecordScope :=
  .new ⟨[{ id := "u", name := "users" }, { id := "c", name := "companies" }, blogs, ownedPosts]⟩ ownedPosts none {}

theorem not_idempotent_blog_owner : ¬ Idempotent .mysql (registered ["blog_owner.id", "blog.owner.id"] ownedScope) := by
  intro h
  let users : Join := ⟨"users", "posts_blog_owner", .text "posts_blog_owner.id = posts.blog_owner"⟩
  let blogs : Join := ⟨"blogs", "posts_blog", .text "posts_blog.id = posts.blog"⟩
  let companies : Join := ⟨"companies", "posts_blog_owner", .text "posts_blog_owner.id = posts_blog.owner"⟩
  have before : users ∈ putJoins [users, blogs] [] := by simp [putJoins, putJoin, users, blogs]
  have replaced : SameJoin .mysql users companies := h [users, blogs] companies [] rfl users before rfl
  exact absurd (replaced.table.eq_of_isIdentifier (by decide)) (by decide)

end RecordScope
end RelationFilter
