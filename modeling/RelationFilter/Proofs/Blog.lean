import RelationFilter.Path.RecordScope

namespace RelationFilter.Blog

def tags : Collection := { id := "t", name := "tags", fields := [{ name := "name", kind := .text }] }

def posts : Collection :=
  { id := "p"
    name := "posts"
    fields := [{ name := "tags", kind := .relation { collectionId := "t" } }, { name := "title", kind := .text }] }

def pages : Collection :=
  { id := "g"
    name := "pages"
    fields := [{ name := "tags", kind := .relation { collectionId := "t" } }, { name := "meta", kind := .json }] }

def comments (index : String) : Collection :=
  { id := "c"
    name := "comments"
    fields := [{ name := "post", kind := .relation { collectionId := "p", maxSelect := some 1 } }]
    indexes := [index] }

def scope : RecordScope :=
  .new ⟨[posts, tags]⟩ posts (some { data := [("tags", .array [.string "x", .string "y"])] }) {}

def tagScope : RecordScope := .new ⟨[tags, pages]⟩ tags none {}

/-- Notes and authors refer to one post each. The id of the staff is the name of the authors. -/
def notes : Collection :=
  { id := "n"
    name := "notes"
    fields := [{ name := "for_via_post", kind := .relation { collectionId := "p", maxSelect := some 1 } }] }

def authors : Collection :=
  { id := "a"
    name := "authors"
    fields := [{ name := "post", kind := .relation { collectionId := "p", maxSelect := some 1 } }] }

def staff : Collection := { id := "authors", name := "staff" }

def noteScope : RecordScope := .new ⟨[posts, notes, authors, staff]⟩ posts none {}

def commentScope (index : String) : RecordScope := .new ⟨[posts, comments index]⟩ posts none {}

end RelationFilter.Blog
