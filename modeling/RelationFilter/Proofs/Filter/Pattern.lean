import Mathlib.Data.List.Infix
import RelationFilter.Filter.Comparison

namespace RelationFilter.LikePattern

inductive Letter where
  | escaped (c : Char)
  | bare (c : Char)
deriving DecidableEq

def Letter.char : Letter → Char
  | escaped c => c
  | bare c => c

def letters : List Char → List Letter
  | [] => []
  | [c] => [.bare c]
  | c :: next :: rest =>
    if c = '\\' && isSpecial next then .escaped next :: letters rest else .bare c :: letters (next :: rest)

def literal (cs : List Char) : List Char := (letters cs).map Letter.char

def HasWildcard (cs : List Char) : Prop := .bare '%' ∈ letters cs

instance (cs : List Char) : Decidable (HasWildcard cs) := inferInstanceAs (Decidable (_ ∈ _))

inductive Element where
  /-- Any characters, or none. -/
  | anything
  | anyOne
  | char (c : Char)

/-- The elements of a pattern. After a backslash any character stands for itself, and there must be one. -/
def elements? : List Char → Option (List Element)
  | [] => some []
  | ['\\'] => none
  | '\\' :: c :: rest => (elements? rest).map (.char c :: ·)
  | '%' :: rest => (elements? rest).map (.anything :: ·)
  | '_' :: rest => (elements? rest).map (.anyOne :: ·)
  | c :: rest => (elements? rest).map (.char c :: ·)

def fits : List Element → List Char → Bool
  | [], s => s.isEmpty
  | .anything :: es, s => s.tails.any (fits es)
  | .anyOne :: es, _ :: s => fits es s
  | .char c :: es, d :: s => c = d && fits es s
  | _ :: _, [] => false

def like (pattern subject : List Char) : Bool := (elements? pattern).any fun es => fits es subject

theorem hasUnescaped_of_not_special {c : Char} (h : isSpecial c = false) (escaped : Bool) (rest : List Char) :
    hasUnescaped '%' escaped (c :: rest) = hasUnescaped '%' false rest := by
  simp only [isSpecial, Bool.or_eq_false_iff, decide_eq_false_iff_not] at h
  simp [hasUnescaped, h]

theorem hasUnescaped_iff (cs : List Char) : hasUnescaped '%' false cs = true ↔ HasWildcard cs := by
  unfold HasWildcard
  fun_induction letters cs with
  | case1 => simp [hasUnescaped]
  | case2 c => simp [hasUnescaped, eq_comm]
  | case3 c next rest pair ih =>
    obtain ⟨backslash, -⟩ := Bool.and_eq_true_iff.mp pair
    rw [of_decide_eq_true backslash]
    simpa [hasUnescaped] using ih
  | case4 c next rest alone ih =>
    -- Only a backslash changes how the scanner reads what follows, and here nothing special follows one.
    have goesOn : hasUnescaped '%' false (c :: next :: rest) =
        (decide (c = '%') || hasUnescaped '%' false (next :: rest)) := by
      by_cases backslash : c = '\\'
      · have plain : isSpecial next = false := by simpa [backslash] using alone
        rw [backslash, hasUnescaped, hasUnescaped_of_not_special plain, hasUnescaped_of_not_special plain]
        rfl
      · simp [hasUnescaped, backslash]
    rw [goesOn, Bool.or_eq_true, decide_eq_true_eq, ih, List.mem_cons, Letter.bare.injEq, eq_comm]

def escaped (c : Char) : List Char := if isSpecial c then ['\\', c] else [c]

theorem escape_eq (cs : List Char) : escape cs = (literal cs).flatMap escaped := by
  unfold literal
  fun_induction letters cs with
  | case1 => rfl
  | case2 c => simp [escape, escaped, Letter.char]
  | case3 c next rest pair ih =>
    obtain ⟨backslash, special⟩ := Bool.and_eq_true_iff.mp pair
    rw [escape, if_pos pair, ih]
    simp [escaped, Letter.char, special, of_decide_eq_true backslash]
  | case4 c next rest alone ih =>
    rw [escape, if_neg alone, ih]
    by_cases special : isSpecial c <;> simp [escaped, Letter.char, special]

theorem elements?_escaped (c : Char) (rest : List Char) :
    elements? (escaped c ++ rest) = (elements? rest).map (.char c :: ·) := by
  unfold escaped
  split
  · rfl
  · rename_i plain
    simp only [isSpecial, Bool.or_eq_true, decide_eq_true_eq, not_or] at plain
    obtain ⟨⟨backslash, percent⟩, underscore⟩ := plain
    show elements? (c :: rest) = _
    rw [elements?.eq_def]
    split <;> simp_all

theorem elements?_flatMap_escaped (cs rest : List Char) :
    elements? (cs.flatMap escaped ++ rest) = (elements? rest).map (cs.map .char ++ ·) := by
  induction cs with
  | nil => simp
  | cons c cs ih =>
    rw [List.flatMap_cons, List.append_assoc, elements?_escaped, ih, Option.map_map]
    rfl

theorem fits_anything {es : List Element} {s : List Char} :
    fits (.anything :: es) s = true ↔ ∃ before after, s = before ++ after ∧ fits es after = true := by
  simp only [fits, List.any_eq_true, List.mem_tails]
  constructor
  · rintro ⟨after, ⟨before, rfl⟩, found⟩
    exact ⟨before, after, rfl, found⟩
  · rintro ⟨before, after, rfl, found⟩
    exact ⟨after, List.suffix_append before after, found⟩

theorem fits_chars {cs : List Char} {es : List Element} {s : List Char} :
    fits (cs.map .char ++ es) s = true ↔ ∃ after, s = cs ++ after ∧ fits es after = true := by
  induction cs generalizing s with
  | nil => simp
  | cons c cs ih =>
    cases s with
    | nil => simp [fits]
    | cons d s => simp [fits, ih, eq_comm (a := c), and_assoc]

theorem like_containing {cs : List Char} (free : ¬ HasWildcard cs) (s : List Char) :
    like (containing cs) s = true ↔ literal cs <:+: s := by
  have shape : elements? (containing cs) = some (.anything :: (literal cs).map .char ++ [.anything]) := by
    rw [containing, if_neg (mt (hasUnescaped_iff cs).mp free), escape_eq]
    show (elements? ((literal cs).flatMap escaped ++ ['%'])).map (Element.anything :: ·) = _
    rw [elements?_flatMap_escaped]
    rfl
  have rest : fits [.anything] = fun _ => true := by
    funext s
    exact fits_anything.mpr ⟨s, [], by simp, rfl⟩
  rw [like, shape, Option.any_some, List.cons_append, fits_anything]
  simp only [fits_chars, rest, and_true]
  constructor
  · rintro ⟨before, -, rfl, after, rfl⟩
    exact ⟨before, after, List.append_assoc ..⟩
  · rintro ⟨before, after, rfl⟩
    exact ⟨before, literal cs ++ after, List.append_assoc .., after, rfl⟩

theorem hasWildcard_percent (cs : List Char) : HasWildcard ('%' :: cs) := by
  cases cs <;> simp [HasWildcard, letters]

theorem ofValue_string_eq_iff {text : String} : ofValue (.string text) = .string text ↔ HasWildcard text.toList := by
  have shape : ofValue (.string text) = .string (String.ofList (containing text.toList)) := rfl
  rw [shape, Json.string.injEq, ← String.toList_inj, String.toList_ofList, containing]
  split
  · rename_i wildcard
    exact ⟨fun _ => (hasUnescaped_iff _).mp wildcard, fun _ => rfl⟩
  · rename_i free
    refine ⟨fun same => ?_, fun wildcard => absurd ((hasUnescaped_iff _).mpr wildcard) free⟩
    rw [← same]
    exact hasWildcard_percent _

/-- The pattern of a value. Where its text has a wildcard, it is the text itself; otherwise it matches just the texts that
contain what the text says. -/
theorem ofValue_like (v : Json) :
    (HasWildcard v.plainText.toList → ofValue v = .string v.plainText) ∧
      (¬ HasWildcard v.plainText.toList → ∃ pattern : String, ofValue v = .string pattern ∧
        ∀ subject : String,
          like pattern.toList subject.toList = true ↔ literal v.plainText.toList <:+: subject.toList) := by
  constructor
  · intro wildcard
    rw [ofValue, containing, if_pos ((hasUnescaped_iff _).mpr wildcard), String.ofList_toList]
  · intro free
    refine ⟨_, rfl, fun subject => ?_⟩
    rw [String.toList_ofList]
    exact like_containing free _

/-- A text with an escaped percent sign, a bare underscore and a backslash that escapes nothing, and one with a wildcard. -/
theorem ofValue_like_discount :
    let text := "50\\%_o\\f"
    ¬ HasWildcard text.toList ∧ literal text.toList = "50%_o\\f".toList ∧
      (∃ pattern : String, ofValue (.string text) = .string pattern ∧
        like pattern.toList "up to 50%_o\\f!".toList = true ∧ like pattern.toList "50%-o\\f".toList = false) ∧
      HasWildcard "50%_o".toList ∧ ofValue (.string "50%_o") = .string "50%_o" := by
  intro text
  have free : ¬ HasWildcard text.toList := by decide
  have wildcard : HasWildcard "50%_o".toList := by decide
  obtain ⟨pattern, shape, found⟩ := (ofValue_like (.string text)).2 free
  refine ⟨free, by decide, ⟨pattern, shape, ?_, ?_⟩, wildcard, (ofValue_like (.string "50%_o")).1 wildcard⟩
  · exact (found _).mpr (by decide)
  · exact Bool.eq_false_iff.mpr (mt (found _).mp (by decide))

end RelationFilter.LikePattern
