import RelationFilter.Json.Parser
import RelationFilter.Json.Printer

namespace RelationFilter.Json

theorem hexValue?_hexDigit : ∀ n < 16, hexValue? (hexDigit n) = some n := by decide

theorem unit?_control {n : Nat} (control : n < 0x20) :
    unit? '0' '0' (hexDigit (n / 16)) (hexDigit (n % 16)) = some n := by
  have zero : hexValue? '0' = some 0 := by decide
  rw [unit?, zero, hexValue?_hexDigit _ (by omega), hexValue?_hexDigit _ (by omega)]
  show some ((0 * 16 + 0) * 256 + n / 16 * 16 + n % 16) = some n
  rw [Option.some.injEq]
  omega

theorem stringBody?_plain {c : Char} (quote : c ≠ '"') (backslash : c ≠ '\\') (shown : 0x20 ≤ c.toNat) (rest : List Char) :
    stringBody? (c :: rest) = (stringBody? rest).map (consTo c) := by
  rw [stringBody?]
  · rw [if_neg]
    simp only [Bool.or_eq_true, decide_eq_true_eq, backslash, or_false]
    omega
  all_goals simp [quote, backslash]

theorem stringBody?_short {c e : Char} (short : shortEscape? e = some c) (rest : List Char) :
    stringBody? ('\\' :: e :: rest) = (stringBody? rest).map (consTo c) := by
  rw [stringBody?]
  · rw [short]
  · rintro a b c d rest rfl
    cases short

theorem stringBody?_control {c : Char} (control : c.toNat < 0x20) (rest : List Char) :
    stringBody? ('\\' :: 'u' :: '0' :: '0' :: hexDigit (c.toNat / 16) :: hexDigit (c.toNat % 16) :: rest) =
      (stringBody? rest).map (consTo c) := by
  have low : isLowSurrogate c.toNat = false := by
    rw [isLowSurrogate, Bool.and_eq_false_iff]
    exact .inl (decide_eq_false (by omega))
  have high : isHighSurrogate c.toNat = false := by
    rw [isHighSurrogate, Bool.and_eq_false_iff]
    exact .inl (decide_eq_false (by omega))
  rw [stringBody?, unit?_control control]
  simp only [low, high, Bool.false_eq_true, if_false, Char.ofNat_toNat]

/-- A character is written as it is, by a short escape, or by its number. -/
theorem escape_cases (c : Char) :
    (c ≠ '"' ∧ c ≠ '\\' ∧ 0x20 ≤ c.toNat ∧ escape c = [c]) ∨ (∃ e, shortEscape? e = some c ∧ escape c = ['\\', e]) ∨
      (c.toNat < 0x20 ∧ escape c = ['\\', 'u', '0', '0', hexDigit (c.toNat / 16), hexDigit (c.toNat % 16)]) := by
  by_cases short : c ∈ ['"', '\\', '\x08', '\x0c', '\n', '\r', '\t']
  · simp only [List.mem_cons, List.not_mem_nil, or_false] at short
    refine .inr (.inl ?_)
    rcases short with rfl | rfl | rfl | rfl | rfl | rfl | rfl
    · exact ⟨'"', rfl, rfl⟩
    · exact ⟨'\\', rfl, rfl⟩
    · exact ⟨'b', rfl, rfl⟩
    · exact ⟨'f', rfl, rfl⟩
    · exact ⟨'n', rfl, rfl⟩
    · exact ⟨'r', rfl, rfl⟩
    · exact ⟨'t', rfl, rfl⟩
  · simp only [List.mem_cons, List.not_mem_nil, or_false, not_or] at short
    by_cases control : c.toNat < 0x20
    · exact .inr (.inr ⟨control, by simp [escape, short, control]⟩)
    · exact .inl ⟨short.1, short.2.1, by omega, by simp [escape, short, control]⟩

theorem stringBody?_escape (c : Char) (rest : List Char) :
    stringBody? (escape c ++ rest) = (stringBody? rest).map (consTo c) := by
  obtain ⟨quote, backslash, shown, same⟩ | ⟨e, short, same⟩ | ⟨control, same⟩ := escape_cases c
  · rw [same]
    exact stringBody?_plain quote backslash shown rest
  · rw [same]
    exact stringBody?_short short rest
  · rw [same]
    exact stringBody?_control control rest

theorem stringBody?_escapes (cs rest : List Char) : stringBody? (cs.flatMap escape ++ '"' :: rest) = some (cs, rest) := by
  induction cs with
  | nil => rw [List.flatMap_nil, List.nil_append, stringBody?]
  | cons c cs ih =>
    rw [List.flatMap_cons, List.append_assoc, stringBody?_escape, ih]
    rfl

theorem stringText_append (s : String) (rest : List Char) :
    stringText s ++ rest = '"' :: (s.toList.flatMap escape ++ '"' :: rest) := by
  simp [stringText]

theorem takeString?_stringText (s : String) (rest : List Char) :
    takeString? (stringText s ++ rest) = some (s, rest) := by
  rw [stringText_append, takeString?, stringBody?_escapes, Option.map_some, String.ofList_toList]

theorem takeValue?_stringText (fuel depth : Nat) (s : String) (rest : List Char) :
    takeValue? (fuel + 1) depth (stringText s ++ rest) = some (string s, rest) := by
  have reread := takeString?_stringText s rest
  rw [stringText_append] at reread ⊢
  have spaces : skipSpaces ('"' :: (s.toList.flatMap escape ++ '"' :: rest)) =
      '"' :: (s.toList.flatMap escape ++ '"' :: rest) := rfl
  simp only [takeValue?, spaces, reread, Option.map_some]

theorem takeItems?_strings (depth : Nat) (item : String) (items : List String) {fuel : Nat}
    (enough : items.length + 1 < fuel) (rest : List Char) :
    takeItems? fuel depth (stringText item ++ (moreItemChars (items.map string) ++ rest)) =
      some ((item :: items).map string, rest) := by
  induction items generalizing item fuel with
  | nil =>
    obtain ⟨fuel, rfl⟩ : ∃ n, fuel = n + 2 := ⟨fuel - 2, by omega⟩
    have closed : skipSpaces (moreItemChars [] ++ rest) = ']' :: rest := rfl
    simp only [takeItems?, takeValue?_stringText, List.map_nil, closed, List.map_cons]
  | cons next items ih =>
    rw [List.length_cons] at enough
    obtain ⟨fuel, rfl⟩ : ∃ n, fuel = n + 2 := ⟨fuel - 2, by omega⟩
    have left : items.length + 1 < fuel + 1 := by omega
    have comma : skipSpaces (moreItemChars (string next :: items.map string) ++ rest) =
        ',' :: (stringText next ++ (moreItemChars (items.map string) ++ rest)) := by
      rw [moreItemChars, chars, List.append_assoc]
      rfl
    rw [takeItems?, takeValue?_stringText, List.map_cons]
    simp only [comma, ih next left, Option.map_some, List.map_cons]

theorem length_lt_moreItemChars (items : List String) : items.length < (moreItemChars (items.map string)).length := by
  induction items with
  | nil => decide
  | cons item items ih =>
    simp only [List.map_cons, moreItemChars, List.length_append, List.length_cons]
    omega

theorem takeValue?_strings (items : List String) {fuel : Nat} (enough : items.length < fuel) (depth : Nat) :
    takeValue? (fuel + 1) (depth + 1) (ofStrings items).chars = some (ofStrings items, []) := by
  cases items with
  | nil => rfl
  | cons item items =>
    have opened : skipSpaces (ofStrings (item :: items)).chars =
        '[' :: (stringText item ++ (moreItemChars (items.map string) ++ [])) := by
      rw [ofStrings, chars, List.map_cons, itemChars, chars, List.append_nil]
      rfl
    have quote : skipSpaces (stringText item ++ (moreItemChars (items.map string) ++ [])) =
        '"' :: (item.toList.flatMap escape ++ '"' :: (moreItemChars (items.map string) ++ [])) := by
      rw [stringText_append]
      rfl
    have taken := takeItems?_strings depth item items enough []
    rw [stringText_append] at taken
    simp only [takeValue?, opened, quote, Nat.add_one_ne_zero, if_false, Nat.add_sub_cancel]
    show (takeItems? fuel depth _).map (fun p => (array p.1, p.2)) = _
    rw [taken]
    rfl

theorem length_lt_chars (items : List String) : items.length < (ofStrings items).chars.length := by
  cases items with
  | nil => decide
  | cons item items =>
    have more := length_lt_moreItemChars items
    simp only [ofStrings, List.map_cons, chars, itemChars, List.length_append, List.length_cons]
    omega

/-- An array of strings is what its text is read as. -/
theorem parse?_ofStrings (items : List String) : parse? (ofStrings items).text = some (ofStrings items) := by
  have long := length_lt_chars items
  have enough : items.length < 2 * (ofStrings items).chars.length + 1 := by omega
  have taken : takeValue? (2 * (ofStrings items).chars.length + 2) maxDepth (ofStrings items).chars =
      some (ofStrings items, []) := takeValue?_strings items enough 126
  rw [parse?, text, String.toList_ofList, taken]
  rfl

end RelationFilter.Json
