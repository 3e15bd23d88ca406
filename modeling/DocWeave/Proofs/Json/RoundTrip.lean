/-
Reading what was written.  However a document without doubles is written, reading the text
gives the document back, with its keys in their order.
-/
import DocWeave.Parse
import DocWeave.Proofs.Json.Written
import DocWeave.Render

namespace DocWeave

namespace Json

/-- A text is read as a part if its first character shows where the part starts. -/
theorem ReadsAs.of_skipBlank {ρ α : Type} {part : Reader ρ α} {c : Char} {more : List Char}
    {x : α} (hc : isBlank c = false) (hclose : c ≠ ']')
    (hreads : ∀ text rest, skipBlank text = c :: (more ++ rest) → Follows rest →
      ∃ hlt, part text = .ok (x, ⟨rest, hlt⟩)) :
    ReadsAs part (c :: more) x where
  starts := ⟨c, more, rfl, hc, hclose⟩
  reads _ rest hblank hrest := hreads _ rest (skipBlank_cons hblank hc (more ++ rest)) hrest

/-! ### Words, numbers and strings -/

theorem expectWord_append (letters rest : List Char) :
    ∃ hle, expectWord letters (letters ++ rest) = .ok ⟨rest, hle⟩ := by
  induction letters with
  | nil => exact ⟨length_le_self rest, rfl⟩
  | cons letter letters ih =>
      obtain ⟨hle, hrest⟩ := ih
      refine ⟨length_le_trans hle (length_le_cons letter (letters ++ rest)), ?_⟩
      change expectWord (letter :: letters) (letter :: (letters ++ rest)) = _
      rw [expectWord, if_pos rfl, hrest]
      rfl

theorem readWord_append (letters : String) (value : Value) (rest : List Char) :
    ∃ hle, readWord letters value (letters.toList ++ rest) = .ok (value, ⟨rest, hle⟩) := by
  obtain ⟨hle, hword⟩ := expectWord_append letters.toList rest
  refine ⟨hle, ?_⟩
  rw [readWord, hword]
  rfl

variable (depth : Nat)

/-- A word is read as what it stands for, if its first letter is what the reader takes for
the start of the word. -/
theorem readsAs_word {c : Char} {letters : String} {value : Value} (hc : isBlank c = false)
    (hclose : c ≠ ']')
    (hchoice : ∀ text rest (h : skipBlank text = c :: rest), readValue depth text =
      (readWord letters value rest).map fun r => (r.1, r.2.behind (length_lt_of_skipBlank h))) :
    ReadsAs (readValue depth) (c :: letters.toList) value := by
  apply ReadsAs.of_skipBlank hc hclose
  intro text rest h _
  obtain ⟨hle, hword⟩ := readWord_append letters value rest
  refine ⟨length_lt_of_le_of_lt hle (length_lt_of_skipBlank h), ?_⟩
  rw [hchoice text _ h, hword]
  rfl

theorem readsAs_null : ReadsAs (readValue depth) "null".toList .null := by
  change ReadsAs (readValue depth) ('n' :: "ull".toList) .null
  apply readsAs_word depth (by decide) (by decide)
  intro text rest h
  unfold readValue
  refine (match_skipBlank_eq h _ _).trans ?_
  rw [if_pos rfl]

theorem readsAs_bool (b : Bool) :
    ReadsAs (readValue depth) (if b then "true" else "false").toList (.bool b) := by
  cases b with
  | true =>
      change ReadsAs (readValue depth) ('t' :: "rue".toList) (.bool true)
      apply readsAs_word depth (by decide) (by decide)
      intro text rest h
      unfold readValue
      refine (match_skipBlank_eq h _ _).trans ?_
      rw [if_neg (by decide), if_pos rfl]
  | false =>
      change ReadsAs (readValue depth) ('f' :: "alse".toList) (.bool false)
      apply readsAs_word depth (by decide) (by decide)
      intro text rest h
      unfold readValue
      refine (match_skipBlank_eq h _ _).trans ?_
      rw [if_neg (by decide), if_neg (by decide), if_pos rfl]

theorem ne_of_startsNumber {c d : Char} (hc : c = '-' ∨ c.isDigit)
    (hd : ¬ (d = '-' ∨ d.isDigit)) : c ≠ d := by
  rintro rfl
  exact hd hc

theorem not_isBlank_of_startsNumber {c : Char} (hc : c = '-' ∨ c.isDigit) :
    isBlank c = false := by
  simp [isBlank, ne_of_startsNumber hc]

theorem readsAs_integer (n : Int64) :
    ReadsAs (readValue depth) (numberText (.integer n)) (.number (.integer n)) := by
  obtain ⟨c, more, hcons, hc⟩ := exists_numberText_eq_cons n
  rw [hcons]
  apply ReadsAs.of_skipBlank (not_isBlank_of_startsNumber hc) (ne_of_startsNumber hc (by decide))
  intro text rest h hrest
  have hnumber := readNumber_numberText n hrest
  rw [hcons, List.cons_append] at hnumber
  obtain ⟨hlt, hnumber⟩ := hnumber
  refine ⟨length_lt_of_lt_of_le hlt (length_le_of_skipBlank h), ?_⟩
  unfold readValue
  refine (match_skipBlank_eq h _ _).trans ?_
  rw [if_neg (ne_of_startsNumber hc (by decide)), if_neg (ne_of_startsNumber hc (by decide)),
    if_neg (ne_of_startsNumber hc (by decide)), if_pos hc, hnumber]
  rfl

theorem readsAs_string (s : String) : ReadsAs (readValue depth) (quoted s) (.string s) := by
  apply ReadsAs.of_skipBlank (by decide) (by decide)
  intro text rest h _
  rw [List.append_assoc, List.singleton_append] at h
  obtain ⟨hlt, hstring⟩ := Quoted.decode_flatMap_escape s.toList rest
  refine ⟨length_lt_trans hlt (length_lt_of_skipBlank h), ?_⟩
  unfold readValue
  refine (match_skipBlank_eq h _ _).trans ?_
  rw [if_neg (by decide), if_neg (by decide), if_neg (by decide), if_neg (by decide),
    if_pos rfl, hstring]
  simp only [Except.map, String.ofList_toList]
  rfl

/-! ### Containers -/

variable {depth} {write : Value → List Char} {pad gap blank : List Char}

theorem readsAs_array (hpad : AllBlank pad) (hblank : AllBlank blank) {items : List Value}
    (hitems : ∀ item ∈ items, ReadsAs (readValue depth) (write item) item) :
    ReadsAs (readValue (depth + 1)) ('[' :: (row pad write items ++ (blank ++ [']'])))
      (.array items) := by
  apply ReadsAs.of_skipBlank (by decide) (by decide)
  intro text rest h _
  rw [List.append_assoc, List.append_assoc, List.singleton_append] at h
  obtain ⟨hlt, hread⟩ := readItems_row id hpad hblank hitems rest
  refine ⟨length_lt_trans hlt (length_lt_of_skipBlank h), ?_⟩
  unfold readValue
  refine (match_skipBlank_eq h _ _).trans ?_
  rw [if_neg (by decide), if_neg (by decide), if_neg (by decide), if_neg (by decide),
    if_neg (by decide), if_pos rfl]
  dsimp only
  rw [hread]
  rfl

theorem readsAs_object (hpad : AllBlank pad) (hgap : AllBlank gap) (hblank : AllBlank blank)
    {members : Entries Value} (hkeys : (Entries.keys members).Nodup)
    (hmembers : ∀ member ∈ members, ReadsAs (readValue depth) (write member.2) member.2) :
    ReadsAs (readValue (depth + 1))
      ('\x7b' :: (row pad (memberText gap write) members ++ (blank ++ ['\x7d'])))
      (.object members) := by
  apply ReadsAs.of_skipBlank (by decide) (by decide)
  intro text rest h _
  rw [List.append_assoc, List.append_assoc, List.singleton_append] at h
  obtain ⟨hlt, hread⟩ := readMembers_row id hpad hgap hblank hmembers rest
  refine ⟨length_lt_trans hlt (length_lt_of_skipBlank h), ?_⟩
  unfold readValue
  refine (match_skipBlank_eq h _ _).trans ?_
  rw [if_neg (by decide), if_neg (by decide), if_neg (by decide), if_neg (by decide),
    if_neg (by decide), if_neg (by decide), if_pos rfl]
  dsimp only
  rw [hread]
  simp only [Except.map, Entries.ofPairs_of_nodup hkeys]
  rfl

/-- However a document is written, its text is read as the document, as long as no object
in it holds a key twice and its containers do not nest deeper than the budget. -/
theorem Written.readsAs {v : Value} {text : List Char} (h : Written v text)
    (hkeys : v.DistinctKeys) (hnesting : v.nesting ≤ depth) :
    ReadsAs (readValue depth) text v := by
  -- every container leaves one level less to what it holds, so the budget varies
  induction h generalizing depth with
  | null => exact readsAs_null depth
  | bool b => exact readsAs_bool depth b
  | integer n => exact readsAs_integer depth n
  | string s => exact readsAs_string depth s
  | array hpad hblank _ ih =>
      obtain ⟨below, rfl, hbelow⟩ := Value.nesting_array_le_iff.1 hnesting
      have hinside := (Value.objectKeys_array_iff _).1 hkeys
      exact readsAs_array hpad hblank fun item hmem =>
        ih item hmem (hinside item hmem) (hbelow item hmem)
  | object hpad hgap hblank _ ih =>
      obtain ⟨below, rfl, hbelow⟩ := Value.nesting_object_le_iff.1 hnesting
      obtain ⟨hnodup, hinside⟩ := (Value.objectKeys_object_iff _).1 hkeys
      exact readsAs_object hpad hgap hblank hnodup fun member hmem =>
        ih member hmem (hinside member hmem) (hbelow member hmem)

/-! ### Whole texts -/

/-- The text of a document, with blanks behind it, is read as the document. -/
theorem document_of_written {v : Value} {text : List Char} (h : Written v text)
    (hkeys : v.DistinctKeys) (hnesting : v.nesting ≤ nestingLimit) {blank : List Char}
    (hblank : AllBlank blank) : document (text ++ blank) = .ok v := by
  have hend : Follows blank := by
    simpa using follows_append hblank follows_nil
  obtain ⟨hlt, hread⟩ := (h.readsAs hkeys hnesting).reads [] blank allBlank_nil hend
  change readValue nestingLimit (text ++ blank) = _ at hread
  rw [document, hread]
  simp only [bind, Except.bind, expectEnd, skipBlank_eq_nil hblank]
  rfl

end Json

/-- Output ends with the text of the document, or with a line feed behind it. -/
theorem exists_withFinalNewline_eq (text : List Char) :
    ∃ blank, Json.AllBlank blank ∧ withFinalNewline text = text ++ blank := by
  unfold withFinalNewline
  split
  · exact ⟨[], Json.allBlank_nil, (List.append_nil text).symm⟩
  · exact ⟨['\n'], by decide, rfl⟩

theorem parse_withFinalNewline (config : Config) {v : Value} {text : List Char}
    (h : Json.Written v text) (hkeys : v.DistinctKeys)
    (hnesting : v.nesting ≤ Json.nestingLimit) :
    parse config .json (String.ofList (withFinalNewline text)) = .ok v := by
  obtain ⟨blank, hblank, heq⟩ := exists_withFinalNewline_eq text
  rw [parse, parseJson, heq, String.toList_ofList,
    Json.document_of_written h hkeys hnesting hblank]
  rfl

/-- A document without doubles, in which no object holds a key twice and at most 127
containers are open at once, is read back from both JSON forms of output: every string and
every whole number is the same, and so is the order of the keys. -/
theorem parse_render_of_wholeNumbers {v : Value} (hnumbers : v.WholeNumbers)
    (hkeys : v.DistinctKeys) (hnesting : v.nesting ≤ 127) (config : Config) :
    parse config .json (render .json v) = .ok v ∧
      parse config .json (render .pretty v) = .ok v := by
  constructor
  · exact parse_withFinalNewline config (Json.written_compact hnumbers) hkeys hnesting
  · exact parse_withFinalNewline config (Json.written_pretty hnumbers 0) hkeys hnesting

/-- Empty containers, keys out of order, both ends of the whole numbers, and strings with
quotation marks, escapes, a control character and a character beyond 16 bits. -/
theorem parse_render_of_wholeNumbers_of_mixed_parts :
    let v := Value.object [("z", .array [.array [], .object [], .null, .bool false]),
      ("", .number (.integer Int64.minValue)), ("a\"\\\n", .number (.integer Int64.maxValue)),
      ("b", .string "\x00\x7f/\u2028😀")]
    v.WholeNumbers ∧ v.DistinctKeys ∧ v.nesting ≤ 127 ∧
      parse {} .json (render .json v) = .ok v ∧ parse {} .json (render .pretty v) = .ok v := by
  intro v
  have hnumbers : v.WholeNumbers := by decide
  have hkeys : v.DistinctKeys := by decide
  have hnesting : v.nesting ≤ 127 := by decide
  exact ⟨hnumbers, hkeys, hnesting, parse_render_of_wholeNumbers hnumbers hkeys hnesting {}⟩

end DocWeave
