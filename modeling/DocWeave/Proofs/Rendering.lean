/-
Documents as output.  Every form ends with the end of a line, and JSON on one line has no
other: no text and no number holds a line feed there.  The JSON text of a document without
doubles is read as the document again.
-/
import DocWeave.Proofs.Json.RoundTrip

namespace DocWeave

/-! ### Line feeds in numbers -/

namespace Decimal

theorem lineFeed_not_mem_toDigits (n : Nat) : '\n' ∉ Nat.toDigits 10 n := by
  intro hmem
  have hdigit : ('\n').isDigit := Nat.isDigit_of_mem_toDigits (by decide) (by decide) hmem
  exact absurd hdigit (by decide)

theorem Scientific.lineFeed_not_mem_positional (s : Scientific) {wholeMark : String}
    (h : '\n' ∉ wholeMark.toList) : '\n' ∉ (s.positional wholeMark).toList := by
  have hdigits := lineFeed_not_mem_toDigits s.coefficient
  rw [positional]
  dsimp only
  split
  · simp [hdigits]
  split
  · simp [hdigits, h]
  · have htake (count : Nat) : '\n' ∉ (Nat.toDigits 10 s.coefficient).take count :=
      mt List.mem_of_mem_take hdigits
    have hdrop (count : Nat) : '\n' ∉ (Nat.toDigits 10 s.coefficient).drop count :=
      mt List.mem_of_mem_drop hdigits
    simp [htake, hdrop]

theorem Scientific.lineFeed_not_mem_exponential (s : Scientific) {plus : String}
    (h : '\n' ∉ plus.toList) : '\n' ∉ (s.exponential plus).toList := by
  have hexponent : '\n' ∉ (Nat.repr s.exponent.natAbs).toList := by
    rw [Nat.toList_repr]
    exact lineFeed_not_mem_toDigits _
  have hdigits := lineFeed_not_mem_toDigits s.coefficient
  rw [exponential]
  split
  next first second rest hsplit =>
    rw [hsplit] at hdigits
    split <;> simp_all
  · split <;> simp_all

/-- A layout brings line feeds in only with its own words. -/
theorem Layout.lineFeed_not_mem_text (layout : Layout) (x : Float)
    (hmark : '\n' ∉ layout.wholeMark.toList) (hplus : '\n' ∉ layout.plus.toList)
    (hnan : '\n' ∉ layout.nan.toList) (hinfinity : '\n' ∉ layout.infinity.toList) :
    '\n' ∉ (layout.text x).toList := by
  have hsign : '\n' ∉ (if isNegative x then "-" else "").toList := by split <;> decide
  rw [text]
  split
  · exact hnan
  dsimp only
  split
  · simp [hsign, hinfinity]
  split
  · simp [hsign, Scientific.lineFeed_not_mem_positional _ hmark]
  · simp [hsign, Scientific.lineFeed_not_mem_exponential _ hplus]

end Decimal

/-! ### JSON on one line -/

namespace Json

theorem lineFeed_not_mem_numberText (n : Number) : '\n' ∉ numberText n := by
  cases n with
  | integer n =>
      rw [numberText]
      cases n.toInt with
      | ofNat m =>
          rw [Numeral.toList_toString_ofNat]
          exact Decimal.lineFeed_not_mem_toDigits m
      | negSucc m =>
          rw [Numeral.toList_toString_negSucc]
          simp [Decimal.lineFeed_not_mem_toDigits (m + 1)]
  | float x =>
      rw [numberText]
      split
      · exact numberLayout.lineFeed_not_mem_text x (by decide) (by decide) (by decide) (by decide)
      · decide

theorem lineFeed_not_mem_escape (c : Char) : '\n' ∉ Quoted.escape c := by
  by_cases hcontrol : c.toNat < 0x20
  · have hall : ∀ n < 0x20, '\n' ∉ Quoted.escape (Char.ofNat n) := by decide
    simpa using hall c.toNat hcontrol
  · have hc : c ≠ '\n' := by
      rintro rfl
      exact hcontrol (by decide)
    rw [Quoted.escape]
    split_ifs <;> simp_all [eq_comm]

theorem lineFeed_not_mem_quoted (text : String) : '\n' ∉ quoted text := by
  simp [quoted, Quoted.encode, lineFeed_not_mem_escape]

mutual

theorem lineFeed_not_mem_compact : (v : Value) → '\n' ∉ compact v
  | .null => by decide
  | .bool b => by cases b <;> decide
  | .number n => lineFeed_not_mem_numberText n
  | .string s => lineFeed_not_mem_quoted s
  | .array items => by
      have hitems := lineFeed_not_mem_compactItems items
      simp [compact, hitems]
  | .object members => by
      have hmembers := lineFeed_not_mem_compactMembers members
      simp [compact, hmembers]

theorem lineFeed_not_mem_compactItems : (items : List Value) → '\n' ∉ compactItems items
  | [] => List.not_mem_nil
  | [item] => lineFeed_not_mem_compact item
  | item :: next :: rest => by
      have hitem := lineFeed_not_mem_compact item
      have hrest := lineFeed_not_mem_compactItems (next :: rest)
      simp [compactItems, hitem, hrest]

theorem lineFeed_not_mem_compactMembers :
    (members : List (String × Value)) → '\n' ∉ compactMembers members
  | [] => List.not_mem_nil
  | [(key, value)] => by
      have hvalue := lineFeed_not_mem_compact value
      simp [compactMembers, lineFeed_not_mem_quoted, hvalue]
  | (key, value) :: next :: rest => by
      have hvalue := lineFeed_not_mem_compact value
      have hrest := lineFeed_not_mem_compactMembers (next :: rest)
      simp [compactMembers, lineFeed_not_mem_quoted, hvalue, hrest]

end

end Json

/-! ### Forms of output -/

/-- What a text shows of the document that it is in a form of output. -/
structure IsRendering (format : OutputFormat) (v : Value) (text : String) : Prop where
  ends : text.toList.getLast? = some '\n'
  /-- JSON on one line has a line feed at its end and nowhere else. -/
  oneLine : format = .json → text.toList.count '\n' = 1
  /-- Both JSON forms of a document without doubles are read as the document. -/
  reread : format ≠ .yaml → v.WholeNumbers → v.DistinctKeys → v.nesting ≤ 127 →
    ∀ config, parse config .json text = .ok v

theorem getLast?_withFinalNewline (text : List Char) :
    (withFinalNewline text).getLast? = some '\n' := by
  unfold withFinalNewline
  split
  next hlast => exact hlast
  next => exact List.getLast?_concat

theorem isRendering_render (format : OutputFormat) (v : Value) :
    IsRendering format v (render format v) where
  ends := by
    unfold render
    rw [String.toList_ofList]
    exact getLast?_withFinalNewline _
  oneLine := by
    rintro rfl
    have hfeed := Json.lineFeed_not_mem_compact v
    have hlast : (Json.compact v).getLast? ≠ some '\n' := fun hlast =>
      hfeed (List.mem_of_getLast? hlast)
    rw [render, String.toList_ofList, withFinalNewline, if_neg hlast, List.count_append,
      List.count_eq_zero_of_not_mem hfeed]
    rfl
  reread hformat hnumbers hkeys hnesting config := by
    cases format with
    | json => exact parse_withFinalNewline config (Json.written_compact hnumbers) hkeys hnesting
    | pretty => exact parse_withFinalNewline config (Json.written_pretty hnumbers 0) hkeys hnesting
    | yaml => exact absurd rfl hformat

end DocWeave
