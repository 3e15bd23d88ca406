/-
Whole numbers in JSON and in outlines.  The two formats read numbers in ways of their own; a
literal without zeros in front stands for the same number in both, but for zero with a minus
sign, which JSON reads as a double.
-/
import DocWeave.Proofs.Decimal.Spelling
import DocWeave.Proofs.Json.RoundTrip
import DocWeave.Proofs.Outline.QuotedKey
import DocWeave.Proofs.Outline.RoundTrip

namespace DocWeave

namespace Decimal

/-- Without zeros in front a number has one spelling, and zero has a second one. -/
theorem Whole.eq_toString {n : Int} {literal : List Char} (h : Whole n literal)
    (hzero : hasLeadingZero literal = false) :
    literal = (toString n).toList ∨ literal = ['-', '0'] ∧ n = 0 := by
  cases h with
  | plain hdigits =>
      have hspelled := toDigits_natOfDigits hdigits hzero
      exact Or.inl ((Json.Numeral.toList_toString_ofNat _).trans hspelled).symm
  | @minus digits hdigits =>
      rw [hasLeadingZero_minus hdigits] at hzero
      have hspelled := toDigits_natOfDigits hdigits hzero
      rcases hvalue : natOfDigits digits with _ | m
      · rw [hvalue] at hspelled
        exact Or.inr ⟨congrArg _ hspelled.symm, rfl⟩
      · rw [hvalue] at hspelled
        exact Or.inl ((Json.Numeral.toList_toString_negSucc m).trans (congrArg _ hspelled)).symm

theorem toString_ne_signed_zero (n : Int) : (toString n).toList ≠ ['-', '0'] := by
  intro heq
  have hread := Yaml.Outline.readInteger?_toString n
  rw [heq] at hread
  obtain rfl : 0 = n := Option.some.inj hread
  exact absurd heq (by decide)

theorem Whole.ne_nil {n : Int} {literal : List Char} (h : Whole n literal) : literal ≠ [] := by
  cases h with
  | plain hdigits => exact hdigits.1
  | minus => exact List.cons_ne_nil _ _

end Decimal

namespace Yaml.Outline

theorem isOrdinary_of_mem_whole {n : Int} {literal : List Char} (h : Decimal.Whole n literal) :
    ∀ c ∈ literal, IsOrdinary c := by
  cases h with
  | plain hdigits => exact fun c hc => isOrdinary_of_isDigit (hdigits.2 c hc)
  | minus hdigits =>
      rw [List.forall_mem_cons]
      exact ⟨by decide, fun c hc => isOrdinary_of_isDigit (hdigits.2 c hc)⟩

/-- A word behind a colon is the value of what stands in front of the colon. -/
theorem parse_append_word {key word : List Char} (hkey : ∀ c ∈ key, c ∉ ['\n', ':', '#'])
    (hne : word ≠ []) (hword : ∀ c ∈ word, IsOrdinary c) :
    parse (String.ofList (key ++ ':' :: ' ' :: word)) =
      .ok (.object [(String.ofList (unquote (trim key)), scalar word)]) := by
  have hmiss : ∀ c ∈ ['\n', ':', '#'], c ∉ key := fun c hc hmem => hkey c hmem hc
  have htrim : trim (' ' :: word) = word := by
    rw [← List.singleton_append, trim_append_of_isBlankText (by decide),
      trim_eq_self_of_not_isSpace fun c hc => (hword c hc).1]
  have hbehind : ¬ isBlankText (' ' :: word) := by
    rwa [← trim_eq_nil_iff, htrim]
  have hline : '\n' ∉ key ++ ':' :: ' ' :: word := by
    have hfeed : '\n' ∉ word := fun hmem => absurd (hword _ hmem) (by decide)
    simp [hmiss '\n' (by decide), hfeed]
  have hcomment : ¬ HasComment EndsReading (key ++ ':' :: ' ' :: word) := by
    have hsign : '#' ∉ word := fun hmem => absurd (hword _ hmem) (by decide)
    intro hcomment
    simpa [hmiss '#' (by decide), hsign] using hcomment.sign_mem
  rw [parse_append_colon hline (hmiss ':' (by decide)) hbehind hcomment, htrim]

/-- A literal without zeros in front stands for its number. -/
theorem scalar_whole {n : Int64} {literal : List Char} (h : Decimal.Whole n.toInt literal)
    (hzero : Decimal.hasLeadingZero literal = false) :
    scalar literal = .number (.integer n) := by
  rcases h.eq_toString hzero with rfl | ⟨rfl, hn⟩
  · exact scalar_toString n
  · obtain rfl : n = 0 := Int64.toInt.inj hn
    rfl

end Yaml.Outline

/-- A whole number is read from JSON as it is written there. -/
theorem parseJson_toString (n : Int64) :
    parseJson (toString n.toInt) = .ok (.number (.integer n)) := by
  have hkeys : (Value.number (.integer n)).DistinctKeys := .number _
  have hnesting : (Value.number (.integer n)).nesting ≤ Json.nestingLimit := Nat.zero_le _
  have hread := Json.document_of_written (.integer n) hkeys hnesting Json.allBlank_nil
  rw [List.append_nil] at hread
  exact congrArg (Except.mapError _) hread

/-- A literal without zeros in front, and whose value fits in 64 bits, stands for that value
in JSON and behind a key of an outline.  Only zero with a minus sign differs: in JSON it is a
double, the negative zero. -/
theorem parse_whole {n : Int64} {literal key : List Char} (h : Decimal.Whole n.toInt literal)
    (hzero : Decimal.hasLeadingZero literal = false) (hkey : ∀ c ∈ key, c ∉ ['\n', ':', '#'])
    (config : Config) :
    parse config .json (String.ofList literal) =
        .ok (.number (if literal = ['-', '0'] then .float (-0.0) else .integer n)) ∧
      parse config .yaml (String.ofList (key ++ ':' :: ' ' :: literal)) =
        .ok (.object [(String.ofList (Yaml.Outline.unquote (trim key)),
          .number (.integer n))]) := by
  constructor
  · rcases h.eq_toString hzero with rfl | ⟨rfl, -⟩
    · rw [if_neg (Decimal.toString_ne_signed_zero n.toInt), String.ofList_toList]
      exact parseJson_toString n
    · rfl
  · have hread := Yaml.Outline.parse_append_word hkey h.ne_nil
      (Yaml.Outline.isOrdinary_of_mem_whole h)
    rw [Yaml.Outline.scalar_whole h hzero] at hread
    exact congrArg (Except.mapError ParseError.yaml) hread

/-- The least whole number of 64 bits, behind a key with blanks and quotes. -/
theorem parse_whole_of_least :
    Decimal.Whole Int64.minValue.toInt "-9223372036854775808".toList ∧
      Decimal.hasLeadingZero "-9223372036854775808".toList = false ∧
      (∀ c ∈ " \"a b\" ".toList, c ∉ ['\n', ':', '#']) ∧
      parse {} .json "-9223372036854775808" = .ok (.number (.integer Int64.minValue)) ∧
      parse {} .yaml " \"a b\" : -9223372036854775808" =
        .ok (.object [("a b", .number (.integer Int64.minValue))]) := by
  have hwhole : Decimal.Whole Int64.minValue.toInt "-9223372036854775808".toList :=
    @Decimal.Whole.minus "9223372036854775808".toList (by decide)
  have hkey : ∀ c ∈ " \"a b\" ".toList, c ∉ ['\n', ':', '#'] := by simp
  exact ⟨hwhole, rfl, hkey, parse_whole hwhole rfl hkey {}⟩

/-- Zero with a minus sign is a double in JSON and a whole number in an outline. -/
theorem parse_signed_zero :
    Decimal.Whole 0 "-0".toList ∧ Decimal.hasLeadingZero "-0".toList = false ∧
      parse {} .json "-0" = .ok (.number (.float (-0.0))) ∧
      parse {} .json "-0" ≠ .ok (.number (.integer 0)) ∧
      parse {} .yaml "k: -0" = .ok (.object [("k", .number (.integer 0))]) := by
  have hwhole : Decimal.Whole 0 "-0".toList := @Decimal.Whole.minus ['0'] (by decide)
  have hjson : parse {} .json "-0" = .ok (.number (.float (-0.0))) := rfl
  refine ⟨hwhole, rfl, hjson, fun hwrong => ?_, rfl⟩
  cases hjson.symm.trans hwrong

end DocWeave
