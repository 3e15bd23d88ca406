/-
Where a line is cut and what of it is kept.  Both can be told of each place of the line by
itself, from the quotes in front of it and the character behind it, and reading the line from
front to back comes to the same.
-/
import Mathlib.Algebra.Ring.Parity
import DocWeave.Proofs.Csv.RoundTrip

namespace DocWeave.Csv

def quotesBefore (chars : List Char) (i : Nat) : Nat :=
  (chars.take i).count '"'

/-- Fields are separated by the commas that stand behind an even number of quotes. -/
def isSeparator (chars : List Char) (i : Nat) : Bool :=
  chars[i]? = some ',' && decide (Even (quotesBefore chars i))

/-- What the text of a field has from a place: every character but a quote, and a quote only
from the first of two that stand behind an odd number of quotes.  Two such pairs have no place
in common, since the second quote of a pair stands behind an even number. -/
def kept (chars : List Char) (i : Nat) : List Char :=
  match chars[i]? with
  | none => []
  | some '"' => if Odd (quotesBefore chars i) ∧ chars[i + 1]? = some '"' then ['"'] else []
  | some c => [c]

/-- The texts of the fields that places in a row make up. -/
def textsAt (line : List Char) (places : List Nat) : List (List Char) :=
  (places.splitOnP (isSeparator line)).map fun field => field.flatMap (kept line)

theorem textsAt_cons_of_separator {line : List Char} {i : Nat} (h : isSeparator line i)
    (places : List Nat) : textsAt line (i :: places) = [] :: textsAt line places := by
  rw [textsAt, List.splitOnP_cons_eq_if_modifyHead, if_pos h]
  rfl

theorem textsAt_cons {line : List Char} {i : Nat} (h : ¬ isSeparator line i)
    (places : List Nat) :
    textsAt line (i :: places) = (kept line i).foldr consField (textsAt line places) := by
  obtain ⟨field, fields, hsplit⟩ :=
    List.exists_cons_of_ne_nil (List.splitOnP_ne_nil (isSeparator line) places)
  rw [textsAt, List.splitOnP_cons_eq_if_modifyHead, if_neg h, textsAt, hsplit,
    List.modifyHead_cons, List.map_cons, List.map_cons, List.flatMap_cons, foldr_consField]

theorem length_textsAt (line : List Char) (places : List Nat) :
    (textsAt line places).length = places.countP (isSeparator line) + 1 := by
  induction places with
  | nil => rfl
  | cons i places ih =>
      by_cases h : isSeparator line i
      · rw [textsAt_cons_of_separator h, List.length_cons, ih, List.countP_cons_of_pos h]
      · rw [List.countP_cons_of_neg h, ← ih, textsAt, textsAt,
          List.splitOnP_cons_eq_if_modifyHead, if_neg h]
        simp

/-! ### The rest of a line -/

theorem quotesBefore_length (before rest : List Char) :
    quotesBefore (before ++ rest) before.length = before.count '"' := by
  rw [quotesBefore, List.take_left]

theorem isSeparator_length (before : List Char) (c : Char) (rest : List Char) :
    isSeparator (before ++ c :: rest) before.length =
      (c = ',' && decide (Even (before.count '"'))) := by
  simp [isSeparator, quotesBefore_length]

theorem kept_length {c : Char} (h : c ≠ '"') (before rest : List Char) :
    kept (before ++ c :: rest) before.length = [c] := by
  simp [kept]

theorem kept_quote (before rest : List Char) :
    kept (before ++ '"' :: rest) before.length =
      if Odd (before.count '"') ∧ rest.head? = some '"' then ['"'] else [] := by
  have hnext : (before ++ '"' :: rest)[before.length + 1]? = rest.head? := by
    simp [List.getElem?_append_right, List.head?_eq_getElem?]
  simp [kept, quotesBefore_length, hnext]

def textsBehind (before rest : List Char) : List (List Char) :=
  textsAt (before ++ rest) (List.range' before.length rest.length)

theorem textsBehind_cons_eq (before : List Char) (c : Char) (rest : List Char) :
    textsBehind before (c :: rest) = textsAt (before ++ c :: rest) (before.length ::
      List.range' (before ++ [c]).length rest.length) := by
  rw [textsBehind, List.length_cons, List.range'_succ, List.length_append]
  rfl

theorem textsBehind_separator {before : List Char} (h : Even (before.count '"'))
    (rest : List Char) :
    textsBehind before (',' :: rest) = [] :: textsBehind (before ++ [',']) rest := by
  have hseparator : isSeparator (before ++ ',' :: rest) before.length := by
    simp [isSeparator_length, h]
  rw [textsBehind_cons_eq, textsAt_cons_of_separator hseparator, textsBehind, List.append_cons]

theorem textsBehind_cons {before : List Char} {c : Char} (hquote : c ≠ '"')
    (hcomma : c = ',' → ¬ Even (before.count '"')) (rest : List Char) :
    textsBehind before (c :: rest) = consField c (textsBehind (before ++ [c]) rest) := by
  have hseparator : ¬ isSeparator (before ++ c :: rest) before.length := by
    simpa [isSeparator_length] using hcomma
  rw [textsBehind_cons_eq, textsAt_cons hseparator, kept_length hquote, textsBehind,
    List.append_cons]
  rfl

theorem textsBehind_quote (before rest : List Char) :
    textsBehind before ('"' :: rest) =
      if Odd (before.count '"') ∧ rest.head? = some '"' then
        consField '"' (textsBehind (before ++ ['"']) rest)
      else textsBehind (before ++ ['"']) rest := by
  have hseparator : ¬ isSeparator (before ++ '"' :: rest) before.length := by
    simp [isSeparator_length]
  rw [textsBehind_cons_eq, textsAt_cons hseparator, kept_quote, textsBehind, List.append_cons]
  split <;> rfl

/-- Reading goes on inside quotes exactly behind an odd number of them, and so it finds the
texts that the places from there on make up. -/
theorem rawFields_eq_textsBehind {inQuotes : Bool} {before : List Char}
    (h : inQuotes = true ↔ Odd (before.count '"')) (rest : List Char) :
    rawFields inQuotes rest = textsBehind before rest := by
  have odd_behind_quote (before : List Char) :
      Odd ((before ++ ['"']).count '"') ↔ ¬ Odd (before.count '"') := by
    rw [List.count_append, List.count_singleton_self, Nat.odd_add_one]
  have odd_behind {before : List Char} {c : Char} (hquote : c ≠ '"') :
      Odd ((before ++ [c]).count '"') ↔ Odd (before.count '"') := by
    simp [hquote]
  induction inQuotes, rest using rawFields.induct generalizing before with
  | case1 => rfl
  | case2 after ih =>
      -- of a pair the first quote is kept, and the second one is outside
      have hodd := h.1 rfl
      have houtside : ¬ Odd ((before ++ ['"']).count '"') := by
        rwa [odd_behind_quote, not_not]
      have hinside : true = true ↔ Odd ((before ++ ['"'] ++ ['"']).count '"') := by
        rwa [odd_behind_quote, iff_true_left rfl]
      rw [rawFields, if_pos rfl, textsBehind_quote, if_pos ⟨hodd, rfl⟩, textsBehind_quote,
        if_neg fun hpair => houtside hpair.1, ih hinside]
  | case3 rest hsingle ih =>
      have hodd := h.1 rfl
      have hlast : rest.head? ≠ some '"' := fun hhead => by
        obtain ⟨after, rfl⟩ := List.head?_eq_some_iff.1 hhead
        exact hsingle after rfl
      rw [rawFields_closing hlast, textsBehind_quote, if_neg fun hpair => hlast hpair.2]
      exact ih ((iff_false_left Bool.false_ne_true).2 fun hbehind =>
        (odd_behind_quote before).1 hbehind hodd)
  | case4 inQuotes rest hout ih =>
      obtain rfl : inQuotes = false := by simpa using hout
      have heven : ¬ Odd (before.count '"') := fun hodd => hout (h.2 hodd)
      rw [rawFields_opening, textsBehind_quote, if_neg fun hpair => heven hpair.1]
      exact ih ((iff_true_left rfl).2 ((odd_behind_quote before).2 heven))
  | case5 inQuotes c rest hquote hcomma ih =>
      obtain ⟨rfl, rfl⟩ : c = ',' ∧ inQuotes = false := by simpa using hcomma
      have heven : Even (before.count '"') := by
        rw [← Nat.not_odd_iff_even, ← h]
        exact Bool.false_ne_true
      rw [textsBehind_separator heven, ← ih]
      · rfl
      · rwa [odd_behind hquote]
  | case6 inQuotes c rest hquote hcomma ih =>
      have hinside : c = ',' → inQuotes = true := by simpa using hcomma
      rw [rawFields_cons hquote hinside, textsBehind_cons hquote, ih]
      · rwa [odd_behind hquote]
      · intro heq
        rw [Nat.not_even_iff_odd, ← h]
        exact hinside heq

/-- A line is cut exactly at the commas that stand behind an even number of quotes, so that
there is one more field than there are such commas.  What a field has from its stretch of the
line, before white space is trimmed off, is every character but the quotes, and one quote for
each pair of them that stands behind an odd number of quotes. -/
theorem fields_eq_textsAt (line : List Char) :
    rawFields false line = textsAt line (List.range line.length) ∧
      fields line = (textsAt line (List.range line.length)).map
        (fun text => String.ofList (trim text)) ∧
      (fields line).length = (List.range line.length).countP (isSeparator line) + 1 := by
  have htexts : rawFields false line = textsAt line (List.range line.length) := by
    rw [List.range_eq_range']
    have houtside : false = true ↔ Odd (List.count '"' []) := by simp
    exact rawFields_eq_textsBehind houtside line
  refine ⟨htexts, ?_, ?_⟩
  · rw [fields, htexts]
  · rw [fields, htexts, List.length_map, length_textsAt]

example : fields "a, \"b, c\" ,\"say \"\"hi\"\"\",,".toList =
    ["a", "b, c", "say \"hi\"", "", ""] := by cbv

end DocWeave.Csv
