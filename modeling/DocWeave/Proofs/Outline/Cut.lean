/-
Cutting a line at its first comment.  What tells where a comment starts is left open: it is
asked at each number sign and sees what stands in front of it.
-/
import Mathlib.Data.List.Induction

namespace DocWeave.Yaml.Outline

variable {starts starts' : List Char → Prop}

/-- A comment starts inside the beginning of a line. -/
def HasComment (starts : List Char → Prop) (before : List Char) : Prop :=
  ∃ earlier later, before = earlier ++ '#' :: later ∧ starts earlier

/-- A line up to its first comment, or all of it if it has none. -/
structure IsCut (starts : List Char → Prop) (line cut : List Char) : Prop where
  ends : cut = line ∨ ∃ rest, line = cut ++ '#' :: rest ∧ starts cut
  first : ¬ HasComment starts cut

theorem HasComment.mono {text : List Char} (h : HasComment starts text)
    (hle : ∀ front, starts front → starts' front) : HasComment starts' text := by
  obtain ⟨earlier, later, htext, hstarts⟩ := h
  exact ⟨earlier, later, htext, hle earlier hstarts⟩

theorem HasComment.sign_mem {text : List Char} (h : HasComment starts text) : '#' ∈ text := by
  obtain ⟨earlier, later, rfl, -⟩ := h
  simp

theorem not_hasComment_nil : ¬ HasComment starts [] :=
  fun h => List.not_mem_nil h.sign_mem

theorem hasComment_append (before text : List Char) :
    HasComment starts (before ++ text) ↔
      HasComment starts before ∨ HasComment (fun front => starts (before ++ front)) text := by
  constructor
  · rintro ⟨earlier, later, heq, hstarts⟩
    rcases List.append_eq_append_iff.1 heq with ⟨front, rfl, htext⟩ | ⟨back, rfl, hsign⟩
    · exact Or.inr ⟨front, later, htext, hstarts⟩
    · rcases List.cons_eq_append_iff.1 hsign with ⟨rfl, htext⟩ | ⟨behind, rfl, -⟩
      · exact Or.inr ⟨[], later, htext, by simpa using hstarts⟩
      · exact Or.inl ⟨earlier, behind, rfl, hstarts⟩
  · rintro (⟨earlier, later, rfl, hstarts⟩ | ⟨front, later, rfl, hstarts⟩)
    · exact ⟨earlier, later ++ text, by simp, hstarts⟩
    · exact ⟨before ++ front, later, by simp, hstarts⟩

theorem hasComment_singleton (c : Char) : HasComment starts [c] ↔ c = '#' ∧ starts [] := by
  constructor
  · rintro ⟨earlier, later, heq, hstarts⟩
    rcases List.singleton_eq_append_iff.1 heq with ⟨rfl, hc⟩ | ⟨-, hnil⟩
    · exact ⟨(List.cons.inj hc).1.symm, hstarts⟩
    · exact absurd hnil (List.cons_ne_nil _ _)
  · rintro ⟨rfl, hstarts⟩
    exact ⟨[], [], rfl, hstarts⟩

theorem hasComment_concat (before : List Char) (c : Char) :
    HasComment starts (before ++ [c]) ↔ HasComment starts before ∨ c = '#' ∧ starts before := by
  rw [hasComment_append, hasComment_singleton, List.append_nil]

instance [DecidablePred starts] : DecidablePred (HasComment starts) := fun before =>
  decidable_of_iff (∃ n < before.length, before[n]? = some '#' ∧ starts (before.take n)) <| by
    constructor
    · rintro ⟨n, hn, hsign, hstarts⟩
      refine ⟨before.take n, before.drop (n + 1), ?_, hstarts⟩
      obtain ⟨hlt, hget⟩ := List.getElem?_eq_some_iff.1 hsign
      rw [← hget, List.getElem_cons_drop, List.take_append_drop]
    · rintro ⟨earlier, later, rfl, hstarts⟩
      exact ⟨earlier.length, by simp, by simp, by simpa using hstarts⟩

/-- The first of the comments of a line has none in front of it. -/
theorem HasComment.exists_first {before : List Char} (h : HasComment starts before) :
    ∃ earlier later, before = earlier ++ '#' :: later ∧ starts earlier ∧
      ¬ HasComment starts earlier := by
  induction before using List.reverseRecOn with
  | nil => exact absurd h not_hasComment_nil
  | append_singleton before c ih =>
      by_cases hbefore : HasComment starts before
      · obtain ⟨earlier, later, rfl, hstarts, hfirst⟩ := ih hbefore
        exact ⟨earlier, later ++ [c], by simp, hstarts, hfirst⟩
      · obtain ⟨rfl, hstarts⟩ := ((hasComment_concat before c).1 h).resolve_left hbefore
        exact ⟨before, [], rfl, hstarts, hbefore⟩

theorem IsCut.isPrefix {line cut : List Char} (h : IsCut starts line cut) : cut <+: line := by
  rcases h.ends with rfl | ⟨rest, rfl, -⟩
  · exact List.prefix_rfl
  · exact List.prefix_append cut _

theorem IsCut.isPrefix_of_isCut {line cut cut' : List Char} (h : IsCut starts line cut)
    (h' : IsCut starts line cut') : cut <+: cut' := by
  rcases h'.ends with rfl | ⟨rest, hline, hstarts⟩
  · exact h.isPrefix
  · rcases List.prefix_or_prefix_of_prefix h.isPrefix h'.isPrefix with hle | ⟨more, rfl⟩
    · exact hle
    · -- The longer of two cuts would hold the comment that the shorter one ends at.
      have hmore : more <+: '#' :: rest := by
        have hle := h.isPrefix
        rwa [hline, List.prefix_append_right_inj] at hle
      rcases List.prefix_cons_iff.1 hmore with rfl | ⟨later, rfl, -⟩
      · exact (List.append_nil cut').symm ▸ List.prefix_rfl
      · exact absurd ⟨cut', later, rfl, hstarts⟩ h.first

/-- A line has one cut only. -/
theorem IsCut.unique {line cut cut' : List Char} (h : IsCut starts line cut)
    (h' : IsCut starts line cut') : cut = cut' :=
  (h.isPrefix_of_isCut h').eq_of_length_le (h'.isPrefix_of_isCut h).length_le

theorem IsCut.starts_iff {line cut before rest : List Char} (h : IsCut starts line cut)
    (hline : line = before ++ '#' :: rest) (hfirst : ¬ HasComment starts before) :
    starts before ↔ before = cut := by
  constructor
  · intro hstarts
    exact IsCut.unique ⟨Or.inr ⟨rest, hline, hstarts⟩, hfirst⟩ h
  · rintro rfl
    rcases h.ends with hwhole | ⟨_, -, hstarts⟩
    · rw [hwhole] at hline
      simp at hline
    · exact hstarts

/-- Two readers cut a line at one place exactly if they agree on each number sign up to the
first comment. -/
theorem IsCut.isCut_iff {line cut : List Char} (h : IsCut starts line cut) :
    IsCut starts' line cut ↔ ∀ before rest, line = before ++ '#' :: rest →
      ¬ HasComment starts' before → (starts before ↔ starts' before) := by
  constructor
  · intro h' before rest hline hfirst'
    have hfirst : ¬ HasComment starts before := by
      intro hcomment
      obtain ⟨earlier, later, rfl, hstarts, hfirst⟩ := hcomment.exists_first
      rw [List.append_assoc, List.cons_append] at hline
      obtain rfl := (h.starts_iff hline hfirst).1 hstarts
      exact hfirst' ⟨earlier, later, rfl, (h'.starts_iff hline h'.first).2 rfl⟩
    rw [h.starts_iff hline hfirst, h'.starts_iff hline hfirst']
  · intro hagree
    have hfirst' : ¬ HasComment starts' cut := by
      intro hcomment
      obtain ⟨earlier, later, rfl, hstarts', hnone⟩ := hcomment.exists_first
      obtain ⟨rest, hline⟩ := h.isPrefix
      rw [List.append_assoc, List.cons_append] at hline
      have hstarts := (hagree earlier _ hline.symm hnone).2 hstarts'
      exact h.first ⟨earlier, later, rfl, hstarts⟩
    refine ⟨?_, hfirst'⟩
    rcases h.ends with hwhole | ⟨rest, hline, hstarts⟩
    · exact Or.inl hwhole
    · exact Or.inr ⟨rest, hline, (hagree cut rest hline hfirst').1 hstarts⟩

end DocWeave.Yaml.Outline
