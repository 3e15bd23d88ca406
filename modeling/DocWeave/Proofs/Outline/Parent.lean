/-
An outline read without a stack: every line names its parent, and an object holds the
lines whose parent opened it, in the order of the text.
-/
import DocWeave.Proofs.Outline.Block

namespace DocWeave.Yaml.Outline

/-! ### Parents -/

/-- Whether a line opens a block that a later line lies in: all lines behind the opening
one, up to and including the later one, are deeper than it. -/
def encloses (ls : List Line) (opener place : Nat) : Bool :=
  match ls[opener]? with
  | some line =>
      line.value.isNone &&
        ((ls.take (place + 1)).drop (opener + 1)).all (isDeeper line.indent)
  | none => false

/-- The last earlier line whose block a line lies in; none where it lies in no block. -/
def parent (ls : List Line) (place : Nat) : Option Nat :=
  ((List.range place).filter fun opener => encloses ls opener place).getLast?

def children (ls : List Line) (owner : Option Nat) : List (Line × Nat) :=
  ls.zipIdx.filter fun child => parent ls child.2 = owner

theorem encloses_iff {ls : List Line} {opener place : Nat} {line : Line}
    (hline : ls[opener]? = some line) :
    encloses ls opener place ↔ line.value = none ∧
      ∀ k l, opener < k → k ≤ place → ls[k]? = some l → isDeeper line.indent l := by
  rw [encloses, hline]
  simp only [Bool.and_eq_true, Option.isNone_iff_eq_none, List.all_eq_true]
  refine and_congr_right fun _ => ⟨?_, ?_⟩
  · intro h k l hlt hle hl
    apply h l
    rw [List.mem_iff_getElem?]
    refine ⟨k - (opener + 1), ?_⟩
    rw [List.getElem?_drop, Nat.add_sub_cancel' hlt, List.getElem?_take_of_lt (by omega), hl]
  · intro h l hl
    obtain ⟨k, hk⟩ := List.mem_iff_getElem?.1 hl
    rw [List.getElem?_drop, List.getElem?_take] at hk
    split at hk
    · exact h (opener + 1 + k) l (by omega) (by omega) hk
    · cases hk

theorem mem_of_parent_eq_some {ls : List Line} {opener place : Nat}
    (h : parent ls place = some opener) : opener < place ∧ encloses ls opener place := by
  have hmem := List.mem_of_getLast? h
  rwa [List.mem_filter, List.mem_range] at hmem

/-- A line that lies in a block has its parent in the opening line or behind it. -/
theorem exists_parent_of_encloses {ls : List Line} {opener place : Nat}
    (hlt : opener < place) (h : encloses ls opener place) :
    ∃ last, parent ls place = some last ∧ opener ≤ last := by
  have hmem : opener ∈ (List.range place).filter fun opener => encloses ls opener place :=
    List.mem_filter.2 ⟨List.mem_range.2 hlt, h⟩
  cases hlast : parent ls place with
  | none =>
      rw [List.getLast?_eq_none_iff.1 hlast] at hmem
      cases hmem
  | some last =>
      obtain ⟨front, heq⟩ := List.getLast?_eq_some_iff.1 hlast
      have hsorted := (List.pairwise_lt_range (n := place)).filter fun opener =>
        encloses ls opener place
      rw [heq, List.pairwise_append] at hsorted
      rw [heq, List.mem_append, List.mem_singleton] at hmem
      refine ⟨last, rfl, ?_⟩
      rcases hmem with hfront | rfl
      · exact Nat.le_of_lt (hsorted.2.2 opener hfront last (by simp))
      · exact Nat.le_refl _

/-- How many lines lie behind an owner; the outline itself is before all of them. -/
def linesBehind (ls : List Line) (owner : Option Nat) : Nat :=
  ls.length - owner.elim 0 (· + 1)

theorem linesBehind_lt_of_mem_children {ls : List Line} {owner : Option Nat}
    {child : Line × Nat} (h : child ∈ children ls owner) :
    linesBehind ls (some child.2) < linesBehind ls owner := by
  obtain ⟨hmem, howner⟩ := List.mem_filter.1 h
  have hlt : child.2 < ls.length := by simpa using List.snd_lt_of_mem_zipIdx hmem
  cases owner with
  | none =>
      simp only [linesBehind, Option.elim_some, Option.elim_none]
      omega
  | some opener =>
      have := (mem_of_parent_eq_some (of_decide_eq_true howner)).1
      simp only [linesBehind, Option.elim_some]
      omega

/-- The object that a line opens, or the whole outline: the lines whose parent it is are
written in the order of the text, each with its scalar or with the object that it opens
itself. -/
def blockOf (ls : List Line) (owner : Option Nat) : Entries Value :=
  Entries.ofPairs ((children ls owner).attach.map fun child =>
    (child.1.1.key, child.1.1.value.getD (.object (blockOf ls (some child.1.2)))))
termination_by linesBehind ls owner
decreasing_by exact linesBehind_lt_of_mem_children child.2

def entryOf (ls : List Line) (child : Line × Nat) : String × Value :=
  (child.1.key, child.1.value.getD (.object (blockOf ls (some child.2))))

theorem blockOf_eq (ls : List Line) (owner : Option Nat) :
    blockOf ls owner = Entries.ofPairs ((children ls owner).map (entryOf ls)) := by
  rw [blockOf, ← List.attach_map_val (f := entryOf ls)]
  rfl

/-! ### Stretches of lines -/

/-- Consecutive lines that belong together: each has the owner or a line among them as
its parent, and no later line has its parent among them. -/
structure Stretch (ls : List Line) (owner : Option Nat) (start stop : Nat) : Prop where
  lt_start : ∀ opener, owner = some opener → opener < start
  inside : ∀ place, start ≤ place → place < stop →
    parent ls place = owner ∨ ∃ opener, parent ls place = some opener ∧ start ≤ opener
  outside : ∀ place opener, stop ≤ place → place < ls.length → start ≤ opener →
    opener < stop → parent ls place ≠ some opener

theorem Stretch.whole (ls : List Line) : Stretch ls none 0 ls.length where
  lt_start _ h := by cases h
  inside place _ _ := by
    cases h : parent ls place with
    | none => exact .inl rfl
    | some opener => exact .inr ⟨opener, rfl, Nat.zero_le _⟩
  outside _ _ hstop hlt := absurd hlt (Nat.not_lt_of_le hstop)

variable {ls : List Line} {owner : Option Nat} {start stop : Nat} {line : Line}

/-- The first line of a stretch has the owner as its parent. -/
theorem Stretch.parent_start (h : Stretch ls owner start stop) (hlt : start < stop) :
    parent ls start = owner := by
  rcases h.inside start (Nat.le_refl _) hlt with howner | ⟨opener, hopener, hle⟩
  · exact howner
  · have := (mem_of_parent_eq_some hopener).1
    omega

theorem Stretch.tail_of_value (h : Stretch ls owner start stop)
    (hline : ls[start]? = some line) {value : Value} (hvalue : line.value = some value) :
    Stretch ls owner (start + 1) stop where
  lt_start opener hopener := Nat.lt_succ_of_lt (h.lt_start opener hopener)
  inside place hle hlt := by
    rcases h.inside place (Nat.le_of_succ_le hle) hlt with howner | ⟨opener, hopener, hstart⟩
    · exact .inl howner
    · refine .inr ⟨opener, hopener, ?_⟩
      rcases Nat.lt_or_eq_of_le hstart with hlt | rfl
      · exact hlt
      · have hnone := ((encloses_iff hline).1 (mem_of_parent_eq_some hopener).2).1
        rw [hvalue] at hnone
        cases hnone
  outside place opener hstop hlt hstart :=
    h.outside place opener hstop hlt (Nat.le_of_succ_le hstart)

/-- A line that opens a block, the place where the deeper lines behind it end, and the
stretch that all of this is the front of. -/
structure Opening (ls : List Line) (owner : Option Nat) (start middle stop : Nat)
    (line : Line) : Prop where
  stretch : Stretch ls owner start stop
  getElem?_start : ls[start]? = some line
  value_eq : line.value = none
  start_lt : start < middle
  middle_le : middle ≤ stop
  deeper : ∀ place l, start < place → place < middle → ls[place]? = some l →
    isDeeper line.indent l
  not_deeper : middle < stop → ∃ l, ls[middle]? = some l ∧ ¬ isDeeper line.indent l

variable {middle : Nat}

/-- No line behind the block has its parent in the opening line or in the block. -/
theorem Opening.parent_ne (h : Opening ls owner start middle stop line)
    {place opener : Nat} (hmiddle : middle ≤ place) (hlt : place < ls.length)
    (hstart : start ≤ opener) (hopener : opener < middle) :
    parent ls place ≠ some opener := by
  rcases Nat.lt_or_eq_of_le h.middle_le with hstop | hstop
  · intro hparent
    obtain ⟨next, hnext, hnot⟩ := h.not_deeper hstop
    have hencloses := (mem_of_parent_eq_some hparent).2
    rcases Nat.lt_or_eq_of_le hstart with hinside | rfl
    · have hlen : opener < ls.length := by omega
      have hdeep := h.deeper opener _ hinside hopener (List.getElem?_eq_getElem hlen)
      have hnextDeep := ((encloses_iff (List.getElem?_eq_getElem hlen)).1 hencloses).2
        middle next hopener hmiddle hnext
      apply hnot
      simp only [isDeeper, decide_eq_true_eq] at hdeep hnextDeep ⊢
      omega
    · exact hnot (((encloses_iff h.getElem?_start).1 hencloses).2
        middle next hopener hmiddle hnext)
  · exact h.stretch.outside place opener (hstop ▸ hmiddle) hlt hstart (hstop ▸ hopener)

theorem Opening.encloses (h : Opening ls owner start middle stop line) {place : Nat}
    (hlt : place < middle) : encloses ls start place :=
  (encloses_iff h.getElem?_start).2 ⟨h.value_eq, fun k l hk hle hl =>
    h.deeper k l hk (Nat.lt_of_le_of_lt hle hlt) hl⟩

/-- The deeper lines are a stretch of their own, owned by the opening line. -/
theorem Opening.inner (h : Opening ls owner start middle stop line) :
    Stretch ls (some start) (start + 1) middle where
  lt_start opener hopener := by
    cases hopener
    exact Nat.lt_succ_self start
  inside place hle hlt := by
    obtain ⟨last, hlast, hstart⟩ := exists_parent_of_encloses hle (h.encloses hlt)
    rcases Nat.lt_or_eq_of_le hstart with hinside | rfl
    · exact .inr ⟨last, hlast, hinside⟩
    · exact .inl hlast
  outside _ _ hmiddle hlt hstart hopener :=
    h.parent_ne hmiddle hlt (Nat.le_of_succ_le hstart) hopener

/-- What follows the block is a stretch with the same owner. -/
theorem Opening.outer (h : Opening ls owner start middle stop line) (hlen : stop ≤ ls.length) :
    Stretch ls owner middle stop where
  lt_start opener hopener := Nat.lt_trans (h.stretch.lt_start opener hopener) h.start_lt
  inside place hle hlt := by
    have hstart := Nat.le_of_lt h.start_lt
    rcases h.stretch.inside place (Nat.le_trans hstart hle) hlt with howner | ⟨opener, hopener, hge⟩
    · exact .inl howner
    · refine .inr ⟨opener, hopener, ?_⟩
      by_contra hlow
      exact h.parent_ne hle (by omega) hge (by omega) hopener
  outside place opener hstop hlt hmiddle :=
    h.stretch.outside place opener hstop hlt (Nat.le_trans (Nat.le_of_lt h.start_lt) hmiddle)

/-! ### The lines of a stretch -/

/-- Lines from a place on, as far as their parent is the owner. -/
def ownLines (ls : List Line) (owner : Option Nat) (start : Nat) (lines : List Line) :
    List (Line × Nat) :=
  (lines.zipIdx start).filter fun child => parent ls child.2 = owner

theorem ownLines_cons (ls : List Line) (owner : Option Nat) (start : Nat) (line : Line)
    (rest : List Line) :
    ownLines ls owner start (line :: rest) =
      (if parent ls start = owner then [(line, start)] else []) ++
        ownLines ls owner (start + 1) rest := by
  rw [ownLines, List.zipIdx_cons, List.filter_cons]
  by_cases h : parent ls start = owner <;> simp [h, ownLines]

theorem ownLines_append (ls : List Line) (owner : Option Nat) (start : Nat)
    (first second : List Line) :
    ownLines ls owner start (first ++ second) =
      ownLines ls owner start first ++ ownLines ls owner (start + first.length) second := by
  rw [ownLines, List.zipIdx_append, List.filter_append]
  rfl

theorem ownLines_eq_nil {ls : List Line} {owner : Option Nat} {start : Nat}
    {lines : List Line}
    (h : ∀ place, start ≤ place → place < start + lines.length → parent ls place ≠ owner) :
    ownLines ls owner start lines = [] := by
  rw [ownLines, List.filter_eq_nil_iff]
  intro child hchild
  have hle := List.le_snd_of_mem_zipIdx hchild
  have hlt := List.snd_lt_add_of_mem_zipIdx hchild
  simpa using h child.2 hle (by omega)

/-- An opening line in front of deeper lines, and others from the first that is not. -/
theorem Opening.of_append {before inner outer after : List Line}
    (hls : ls = before ++ line :: (inner ++ outer) ++ after)
    (hstretch : Stretch ls owner before.length
      (before.length + 1 + inner.length + outer.length))
    (hvalue : line.value = none) (hinner : ∀ l ∈ inner, isDeeper line.indent l)
    (houter : ∀ l ∈ outer.head?, ¬ isDeeper line.indent l) :
    Opening ls owner before.length (before.length + 1 + inner.length)
      (before.length + 1 + inner.length + outer.length) line where
  stretch := hstretch
  getElem?_start := by simp [hls]
  value_eq := hvalue
  start_lt := by omega
  middle_le := by omega
  deeper place l hlt hmiddle hl := by
    obtain ⟨k, rfl⟩ := Nat.exists_eq_add_of_lt hlt
    have hk : k < inner.length := by omega
    apply hinner l
    rw [List.mem_iff_getElem?]
    refine ⟨k, ?_⟩
    rw [← hl, hls, Nat.add_assoc, List.append_assoc,
      List.getElem?_append_right (Nat.le_add_right _ _), Nat.add_sub_cancel_left]
    simp [List.getElem?_append_left, hk]
  not_deeper hlt := by
    cases outer with
    | nil => simp at hlt
    | cons next more =>
        refine ⟨next, ?_, houter next rfl⟩
        rw [hls, Nat.add_assoc, List.append_assoc,
          List.getElem?_append_right (Nat.le_add_right _ _), Nat.add_sub_cancel_left,
          Nat.add_comm 1]
        simp

/-- The children of an opening line are the deeper lines behind it whose parent it is. -/
theorem Opening.children_eq {before inner rest : List Line} {stop : Nat}
    (hls : ls = before ++ line :: (inner ++ rest))
    (h : Opening ls owner before.length (before.length + 1 + inner.length) stop line) :
    children ls (some before.length) =
      ownLines ls (some before.length) (before.length + 1) inner := by
  have hbefore : ownLines ls (some before.length) 0 before = [] := by
    apply ownLines_eq_nil
    intro place _ hlt hparent
    have := (mem_of_parent_eq_some hparent).1
    omega
  have hline : parent ls before.length ≠ some before.length := fun hparent =>
    absurd (mem_of_parent_eq_some hparent).1 (Nat.lt_irrefl _)
  have hrest : ownLines ls (some before.length) (before.length + 1 + inner.length) rest =
      [] := by
    apply ownLines_eq_nil
    intro place hle hlt
    apply h.parent_ne hle _ (Nat.le_refl _) h.start_lt
    rw [hls]
    simp only [List.length_append, List.length_cons]
    omega
  have hwhole : ownLines ls (some before.length) 0 (before ++ line :: (inner ++ rest)) =
      ownLines ls (some before.length) (before.length + 1) inner := by
    rw [ownLines_append, hbefore, ownLines_cons, Nat.zero_add, if_neg hline, ownLines_append,
      hrest]
    simp
  rwa [← hls] at hwhole

/-- Of an opening line and the lines behind it, the deeper ones are not the owner's. -/
theorem Opening.ownLines_eq {inner : List Line} {stop : Nat}
    (h : Opening ls owner start (start + 1 + inner.length) stop line) (outer : List Line) :
    ownLines ls owner start (line :: (inner ++ outer)) =
      (line, start) :: ownLines ls owner (start + 1 + inner.length) outer := by
  have hparent := h.stretch.parent_start (Nat.lt_of_lt_of_le h.start_lt h.middle_le)
  have hinner : ownLines ls owner (start + 1) inner = [] := by
    apply ownLines_eq_nil
    intro place hle hlt howner
    rcases h.inner.inside place hle hlt with hstart | ⟨opener, hopener, hge⟩
    · exact absurd (h.stretch.lt_start start (howner ▸ hstart)) (Nat.lt_irrefl _)
    · have := h.stretch.lt_start opener (howner ▸ hopener)
      omega
  rw [ownLines_cons, if_pos hparent, ownLines_append, hinner]
  rfl

/-! ### Nesting follows the parents -/

def writeLines (ls : List Line) (entries : Entries Value) (lines : List (Line × Nat)) :
    Entries Value :=
  lines.foldl (fun entries child =>
    Entries.insert (entryOf ls child).1 (entryOf ls child).2 entries) entries

theorem blockOf_eq_writeLines (ls : List Line) (owner : Option Nat) :
    blockOf ls owner = writeLines ls [] (children ls owner) := by
  rw [blockOf_eq, Entries.ofPairs, List.foldl_map]
  rfl

/-- Nesting the lines of a stretch writes those whose parent is the owner. -/
theorem nest_eq_writeLines {before lines after : List Line}
    (hls : ls = before ++ lines ++ after)
    (h : Stretch ls owner before.length (before.length + lines.length))
    (entries : Entries Value) :
    nest entries lines = writeLines ls entries (ownLines ls owner before.length lines) := by
  induction hn : lines.length using Nat.strong_induction_on
    generalizing before lines after owner entries with
  | _ n ih =>
      cases lines with
      | nil => rw [nest_nil]; rfl
      | cons line rest =>
          rw [List.length_cons] at h hn
          have hline : ls[before.length]? = some line := by simp [hls]
          have hparent := h.parent_start (by omega)
          have hown := ownLines_cons ls owner before.length line rest
          rw [if_pos hparent] at hown
          cases hvalue : line.value with
          | some value =>
              have htail := h.tail_of_value hline hvalue
              have hrest := @ih rest.length (by omega) owner (before ++ [line]) rest after
                (by simp [hls]) (by simpa [Nat.add_assoc, Nat.add_comm 1] using htail)
                (Entries.insert line.key value entries) rfl
              rw [nest_cons_of_value hvalue, hrest, hown]
              simp [writeLines, entryOf, hvalue]
          | none =>
              obtain ⟨inner, outer, rfl, hinnerDeep, houterHead, hnest⟩ :=
                exists_nest_cons_of_opener hvalue rest
              rw [List.length_append] at h hn
              have hopening := Opening.of_append hls (by simpa [Nat.add_assoc, Nat.add_comm,
                Nat.add_left_comm] using h) hvalue hinnerDeep houterHead
              have hlen : before.length + 1 + inner.length + outer.length ≤ ls.length := by
                rw [hls]
                simp only [List.length_append, List.length_cons]
                omega
              have hblock : nest [] inner = blockOf ls (some before.length) := by
                have hinner := @ih inner.length (by omega) (some before.length)
                  (before ++ [line]) inner (outer ++ after) (by simp [hls])
                  (by simpa using hopening.inner) [] rfl
                rw [blockOf_eq_writeLines, hinner,
                  @Opening.children_eq ls owner line before inner (outer ++ after) _
                    (by simp [hls]) hopening]
                simp
              have houter := @ih outer.length (by omega) owner (before ++ line :: inner) outer
                after (by simp [hls])
                (by simpa [Nat.add_assoc, Nat.add_comm 1] using hopening.outer hlen)
                (Entries.insert line.key (.object (nest [] inner)) entries) rfl
              rw [hnest, houter, hopening.ownLines_eq, hblock]
              simp [writeLines, entryOf, hvalue, Nat.add_assoc, Nat.add_comm 1]

theorem nest_eq_blockOf (ls : List Line) : nest [] ls = blockOf ls none := by
  have hstretch : Stretch ls none ([] : List Line).length
      (([] : List Line).length + ls.length) := by
    simpa using Stretch.whole ls
  have hls : ls = [] ++ ls ++ [] := by simp
  rw [nest_eq_writeLines hls hstretch, blockOf_eq_writeLines]
  rfl

/-- An outline is read exactly when all its lines with content have a colon, and the
first that has none is named; the object holds every line under its parent. -/
theorem parse_eq_blockOf (text : String) :
    parse text =
      match (contentLines text).find? fun line => ':' ∉ line with
      | some line => .error ⟨String.ofList (trimStart line)⟩
      | none => .ok (.object (blockOf ((contentLines text).map lineOf) none)) := by
  change (State.run ([], []) (contentLines text) >>= fun state =>
    pure (Value.object state.finish)) = _
  rw [State.run_eq]
  cases (contentLines text).find? fun line => ':' ∉ line with
  | some line => rfl
  | none =>
      change Except.ok (Value.object _) = _
      rw [State.finish_foldl_step, nest_eq_blockOf]

-- A line less deep than the one above it, but deeper than the one that opened the block.
example : parse "a:\n   b:\n c: x" =
    .ok (.object [("a", .object [("b", .object []), ("c", .string "x")])]) := by cbv

end DocWeave.Yaml.Outline
