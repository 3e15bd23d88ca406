/-
One text behind another.  Lexemes end where they ended before, except that a run of text at
the end of the first is read together with one at the beginning of the second; the roots of the
second follow those of the first, so that roots of one name come together in one list.
-/
import DocWeave.Proofs.Xml.Decoding
import DocWeave.Proofs.Xml.Lexeme
import DocWeave.Proofs.Xml.Linear
import DocWeave.Proofs.Xml.Preservation

namespace DocWeave.Xml

/-! ### Tokens -/

/-- The tokens of one text behind another: side by side, or with the runs of text that meet
put together. -/
inductive Joined : List Token → List Token → List Token → Prop
  | apart (tokens more : List Token) : Joined tokens more (tokens ++ more)
  | merged (tokens : List Token) (s t : String) (more : List Token) :
      Joined (tokens ++ [.text s]) (.text t :: more) (tokens ++ .text (s ++ t) :: more)

theorem Joined.append_left {tokens more joined : List Token} (h : Joined tokens more joined)
    (front : List Token) : Joined (front ++ tokens) more (front ++ joined) := by
  cases h with
  | apart =>
      rw [← List.append_assoc]
      exact .apart (front ++ tokens) more
  | merged tokens s t more =>
      rw [← List.append_assoc, ← List.append_assoc]
      exact .merged (front ++ tokens) s t more

theorem StartsWithTag.append_of_ne_nil {w : List Char} (h : StartsWithTag w) (hne : w ≠ [])
    (rest : List Char) : StartsWithTag (w ++ rest) := by
  rwa [StartsWithTag, List.head?_append_of_ne_nil _ hne]

/-- A run of text at the end of a text goes on with the run that follows, if one follows. -/
theorem exists_joined_of_run {s t : List Char} (hne : s ≠ []) (hs : ∀ c ∈ s, isPlain c)
    (hdecode : decode s = .ok t) {more : List Token} {y : List Char} (hy : Lexed more y) :
    ∃ joined, Joined [.text (String.ofList t)] more joined ∧ Lexed joined (s ++ y) := by
  have apart {y : List Char} {more : List Token} (hy : Lexed more y) (hstop : StartsWithTag y) :
      ∃ joined, Joined [.text (String.ofList t)] more joined ∧ Lexed joined (s ++ y) :=
    ⟨_, .apart _ more, .run hne hs hdecode hstop hy⟩
  cases hy with
  | nil => exact apart .nil nofun
  | markup hm hw => exact apart (.markup hm hw) (by simp [StartsWithTag])
  | @run s' t' more w _ hs' hdecode' hstop hw =>
      have hboth : ∀ c ∈ s ++ s', isPlain c := fun c hc =>
        (List.mem_append.1 hc).elim (hs c) (hs' c)
      refine ⟨_, .merged [] (String.ofList t) (String.ofList t') more, ?_⟩
      rw [← String.ofList_append, ← List.append_assoc]
      exact .run (by simp [hne]) hboth (decode_append hdecode hdecode') hstop hw

theorem Lexed.exists_joined {tokens more : List Token} {x y : List Char} (hx : Lexed tokens x)
    (hy : Lexed more y) : ∃ joined, Joined tokens more joined ∧ Lexed joined (x ++ y) := by
  induction hx with
  | nil => exact ⟨more, .apart [] more, hy⟩
  | @markup token _ m w hm _ ih =>
      obtain ⟨joined, hjoined, hlexed⟩ := ih
      refine ⟨_, hjoined.append_left token.toList, ?_⟩
      rw [List.cons_append, List.append_assoc]
      exact .markup hm hlexed
  | @run s t tokens w hne hs hdecode hstop hw ih =>
      by_cases hend : w = []
      · subst hend
        cases tokenize_nil.symm.trans hw.tokenize_eq
        rw [List.append_nil]
        exact exists_joined_of_run hne hs hdecode hy
      · obtain ⟨joined, hjoined, hlexed⟩ := ih
        refine ⟨_, hjoined.append_left [.text (String.ofList t)], ?_⟩
        rw [List.append_assoc]
        exact .run hne hs hdecode (hstop.append_of_ne_nil hend y) hlexed

/-! ### Roots -/

def Builder.above (older : List Node) (b : Builder) : Builder :=
  { b with roots := b.roots ++ older }

theorem Builder.attach_above (older : List Node) (b : Builder) (node : Node) :
    (b.above older).attach node = (b.attach node).above older := by
  rcases b with ⟨_ | _, _⟩ <;> rfl

/-- Older roots make no difference. -/
theorem Builder.step_above (older : List Node) (b : Builder) (token : Token) :
    (b.above older).step token = (b.step token).map (Builder.above older) := by
  have hstack : (b.above older).stack = b.stack := rfl
  cases token with
  | opening name attributes =>
      rw [step, step, hstack]
      split <;> rfl
  | empty name attributes =>
      rw [step, step, hstack, attach_above]
      split <;> rfl
  | closing name =>
      obtain ⟨_ | ⟨top, rest⟩, roots⟩ := b
      · rfl
      · simp only [step, above]
        split
        next => exact congrArg Except.ok (attach_above older ⟨rest, roots⟩ top.close)
        next => rfl
  | text s =>
      rw [step, step, hstack, attach_above]
      split
      · split <;> rfl
      · rfl

theorem Builder.foldlM_step_above (older : List Node) (tokens : List Token) (b : Builder) :
    tokens.foldlM Builder.step (b.above older) =
      (tokens.foldlM Builder.step b).map (Builder.above older) := by
  induction tokens generalizing b with
  | nil => rfl
  | cons token tokens ih =>
      rw [List.foldlM_cons, List.foldlM_cons, Builder.step_above]
      cases b.step token with
      | error flaw => rfl
      | ok next => exact ih next

/-- Tokens of which trees can be built, one row behind another. -/
theorem build_append {tokens more : List Token} {roots others : List Node}
    (h : build tokens = .ok roots) (hmore : build more = .ok others) :
    build (tokens ++ more) = .ok (roots ++ others) := by
  rw [build_eq_ok_iff_foldlM] at *
  have habove := Builder.foldlM_step_above roots.reverse more ⟨[], []⟩
  rw [hmore] at habove
  rw [List.foldlM_append, h, List.reverse_append]
  exact habove

/-- Among the roots, white space can be left out or put in, and no other text may stand. -/
theorem build_text_cons (s : String) (tokens : List Token) (roots : List Node) :
    build (.text s :: tokens) = .ok roots ↔ isBlankText s.toList ∧ build tokens = .ok roots := by
  rw [build_eq_ok_iff_foldlM, build_eq_ok_iff_foldlM, List.foldlM_cons]
  constructor
  · intro h
    obtain ⟨next, hstep, hrun⟩ := exists_of_bind_eq_ok h
    cases Builder.takes_of_step hstep with
    | blank _ hblank => exact ⟨hblank, hrun⟩
    | text hopen => exact absurd rfl hopen
  · rintro ⟨hblank, hrun⟩
    have hstep : Builder.step ⟨[], []⟩ (.text s) = .ok ⟨[], []⟩ := if_pos hblank
    rw [hstep]
    exact hrun

theorem build_concat_text {s : String} {tokens : List Token} {roots : List Node}
    (h : build (tokens ++ [.text s]) = .ok roots) :
    isBlankText s.toList ∧ build tokens = .ok roots := by
  rw [build_eq_ok_iff_foldlM] at *
  rw [List.foldlM_append] at h
  obtain ⟨b, hrun, hlast⟩ := exists_of_bind_eq_ok h
  obtain ⟨final, hstep, hfinal⟩ := exists_of_bind_eq_ok hlast
  cases hfinal
  generalize hb' : Builder.mk [] roots.reverse = b' at hstep
  cases Builder.takes_of_step hstep with
  | blank _ hblank =>
      subst hb'
      exact ⟨hblank, hrun⟩
  | text hopen =>
      have hlength := Builder.length_stack_attach (.text s) b
      rw [← hb', List.length_nil] at hlength
      exact absurd (List.length_eq_zero_iff.1 hlength.symm) hopen

theorem Joined.build_eq {tokens more joined : List Token} {roots others : List Node}
    (h : Joined tokens more joined) (hroots : build tokens = .ok roots)
    (hothers : build more = .ok others) : build joined = .ok (roots ++ others) := by
  cases h with
  | apart => exact build_append hroots hothers
  | merged tokens s t more =>
      obtain ⟨hs, hroots⟩ := build_concat_text hroots
      obtain ⟨ht, hothers⟩ := (build_text_cons t more others).1 hothers
      have hst : isBlankText (s ++ t).toList := by
        rw [isBlankText, List.all_eq_true] at *
        rw [String.toList_append]
        exact fun c hc => (List.mem_append.1 hc).elim (hs c) (ht c)
      exact build_append hroots ((build_text_cons _ more others).2 ⟨hst, hothers⟩)

theorem childValues_append : (nodes more : List Node) →
    childValues (nodes ++ more) = childValues nodes ++ childValues more
  | [], _ => rfl
  | .text _ :: nodes, more => by
      rw [List.cons_append, childValues, childValues, childValues_append]
  | .element .. :: nodes, more => by
      rw [List.cons_append, childValues, childValues, childValues_append, List.cons_append]

/-! ### Values -/

/-- The items of what is found under a name: those of a list, or what is found as the only
one. -/
def itemsOf : Option Value → List Value
  | none => []
  | some (.array items) => items
  | some value => [value]

/-- No value of an element is a list, so a list is told from a single value. -/
theorem itemsOf_found {values : List Value} (h : ∀ value ∈ values, value.kind ≠ .array) :
    itemsOf (found values) = values := by
  match values with
  | [] => rfl
  | [value] =>
      have hvalue := h value List.mem_cons_self
      cases value with
      | array items => exact absurd rfl hvalue
      | _ => rfl
  | first :: second :: rest => rfl

/-- The members of two rows of roots and those of the rows put together: the keys of the
first and the new ones of the second, and under each name the items of both. -/
structure Combined (first second both : Entries Value) : Prop where
  keys_eq : Entries.keys both =
    Entries.keys first ++ (Entries.keys second).filter (· ∉ Entries.keys first)
  find?_eq (name : String) : Entries.find? name both =
    found (itemsOf (Entries.find? name first) ++ itemsOf (Entries.find? name second))

theorem Groups.combined {children more : List (String × Value)} {first second both : Entries Value}
    (hfirst : Groups children first) (hsecond : Groups more second)
    (hboth : Groups (children ++ more) both)
    (hkinds : ∀ child ∈ children ++ more, child.2.kind ≠ .array) :
    Combined first second both where
  keys_eq := by
    rw [hboth.keys_eq, hfirst.keys_eq, hsecond.keys_eq, List.map_append, List.eraseDups_append,
      List.removeAll, eraseDups_filter]
    congr 1
    refine List.filter_congr fun name _ => ?_
    simp [List.mem_eraseDups]
  find?_eq name := by
    obtain ⟨hchildren, hmore⟩ := List.forall_mem_append.1 hkinds
    rw [hboth.find?_eq, hfirst.find?_eq, hsecond.find?_eq, valuesOf_append,
      itemsOf_found (kind_ne_array_of_mem_valuesOf hchildren),
      itemsOf_found (kind_ne_array_of_mem_valuesOf hmore)]

/-! ### Texts -/

theorem dropMark_append {x y : List Char} (hy : y.head? ≠ some '\uFEFF') :
    dropMark (x ++ y) = dropMark x ++ y := by
  cases x with
  | nil => exact dropMark_eq_self hy
  | cons c x =>
      by_cases hc : c = '\uFEFF'
      · subst hc
        rfl
      · rw [dropMark_eq_self (by simpa using hc), dropMark_eq_self (by simpa using hc)]

/-- Two texts that are read can be read as one, unless a byte order mark would stand between
them.  The roots of the second come after those of the first. -/
theorem parse_append {x y : String} {v w : Value} (hx : parse x = .ok v) (hy : parse y = .ok w)
    (hmark : y.toList.head? ≠ some '\uFEFF') :
    ∃ first second both, v = .object first ∧ w = .object second ∧
      parse (x ++ y) = .ok (.object both) ∧ Combined first second both := by
  obtain ⟨tokens, roots, htokens, hroots, rfl⟩ := exists_of_parse hx
  obtain ⟨more, others, hmore, hothers, rfl⟩ := exists_of_parse hy
  rw [dropMark_eq_self hmark] at hmore
  obtain ⟨joined, hjoined, hlexed⟩ := (lexed_of_tokenize htokens).exists_joined
    (lexed_of_tokenize hmore)
  have hboth : parse (x ++ y) =
      .ok (.object ((childValues (roots ++ others)).foldl addChild [])) := by
    refine parse_eq_ok_iff.2 ⟨joined, _, ?_, hjoined.build_eq hroots hothers, rfl⟩
    rw [String.toList_append, dropMark_append hmark]
    exact hlexed.tokenize_eq
  have hkinds := kind_ne_array_of_mem_childValues (roots ++ others)
  refine ⟨_, _, _, rfl, rfl, hboth, ?_⟩
  rw [childValues_append] at hkinds ⊢
  obtain ⟨hfirst, hsecond⟩ := List.forall_mem_append.1 hkinds
  exact (groups_foldl_addChild hfirst).combined (groups_foldl_addChild hsecond)
    (groups_foldl_addChild hkinds) hkinds

/-- A mark in front of the first text, white space on both sides of the seam, and roots of one
name in both texts. -/
theorem parse_append_of_blank_seam :
    let x := "\uFEFF<a>1</a>\n"
    let y := " <b/><a>2</a>"
    let first : Entries Value := [("a", .string "1")]
    let second : Entries Value := [("b", .object []), ("a", .string "2")]
    let both : Entries Value := [("a", .array [.string "1", .string "2"]), ("b", .object [])]
    parse x = .ok (.object first) ∧ parse y = .ok (.object second) ∧
      y.toList.head? ≠ some '\uFEFF' ∧ parse (x ++ y) = .ok (.object both) ∧
      Combined first second both := by
  intro x y first second both
  have hx : parse x = .ok (.object first) := by cbv
  have hy : parse y = .ok (.object second) := by cbv
  have hmark : y.toList.head? ≠ some '\uFEFF' := by decide
  have hboth : parse (x ++ y) = .ok (.object both) := by cbv
  obtain ⟨first', second', both', hfirst, hsecond, hparse, hcombined⟩ := parse_append hx hy hmark
  cases hfirst
  cases hsecond
  cases hboth.symm.trans hparse
  exact ⟨hx, hy, hmark, hboth, hcombined⟩

end DocWeave.Xml
