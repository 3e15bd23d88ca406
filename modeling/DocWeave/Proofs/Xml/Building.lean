/-
Tokens of a written forest and the trees that are made of them.  The nodes come out as
they went in, but for runs of text that were written as nothing.
-/
import DocWeave.Proofs.Xml.Lexing

namespace DocWeave.Xml

/-! ### Nodes in their place -/

def Builder.attachAll (nodes : List Node) (b : Builder) : Builder :=
  nodes.foldl (fun b node => b.attach node) b

@[simp] theorem Builder.attachAll_cons (node : Node) (nodes : List Node) (b : Builder) :
    b.attachAll (node :: nodes) = (b.attach node).attachAll nodes := rfl

theorem Builder.attachAll_open (nodes : List Node) (top : OpenElement) (rest : List OpenElement)
    (roots : List Node) :
    Builder.attachAll nodes ⟨top :: rest, roots⟩ =
      ⟨⟨top.name, top.attributes, nodes.reverse ++ top.content⟩ :: rest, roots⟩ := by
  induction nodes generalizing top with
  | nil => rfl
  | cons node nodes ih => simp [Builder.attach, ih]

theorem Builder.attachAll_roots (nodes roots : List Node) :
    Builder.attachAll nodes ⟨[], roots⟩ = ⟨[], nodes.reverse ++ roots⟩ := by
  induction nodes generalizing roots with
  | nil => rfl
  | cons node nodes ih => simp [Builder.attach, ih]

theorem Builder.length_stack_attach (node : Node) (b : Builder) :
    (b.attach node).stack.length = b.stack.length := by
  rcases b with ⟨_ | _, _⟩ <;> rfl

def Place.IsAt (b : Builder) : Place → Prop
  | outside => b.stack = []
  | inside => b.stack ≠ []

theorem Place.IsAt.attach {place : Place} {b : Builder} (h : place.IsAt b) (node : Node) :
    place.IsAt (b.attach node) := by
  have hnil : (b.attach node).stack = [] ↔ b.stack = [] := by
    rw [← List.length_eq_zero_iff, Builder.length_stack_attach, List.length_eq_zero_iff]
  cases place with
  | outside => exact hnil.2 h
  | inside => exact mt hnil.1 h

/-- Tokens of which nodes are made at a place, wherever there is room for them. -/
def Builds (place : Place) (tokens : List Token) (nodes : List Node) : Prop :=
  ∀ b : Builder, place.IsAt b → b.stack.length + height nodes ≤ nestingLimit →
    tokens.foldlM Builder.step b = .ok (b.attachAll nodes)

theorem Builds.build_eq {tokens : List Token} {nodes : List Node}
    (h : Builds .outside tokens nodes) (hheight : height nodes ≤ nestingLimit) :
    build tokens = .ok nodes := by
  have hfold := h ⟨[], []⟩ rfl (by simpa using hheight)
  rw [build, hfold, Builder.attachAll_roots]
  simp [bind, Except.bind, Builder.finish]

theorem Builds.nil (place : Place) : Builds place [] [] := by
  intro b _ _
  rfl

theorem Builds.blank {tokens : List Token} {nodes : List Node} (h : Builds .outside tokens nodes)
    {s : String} (hs : isBlankText s.toList) : Builds .outside (.text s :: tokens) nodes := by
  intro b hplace hroom
  have hnil : b.stack = [] := hplace
  have hstep : b.step (.text s) = .ok b := by
    rw [Builder.step, hnil, List.isEmpty_nil, if_pos rfl, if_pos hs]
  rw [List.foldlM_cons, hstep]
  exact h b hplace hroom

theorem Builds.text {tokens : List Token} {nodes : List Node} (h : Builds .inside tokens nodes)
    (s : String) : Builds .inside (.text s :: tokens) (.text s :: nodes) := by
  intro b hplace hroom
  have hopen : b.stack ≠ [] := hplace
  have hstep : b.step (.text s) = .ok (b.attach (.text s)) := by
    rw [Builder.step, if_neg (by simpa using hopen)]
  rw [List.foldlM_cons, hstep]
  apply h _ (hplace.attach _)
  rw [Builder.length_stack_attach]
  simpa only [height] using hroom

theorem Builds.cons_element {place : Place} {tokens : List Token} {nodes inner : List Node}
    (h : Builds place tokens nodes) {front : List Token} {name : String}
    {attributes : Entries String}
    (hfront : ∀ b : Builder, b.stack.length + (height inner + 1) ≤ nestingLimit →
      front.foldlM Builder.step b = .ok (b.attach (.element name attributes inner))) :
    Builds place (front ++ tokens) (.element name attributes inner :: nodes) := by
  intro b hplace hroom
  simp only [height] at hroom
  rw [List.foldlM_append, hfront b (by omega)]
  apply h _ (hplace.attach _)
  rw [Builder.length_stack_attach]
  omega

theorem foldlM_step_element {tokens : List Token} {inner : List Node}
    (h : Builds .inside tokens inner) (name : String) (attributes : Entries String)
    (b : Builder) (hroom : b.stack.length + (height inner + 1) ≤ nestingLimit) :
    (.opening name attributes :: (tokens ++ [.closing name])).foldlM Builder.step b =
      .ok (b.attach (.element name attributes inner)) := by
  have hopening : b.step (.opening name attributes) =
      .ok { b with stack := ⟨name, attributes, []⟩ :: b.stack } := by
    rw [Builder.step, if_neg (by omega)]
  have hinner : tokens.foldlM Builder.step { b with stack := ⟨name, attributes, []⟩ :: b.stack } =
      .ok { b with stack := ⟨name, attributes, inner.reverse⟩ :: b.stack } := by
    rw [h _ (by simp [Place.IsAt]) (by simp only [List.length_cons]; omega),
      Builder.attachAll_open]
    simp
  have hclosing : Builder.step { b with stack := ⟨name, attributes, inner.reverse⟩ :: b.stack }
      (.closing name) = .ok (b.attach (.element name attributes inner)) := by
    simp [Builder.step, OpenElement.close]
  rw [List.foldlM_cons, hopening]
  change (tokens ++ [Token.closing name]).foldlM Builder.step _ = _
  rw [List.foldlM_append, hinner]
  change [Token.closing name].foldlM Builder.step _ = _
  rw [List.foldlM_cons, hclosing]
  rfl

theorem foldlM_step_empty (name : String) (attributes : Entries String) (b : Builder)
    (hroom : b.stack.length + (height [] + 1) ≤ nestingLimit) :
    [Token.empty name attributes].foldlM Builder.step b =
      .ok (b.attach (.element name attributes [])) := by
  have hstep : b.step (.empty name attributes) = .ok (b.attach (.element name attributes [])) := by
    simp only [height] at hroom
    rw [Builder.step, if_neg (by omega)]
  rw [List.foldlM_cons, hstep]
  rfl

/-! ### Written content -/

/-- The nodes that are read of a content: a run of text that was written as nothing is
not among them. -/
inductive Kept : List Node → List Node → Prop
  | nil : Kept [] []
  | text {s : String} {content nodes : List Node} (h : Kept content nodes) :
      Kept (.text s :: content) (.text s :: nodes)
  | gone {content nodes : List Node} (h : Kept content nodes) :
      Kept (.text "" :: content) nodes
  | element {name : String} {attributes : Entries String}
      {content inner rest nodes : List Node} (hc : Kept content inner) (h : Kept rest nodes) :
      Kept (.element name attributes content :: rest) (.element name attributes inner :: nodes)

theorem Kept.height_eq {content nodes : List Node} (h : Kept content nodes) :
    height nodes = height content := by
  induction h with
  | nil => rfl
  | text _ ih => simp only [height, ih]
  | gone _ ih => simp only [height, ih]
  | element _ _ ihc ih => simp only [height, ihc, ih]

theorem Kept.textRuns_eq {content nodes : List Node} (h : Kept content nodes) :
    textRuns nodes = textRuns content := by
  induction h with
  | nil => rfl
  | text _ ih => simp only [textRuns, ih]
  | gone _ ih =>
      have hblank : isBlankText "".toList = true := rfl
      rw [textRuns, if_pos hblank, ih]
  | element _ _ _ ih => simp only [textRuns, ih]

/-- The tokens of a text that a tag follows, or nothing. -/
def Gives (w : List Char) (tokens : List Token) : Prop :=
  ∀ rest, StartsWithTag rest → tokenize (w ++ rest) = (tokenize rest).map (tokens ++ ·)

theorem Aside.startsWithTag {m : List Char} (h : Aside m) (w : List Char) :
    StartsWithTag (m ++ w) := by
  cases h <;> (intro c hc; cases hc; rfl)

theorem StartsWithTag.append {w rest : List Char} (h : StartsWithTag w)
    (hrest : StartsWithTag rest) : StartsWithTag (w ++ rest) := by
  cases w with
  | nil => exact hrest
  | cons c w => exact h

theorem startsWithTag_cons (w : List Char) : StartsWithTag ('<' :: w) := by
  intro c hc
  cases hc
  rfl

theorem Written.startsWithTag {place : Place} {nodes : List Node} {w : List Char}
    (h : Written place false nodes w) : StartsWithTag w := by
  cases h with
  | nil => exact fun c hc => nomatch hc
  | aside hm _ => exact hm.startsWithTag _
  | element _ _ _ _ _ => exact startsWithTag_cons _
  | empty _ _ _ => exact startsWithTag_cons _

/-- Written nodes give tokens of which they are made. -/
theorem Written.exists_tokens {place : Place} {free : Bool} {content : List Node}
    {w : List Char} (h : Written place free content w) (hconforming : Conforming content) :
    ∃ tokens nodes, Gives w tokens ∧ Builds place tokens nodes ∧ Kept content nodes := by
  induction h with
  | nil =>
      refine ⟨[], [], fun rest _ => ?_, Builds.nil _, Kept.nil⟩
      rw [List.nil_append]
      cases tokenize rest <;> rfl
  | @aside _ _ m w _ hm _ ih =>
      obtain ⟨tokens, nodes, hgives, hbuilds, hkept⟩ := ih hconforming
      refine ⟨tokens, nodes, fun rest hrest => ?_, hbuilds, hkept⟩
      rw [List.append_assoc, hm.tokenize_append, hgives rest hrest]
  | @blank blank w _ hblank h ih =>
      obtain ⟨tokens, nodes, hgives, hbuilds, hkept⟩ := ih hconforming
      by_cases hne : blank = []
      · subst hne
        exact ⟨tokens, nodes, hgives, hbuilds, hkept⟩
      · refine ⟨.text (String.ofList blank) :: tokens, nodes, fun rest hrest => ?_,
          hbuilds.blank (by rwa [String.toList_ofList]), hkept⟩
        have hnext := h.startsWithTag.append hrest
        rw [List.append_assoc, tokenize_escaped (Escaped.of_isBlankText hblank) hne hnext,
          hgives rest hrest]
        cases tokenize rest <;> rfl
  | @run s r w _ hr h ih =>
      cases hconforming with | text hconforming => ?_
      obtain ⟨tokens, nodes, hgives, hbuilds, hkept⟩ := ih hconforming
      by_cases hne : r = []
      · subst hne
        have hs : s = "" := by
          rw [← String.ofList_toList (s := s), hr.eq_nil]
        subst hs
        exact ⟨tokens, nodes, hgives, hbuilds, .gone hkept⟩
      · refine ⟨.text s :: tokens, .text s :: nodes, fun rest hrest => ?_, hbuilds.text s,
          .text hkept⟩
        have hnext := h.startsWithTag.append hrest
        rw [List.append_assoc, hr.tokenize_append hne hnext, hgives rest hrest,
          String.ofList_toList]
        cases tokenize rest <;> rfl
  | @element _ _ name attributes _ _ a blank inner blank' w ha hblank _ hblank' _ ihcontent
      ihrest =>
      cases hconforming with | element hname hmark hkeys hnodup _ _ hcontent hconforming => ?_
      obtain ⟨within, innerNodes, hinner, hbuilds, hkept⟩ := ihcontent hcontent
      obtain ⟨tokens, nodes, hgives, hbuilds', hkept'⟩ := ihrest hconforming
      refine ⟨.opening name attributes :: (within ++ [.closing name]) ++ tokens,
        .element name attributes innerNodes :: nodes, fun rest hrest => ?_,
        hbuilds'.cons_element (foldlM_step_element hbuilds name attributes),
        .element hkept hkept'⟩
      have hclosing := tokenize_closing hname hblank' (w ++ rest)
      have hcontent := hinner ('<' :: '/' :: (name.toList ++ (blank' ++ '>' :: (w ++ rest))))
        (startsWithTag_cons _)
      have hopening := tokenize_tag hname hmark ha hkeys hnodup hblank .opening
        (inner ++ '<' :: '/' :: (name.toList ++ (blank' ++ '>' :: (w ++ rest))))
      have hsame : '<' :: (name.toList ++ (a ++ (blank ++ '>' :: (inner ++ ('<' :: '/' ::
          (name.toList ++ (blank' ++ '>' :: w))))))) ++ rest =
          '<' :: (name.toList ++ (a ++ (blank ++ (TagEnd.opening.mark ++ (inner ++ '<' :: '/' ::
            (name.toList ++ (blank' ++ '>' :: (w ++ rest)))))))) := by
        simp [TagEnd.mark]
      rw [hsame, hopening, hcontent, hclosing, hgives rest hrest]
      cases tokenize rest <;> simp [Except.map, TagEnd.token]
  | @empty _ _ name attributes _ a blank w ha hblank _ ih =>
      cases hconforming with | element hname hmark hkeys hnodup _ _ _ hconforming => ?_
      obtain ⟨tokens, nodes, hgives, hbuilds, hkept⟩ := ih hconforming
      refine ⟨[.empty name attributes] ++ tokens, .element name attributes [] :: nodes,
        fun rest hrest => ?_, hbuilds.cons_element (foldlM_step_empty name attributes),
        .element .nil hkept⟩
      have htag := tokenize_tag hname hmark ha hkeys hnodup hblank .selfClosing (w ++ rest)
      have hsame : '<' :: (name.toList ++ (a ++ (blank ++ '/' :: '>' :: w))) ++ rest =
          '<' :: (name.toList ++ (a ++ (blank ++ (TagEnd.selfClosing.mark ++ (w ++ rest))))) := by
        simp [TagEnd.mark]
      rw [hsame, htag, hgives rest hrest]
      cases tokenize rest <;> rfl

end DocWeave.Xml
