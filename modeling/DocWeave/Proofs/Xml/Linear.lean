/-
Building is the inverse of writing out.  Tokens are built into a forest exactly when their
tags are balanced, nothing but white space stands outside them, and no element is opened
while as many are open as may be.  Written out again, the forest gives back the tokens, but
for the text outside.
-/
import DocWeave.Proofs.Xml.Attributes
import DocWeave.Proofs.Xml.Building
import DocWeave.Proofs.Xml.Nesting

namespace DocWeave.Xml

/-! ### Sequences of tokens -/

/-- A tag that closes itself is an opening tag with the closing tag behind it. -/
def Token.spelledOut : Token → List Token
  | empty name attributes => [opening name attributes, closing name]
  | token => [token]

def spelledOut (tokens : List Token) : List Token :=
  tokens.flatMap Token.spelledOut

/-- How many elements are open behind a token, of those that are open before it. -/
def Token.openBehind (depth : Nat) : Token → Nat
  | opening .. => depth + 1
  | closing _ => depth - 1
  | empty .. => depth
  | text _ => depth

/-- Tokens with the number of elements that are open where each of them stands. -/
def placed (depth : Nat) : List Token → List (Nat × Token)
  | [] => []
  | token :: rest => (depth, token) :: placed (token.openBehind depth) rest

/-- Tags that are balanced: each opening tag has a closing tag with the same name, and the
tags between them are balanced. -/
inductive Nested : List Token → Prop
  | nil : Nested []
  | text {s : String} {rest : List Token} (h : Nested rest) : Nested (.text s :: rest)
  | element {name : String} {attributes : Entries String} {inner rest : List Token}
      (hinner : Nested inner) (h : Nested rest) :
      Nested (.opening name attributes :: (inner ++ .closing name :: rest))

def Token.Allowed (depth : Nat) : Token → Prop
  | opening .. => depth < nestingLimit
  | text s => depth = 0 → isBlankText s.toList
  | closing _ => True
  | empty .. => True

structure Buildable (tokens : List Token) : Prop where
  nested : Nested (spelledOut tokens)
  allowed : ∀ place ∈ placed 0 (spelledOut tokens), place.2.Allowed place.1

/-- Whether a token is text outside all elements, where so many are open. -/
def Token.isOutside (depth : Nat) : Token → Bool
  | text _ => depth == 0
  | _ => false

def inside (depth : Nat) (tokens : List Token) : List Token :=
  ((placed depth tokens).filter fun place => !place.2.isOutside place.1).map Prod.snd

mutual

/-- A node as tokens in the order of the document: the opening tag of an element, what is in
it, its closing tag. -/
def Node.linear : Node → List Token
  | .text s => [.text s]
  | .element name attributes content =>
      .opening name attributes :: (linear content ++ [.closing name])

def linear : List Node → List Token
  | [] => []
  | node :: rest => node.linear ++ linear rest

end

/-- The elements of a forest, without the text among the roots. -/
def elements (nodes : List Node) : List Node :=
  nodes.filter fun
    | .text _ => false
    | .element .. => true

theorem linear_element (name : String) (attributes : Entries String)
    (content rest : List Node) :
    linear (.element name attributes content :: rest) =
      .opening name attributes :: (linear content ++ .closing name :: linear rest) := by
  rw [linear, Node.linear, List.cons_append, List.append_assoc]
  rfl

theorem Nested.append {tokens more : List Token} (h : Nested tokens) (hmore : Nested more) :
    Nested (tokens ++ more) := by
  induction h with
  | nil => exact hmore
  | text _ ih => exact .text ih
  | element hinner _ _ ih =>
      rw [List.cons_append, List.append_assoc]
      exact .element hinner ih

/-- Balanced tokens are those of a forest, in which text may stand among the roots. -/
theorem Nested.exists_linear {tokens : List Token} (h : Nested tokens) :
    ∃ nodes, linear nodes = tokens := by
  induction h with
  | nil => exact ⟨[], rfl⟩
  | @text s _ _ ih =>
      obtain ⟨nodes, rfl⟩ := ih
      exact ⟨.text s :: nodes, rfl⟩
  | @element name attributes _ _ _ _ ihinner ih =>
      obtain ⟨content, rfl⟩ := ihinner
      obtain ⟨nodes, rfl⟩ := ih
      exact ⟨.element name attributes content :: nodes, linear_element _ _ _ _⟩

/-! ### Places in a forest -/

/-- Behind a forest as many elements are open as before it. -/
theorem placed_linear_append (depth : Nat) : (nodes : List Node) → (rest : List Token) →
    placed depth (linear nodes ++ rest) = placed depth (linear nodes) ++ placed depth rest
  | [], _ => rfl
  | .text s :: nodes, rest => congrArg _ (placed_linear_append depth nodes rest)
  | .element name attributes content :: nodes, rest => by
      have hcontent := placed_linear_append (depth + 1) content
      have hnodes := placed_linear_append depth nodes rest
      simp only [linear_element, List.cons_append, List.append_assoc, placed, Token.openBehind,
        hcontent, Nat.add_sub_cancel, hnodes]

theorem placed_linear_element (depth : Nat) (name : String) (attributes : Entries String)
    (content nodes : List Node) :
    placed depth (linear (.element name attributes content :: nodes)) =
      (depth, .opening name attributes) :: (placed (depth + 1) (linear content) ++
        (depth + 1, .closing name) :: placed depth (linear nodes)) := by
  rw [linear_element, placed, Token.openBehind, placed_linear_append]
  rfl

theorem mem_placed_linear (depth : Nat) {s : String} : (nodes : List Node) →
    .text s ∈ nodes → (depth, .text s) ∈ placed depth (linear nodes)
  | .text t :: nodes, h => by
      rcases List.mem_cons.1 h with heq | h
      · cases heq
        exact List.mem_cons_self
      · exact List.mem_cons_of_mem _ (mem_placed_linear depth nodes h)
  | .element name attributes content :: nodes, h => by
      have hnodes := mem_placed_linear depth nodes (by simpa using h)
      rw [placed_linear_element]
      exact List.mem_cons_of_mem _ (List.mem_append_right _ (List.mem_cons_of_mem _ hnodes))

/-! ### Text outside -/

@[simp] theorem inside_opening (depth : Nat) (name : String) (attributes : Entries String)
    (rest : List Token) :
    inside depth (.opening name attributes :: rest) =
      .opening name attributes :: inside (depth + 1) rest := rfl

@[simp] theorem inside_closing (depth : Nat) (name : String) (rest : List Token) :
    inside (depth + 1) (.closing name :: rest) = .closing name :: inside depth rest := rfl

theorem inside_linear_append (depth : Nat) (nodes : List Node) (rest : List Token) :
    inside depth (linear nodes ++ rest) = inside depth (linear nodes) ++ inside depth rest := by
  simp only [inside, placed_linear_append, List.filter_append, List.map_append]

/-- Nothing in an element is outside all elements. -/
theorem inside_linear_succ (depth : Nat) : (nodes : List Node) →
    inside (depth + 1) (linear nodes) = linear nodes
  | [] => rfl
  | .text s :: nodes => congrArg _ (inside_linear_succ depth nodes)
  | .element name attributes content :: nodes => by
      rw [linear_element, inside_opening, inside_linear_append,
        inside_linear_succ (depth + 1) content, inside_closing, inside_linear_succ depth nodes]

/-- Of a forest the elements are left. -/
theorem inside_linear : (nodes : List Node) → inside 0 (linear nodes) = linear (elements nodes)
  | [] => rfl
  | .text s :: nodes => inside_linear nodes
  | .element name attributes content :: nodes => by
      have hkeep : elements (.element name attributes content :: nodes) =
          .element name attributes content :: elements nodes := rfl
      rw [hkeep, linear_element, linear_element, inside_opening, inside_linear_append,
        inside_linear_succ 0 content, inside_closing, inside_linear nodes]

/-! ### Height -/

/-- Where every opening tag may stand, elements nest within the limit. -/
theorem height_le_of_allowed {depth : Nat} (hdepth : depth ≤ nestingLimit) :
    (nodes : List Node) →
      (∀ place ∈ placed depth (linear nodes), place.2.Allowed place.1) →
        depth + height nodes ≤ nestingLimit
  | [], _ => by
      rw [height]
      exact hdepth
  | .text s :: nodes, h => by
      rw [height]
      exact height_le_of_allowed hdepth nodes (List.forall_mem_cons.1 h).2
  | .element name attributes content :: nodes, h => by
      rw [placed_linear_element, List.forall_mem_cons, List.forall_mem_append,
        List.forall_mem_cons] at h
      obtain ⟨hopening, hcontent, -, hnodes⟩ := h
      have hbelow : depth + 1 ≤ nestingLimit := hopening
      have hinner := height_le_of_allowed hbelow content hcontent
      have hothers := height_le_of_allowed hdepth nodes hnodes
      rw [height]
      omega

theorem height_elements : (nodes : List Node) → height (elements nodes) = height nodes
  | [] => rfl
  | .text s :: nodes => by
      rw [height]
      exact height_elements nodes
  | .element name attributes content :: nodes => by
      have hkeep : elements (.element name attributes content :: nodes) =
          .element name attributes content :: elements nodes := rfl
      rw [hkeep, height, height, height_elements nodes]

/-! ### Building what was written out -/

theorem builds_linear_inside : (nodes : List Node) → Builds .inside (linear nodes) nodes
  | [] => Builds.nil .inside
  | .text s :: nodes => (builds_linear_inside nodes).text s
  | .element name attributes content :: nodes => by
      have hcontent := foldlM_step_element (builds_linear_inside content) name attributes
      exact (builds_linear_inside nodes).cons_element hcontent

/-- Among the roots, text is read over if it is blank. -/
theorem builds_linear_outside : (nodes : List Node) →
    (∀ s, .text s ∈ nodes → isBlankText s.toList) → Builds .outside (linear nodes) (elements nodes)
  | [], _ => Builds.nil .outside
  | .text s :: nodes, h => by
      have hnodes := builds_linear_outside nodes fun t ht => h t (List.mem_cons_of_mem _ ht)
      exact hnodes.blank (h s List.mem_cons_self)
  | .element name attributes content :: nodes, h => by
      have hnodes := builds_linear_outside nodes fun t ht => h t (List.mem_cons_of_mem _ ht)
      have hcontent := foldlM_step_element (builds_linear_inside content) name attributes
      exact hnodes.cons_element hcontent

/-- A tag that closes itself is taken in like two tags. -/
theorem foldlM_token_spelledOut (token : Token) (b : Builder) :
    token.spelledOut.foldlM Builder.step b = b.step token := by
  cases token with
  | empty name attributes =>
      have hclosing (top : OpenElement) (h : top.name = name) :
          Builder.step { b with stack := top :: b.stack } (.closing name) =
            .ok (b.attach top.close) := if_pos h
      simp only [Token.spelledOut, List.foldlM_cons, List.foldlM_nil, bind_pure, Builder.step]
      split
      · rfl
      · exact hclosing ⟨name, attributes, []⟩ rfl
  | opening | closing | text =>
      simp only [Token.spelledOut, List.foldlM_cons, List.foldlM_nil, bind_pure]

theorem foldlM_spelledOut (tokens : List Token) (b : Builder) :
    (spelledOut tokens).foldlM Builder.step b = tokens.foldlM Builder.step b := by
  induction tokens generalizing b with
  | nil => rfl
  | cons token rest ih =>
      have hsplit : spelledOut (token :: rest) = token.spelledOut ++ spelledOut rest := rfl
      rw [hsplit, List.foldlM_append, foldlM_token_spelledOut, List.foldlM_cons]
      simp only [ih]

/-- Tokens of which a forest can be built are those of a forest within the limit, with
blank text among the roots. -/
theorem Buildable.exists_build_eq {tokens : List Token} (h : Buildable tokens) :
    ∃ roots, build tokens = .ok roots ∧ linear roots = inside 0 (spelledOut tokens) ∧
      height roots ≤ nestingLimit := by
  obtain ⟨nodes, hnodes⟩ := h.nested.exists_linear
  have hallowed := hnodes ▸ h.allowed
  have hheight : height (elements nodes) ≤ nestingLimit := by
    rw [height_elements]
    simpa using height_le_of_allowed (Nat.zero_le _) nodes hallowed
  have hblank : ∀ s, .text s ∈ nodes → isBlankText s.toList := fun s hs =>
    hallowed _ (mem_placed_linear 0 nodes hs) rfl
  refine ⟨elements nodes, ?_, ?_, hheight⟩
  · rw [← (builds_linear_outside nodes hblank).build_eq hheight, build, build, hnodes,
      foldlM_spelledOut]
  · rw [← hnodes, inside_linear]

/-! ### What was built -/

/-- Tokens with the open elements that they leave, innermost first: each was opened, and
what stands behind its opening tag and in front of that of the next is balanced. -/
inductive Leaves : List OpenElement → List Token → Prop
  | none {tokens : List Token} (h : Nested tokens) : Leaves [] tokens
  | element (top : OpenElement) {rest : List OpenElement} {front inner : List Token}
      (hfront : Leaves rest front) (h : Nested inner) :
      Leaves (top :: rest) (front ++ .opening top.name top.attributes :: inner)

theorem Leaves.append {stack : List OpenElement} {tokens more : List Token}
    (h : Leaves stack tokens) (hmore : Nested more) : Leaves stack (tokens ++ more) := by
  cases h with
  | none h => exact .none (h.append hmore)
  | element top hfront h =>
      rw [List.append_assoc]
      exact .element top hfront (h.append hmore)

theorem Leaves.attach {b : Builder} {tokens : List Token} (h : Leaves b.stack tokens)
    (node : Node) : Leaves (b.attach node).stack tokens := by
  obtain ⟨stack, roots⟩ := b
  cases h with
  | none h => exact .none h
  | element top hfront h => exact .element _ hfront h

/-- A token that is taken in is the next of the tokens that leave the open elements. -/
theorem Leaves.step {b b' : Builder} {tokens : List Token} (h : Leaves b.stack tokens)
    {token : Token} (hstep : b.Takes token b') :
    Leaves b'.stack (tokens ++ token.spelledOut) := by
  cases hstep with
  | opening _ => exact .element _ h .nil
  | empty _ => exact (h.append (.element .nil .nil)).attach _
  | @closing top _ hstack =>
      rw [hstack] at h
      cases h with
      | @element _ _ _ inner hfront hinner =>
          have helement : Nested (.opening top.name top.attributes ::
              (inner ++ [.closing top.name])) := .element hinner .nil
          have hclosed := hfront.append helement
          rw [← List.cons_append, ← List.append_assoc] at hclosed
          exact Leaves.attach hclosed top.close
  | blank _ _ => exact h.append (.text .nil)
  | text _ => exact (h.append (.text .nil)).attach _

theorem Leaves.foldlM {tokens : List Token} {b b' : Builder} {before : List Token}
    (h : Leaves b.stack before) (hrun : tokens.foldlM Builder.step b = .ok b') :
    Leaves b'.stack (before ++ spelledOut tokens) := by
  induction tokens generalizing b before with
  | nil =>
      cases hrun
      simpa [spelledOut] using h
  | cons token rest ih =>
      rw [List.foldlM_cons] at hrun
      obtain ⟨next, hstep, hrun⟩ := exists_of_bind_eq_ok hrun
      have hnext := ih (h.step (Builder.takes_of_step hstep)) hrun
      rwa [List.append_assoc] at hnext

/-- A token that is taken in was allowed where it stands. -/
theorem Builder.Takes.allowed {b b' : Builder} {token : Token} (h : b.Takes token b')
    {rest : List Token} (hrest : ∀ place ∈ placed b'.stack.length rest, place.2.Allowed place.1) :
    ∀ place ∈ placed b.stack.length (token.spelledOut ++ rest), place.2.Allowed place.1 := by
  cases h with
  | opening hroom => exact List.forall_mem_cons.2 ⟨hroom, hrest⟩
  | empty hroom =>
      rw [Builder.length_stack_attach] at hrest
      exact List.forall_mem_cons.2 ⟨hroom, List.forall_mem_cons.2 ⟨trivial, hrest⟩⟩
  | closing hstack =>
      rw [Builder.length_stack_attach] at hrest
      rw [hstack]
      exact List.forall_mem_cons.2 ⟨trivial, hrest⟩
  | blank _ hblank => exact List.forall_mem_cons.2 ⟨fun _ => hblank, hrest⟩
  | text hopen =>
      rw [Builder.length_stack_attach] at hrest
      have hdepth : b.stack.length ≠ 0 := mt List.length_eq_zero_iff.1 hopen
      exact List.forall_mem_cons.2 ⟨fun hnone => absurd hnone hdepth, hrest⟩

theorem allowed_of_foldlM {tokens : List Token} {b b' : Builder}
    (hrun : tokens.foldlM Builder.step b = .ok b') :
    ∀ place ∈ placed b.stack.length (spelledOut tokens), place.2.Allowed place.1 := by
  induction tokens generalizing b with
  | nil => exact fun _ hplace => nomatch hplace
  | cons token rest ih =>
      rw [List.foldlM_cons] at hrun
      obtain ⟨next, hstep, hrun⟩ := exists_of_bind_eq_ok hrun
      exact (Builder.takes_of_step hstep).allowed (ih hrun)

theorem buildable_of_build {tokens : List Token} {roots : List Node}
    (h : build tokens = .ok roots) : Buildable tokens := by
  have hrun := build_eq_ok_iff_foldlM.1 h
  have hleaves : Leaves [] ([] ++ spelledOut tokens) := Leaves.foldlM (.none .nil) hrun
  rw [List.nil_append] at hleaves
  cases hleaves with
  | none hnested => exact ⟨hnested, allowed_of_foldlM hrun⟩

/-! ### Only one forest -/

def StartsWithClosing (tokens : List Token) : Prop :=
  ∀ token ∈ tokens.head?, ∃ name, token = .closing name

theorem startsWithClosing_cons (name : String) (rest : List Token) :
    StartsWithClosing (.closing name :: rest) := by
  rintro token ⟨⟩
  exact ⟨name, rfl⟩

theorem not_startsWithClosing_linear (node : Node) (nodes : List Node) (rest : List Token) :
    ¬ StartsWithClosing (linear (node :: nodes) ++ rest) := by
  intro h
  cases node with
  | text s =>
      obtain ⟨name, hname⟩ := h (.text s) rfl
      cases hname
  | element name attributes content =>
      obtain ⟨name, hname⟩ := h (.opening name attributes) rfl
      cases hname

/-- A forest is known from its tokens, even when a closing tag follows them. -/
theorem linear_append_inj : (first second : List Node) → {rest rest' : List Token} →
    StartsWithClosing rest → StartsWithClosing rest' →
      linear first ++ rest = linear second ++ rest' → first = second ∧ rest = rest'
  | [], [], _, _, _, _, h => ⟨rfl, h⟩
  | [], node :: second, rest, rest', hrest, _, h => by
      have heq : rest = linear (node :: second) ++ rest' := h
      exact absurd (heq ▸ hrest) (not_startsWithClosing_linear node second rest')
  | node :: first, [], rest, rest', _, hrest', h => by
      have heq : linear (node :: first) ++ rest = rest' := h
      exact absurd (heq ▸ hrest') (not_startsWithClosing_linear node first rest)
  | .text s :: first, .text s' :: second, rest, rest', hrest, hrest', h => by
      have hcons : Token.text s :: (linear first ++ rest) =
          .text s' :: (linear second ++ rest') := h
      obtain ⟨hs, hbehind⟩ := List.cons.inj hcons
      cases hs
      obtain ⟨rfl, rfl⟩ := linear_append_inj first second hrest hrest' hbehind
      exact ⟨rfl, rfl⟩
  | .text s :: first, .element .. :: second, _, _, _, _, h => nomatch (List.cons.inj h).1
  | .element .. :: first, .text s' :: second, _, _, _, _, h => nomatch (List.cons.inj h).1
  | .element name attributes content :: first, .element name' attributes' content' :: second,
      _, _, hrest, hrest', h => by
      rw [linear_element, linear_element, List.cons_append, List.cons_append,
        List.append_assoc, List.append_assoc] at h
      obtain ⟨hopening, hinner⟩ := List.cons.inj h
      cases hopening
      obtain ⟨rfl, hclosing⟩ := linear_append_inj content content'
        (startsWithClosing_cons _ _) (startsWithClosing_cons _ _) hinner
      obtain ⟨rfl, rfl⟩ := linear_append_inj first second hrest hrest'
        (List.cons.inj hclosing).2
      exact ⟨rfl, rfl⟩

theorem linear_injective {first second : List Node} (h : linear first = linear second) :
    first = second := by
  have hnone : StartsWithClosing [] := fun _ htoken => nomatch htoken
  have happend : linear first ++ [] = linear second ++ [] := by
    rw [List.append_nil, List.append_nil, h]
  exact (linear_append_inj first second hnone hnone happend).1

/-- Of tokens a forest is built exactly when they are balanced and allowed where they stand,
and it is the forest that gives them when it is written out, but for the text outside. -/
theorem build_eq_ok_iff {tokens : List Token} {roots : List Node} :
    build tokens = .ok roots ↔
      Buildable tokens ∧ linear roots = inside 0 (spelledOut tokens) := by
  constructor
  · intro h
    have hbuildable := buildable_of_build h
    obtain ⟨built, hbuilt, hlinear, -⟩ := hbuildable.exists_build_eq
    cases h.symm.trans hbuilt
    exact ⟨hbuildable, hlinear⟩
  · rintro ⟨hbuildable, hroots⟩
    obtain ⟨built, hbuilt, hlinear, -⟩ := hbuildable.exists_build_eq
    rw [hbuilt, linear_injective (hroots.trans hlinear.symm)]

theorem height_le_of_build {tokens : List Token} {roots : List Node}
    (h : build tokens = .ok roots) : height roots ≤ nestingLimit := by
  obtain ⟨built, hbuilt, -, hheight⟩ := (buildable_of_build h).exists_build_eq
  cases h.symm.trans hbuilt
  exact hheight

/-- What is built can be converted, so a text is read exactly when its tokens can be built. -/
theorem parse_eq_ok_iff {text : String} {v : Value} :
    parse text = .ok v ↔
      ∃ tokens roots, tokenize (dropMark text.toList) = .ok tokens ∧ build tokens = .ok roots ∧
        v = .object ((childValues roots).foldl addChild []) := by
  constructor
  · exact exists_of_parse
  · rintro ⟨tokens, roots, htokens, hroots, rfl⟩
    exact parse_of_build htokens hroots (height_le_of_build hroots)

/-- A forest is built of tokens exactly when these are balanced and allowed where they
stand.  Written out again, it gives the tokens back, but for the text outside, and it is the
only forest that does; and its trees are not too deep to be converted. -/
theorem build_inverts_linear (tokens : List Token) :
    ((∃ roots, build tokens = .ok roots) ↔ Buildable tokens) ∧
      ∀ roots,
        (build tokens = .ok roots ↔
          Buildable tokens ∧ linear roots = inside 0 (spelledOut tokens)) ∧
        (build tokens = .ok roots → ∀ root ∈ roots,
          height [root] ≤ nestingLimit ∧ root.convert 1 = .ok root.value) := by
  refine ⟨⟨?_, ?_⟩, fun roots => ⟨build_eq_ok_iff, fun h root hroot => ?_⟩⟩
  · rintro ⟨roots, h⟩
    exact buildable_of_build h
  · intro h
    obtain ⟨roots, hroots, -⟩ := h.exists_build_eq
    exact ⟨roots, hroots⟩
  · have hheight : height [root] ≤ nestingLimit :=
      Nat.le_trans (height_le_of_mem hroot) (height_le_of_build h)
    exact ⟨hheight, root.convert_of_height (by omega)⟩

/-- White space around two roots is lost, an element that closes itself comes back as two
tags; and tags with different names are not balanced. -/
theorem build_inverts_linear_of_two_roots :
    let tokens : List Token := [.text " ", .opening "a" [("k", "v")], .text "x", .empty "b" [],
      .closing "a", .text "\n", .empty "a" []]
    let roots : List Node := [.element "a" [("k", "v")] [.text "x", .element "b" [] []],
      .element "a" [] []]
    Buildable tokens ∧
      linear roots = [.opening "a" [("k", "v")], .text "x", .opening "b" [], .closing "b",
        .closing "a", .opening "a" [], .closing "a"] ∧
      (∀ root ∈ roots, height [root] ≤ nestingLimit ∧ root.convert 1 = .ok root.value) ∧
      ¬ Buildable [.opening "a" [], .closing "b"] := by
  intro tokens roots
  have hbuild : build tokens = .ok roots := by cbv
  obtain ⟨hexists, hroots⟩ := build_inverts_linear tokens
  obtain ⟨hiff, htrees⟩ := hroots roots
  refine ⟨hexists.1 ⟨roots, hbuild⟩, (hiff.1 hbuild).2, htrees hbuild, fun h => ?_⟩
  have hmismatch : build [.opening "a" [], .closing "b"] = .error (.mismatchedClosing "b") := by
    cbv
  obtain ⟨other, hother⟩ := (build_inverts_linear [.opening "a" [], .closing "b"]).1.2 h
  cases hmismatch.symm.trans hother

end DocWeave.Xml
