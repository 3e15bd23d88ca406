/-
Where the attributes of elements come from.  Every element of a tree has the attributes of
a token, and the tokens of a text give each attribute once.
-/
import DocWeave.Proofs.Entries.Order
import DocWeave.Proofs.Xml.Lexeme
import DocWeave.Xml.Tree

namespace DocWeave.Xml

/-! ### Elements of a forest -/

/-- A node stands somewhere in a forest. -/
inductive Occurs (node : Node) : List Node → Prop
  | here {nodes : List Node} (h : node ∈ nodes) : Occurs node nodes
  | inside {nodes content : List Node} {name : String} {attributes : Entries String}
      (hmem : Node.element name attributes content ∈ nodes) (h : Occurs node content) :
      Occurs node nodes

theorem Occurs.mono {node : Node} {nodes more : List Node} (h : Occurs node nodes)
    (hsub : nodes ⊆ more) : Occurs node more := by
  rcases h with hmem | ⟨hmem, h⟩
  · exact .here (hsub hmem)
  · exact .inside (hsub hmem) h

def AllAttributes (p : Entries String → Prop) (nodes : List Node) : Prop :=
  ∀ name attributes content, Occurs (.element name attributes content) nodes → p attributes

variable {p : Entries String → Prop}

theorem allAttributes_nil : AllAttributes p [] := by
  intro name attributes content h
  rcases h with hmem | ⟨hmem, -⟩ <;> cases hmem

theorem AllAttributes.subset {nodes fewer : List Node} (h : AllAttributes p nodes)
    (hsub : fewer ⊆ nodes) : AllAttributes p fewer := by
  intro name attributes content hoccurs
  exact h name attributes content (hoccurs.mono hsub)

theorem AllAttributes.cons_text {nodes : List Node} (h : AllAttributes p nodes) (s : String) :
    AllAttributes p (.text s :: nodes) := by
  intro name attributes content hoccurs
  apply h name attributes content
  rcases hoccurs with hmem | ⟨hmem, hinside⟩
  · exact .here (by simpa using hmem)
  · exact .inside (by simpa using hmem) hinside

theorem AllAttributes.cons_element {nodes content : List Node} {attributes : Entries String}
    (h : AllAttributes p nodes) (hattributes : p attributes) (hcontent : AllAttributes p content)
    (name : String) : AllAttributes p (.element name attributes content :: nodes) := by
  intro name' attributes' content' hoccurs
  rcases hoccurs with hmem | ⟨hmem, hinside⟩
  · rcases List.mem_cons.1 hmem with heq | hmem
    · cases heq
      exact hattributes
    · exact h name' attributes' content' (.here hmem)
  · rcases List.mem_cons.1 hmem with heq | hmem
    · cases heq
      exact hcontent name' attributes' content' hinside
    · exact h name' attributes' content' (.inside hmem hinside)

/-! ### Building -/

inductive Builder.Takes (b : Builder) : Token → Builder → Prop
  | opening {name : String} {attributes : Entries String}
      (hroom : b.stack.length < nestingLimit) :
      Takes b (.opening name attributes) { b with stack := ⟨name, attributes, []⟩ :: b.stack }
  | empty {name : String} {attributes : Entries String}
      (hroom : b.stack.length < nestingLimit) :
      Takes b (.empty name attributes) (b.attach (.element name attributes []))
  | closing {top : OpenElement} {rest : List OpenElement} (hstack : b.stack = top :: rest) :
      Takes b (.closing top.name) (attach top.close { b with stack := rest })
  | blank {s : String} (hstack : b.stack = []) (hblank : isBlankText s.toList) :
      Takes b (.text s) b
  | text {s : String} (hstack : b.stack ≠ []) : Takes b (.text s) (b.attach (.text s))

theorem Builder.takes_of_step {b b' : Builder} {token : Token} (h : b.step token = .ok b') :
    b.Takes token b' := by
  unfold Builder.step at h
  split at h
  · split at h
    · cases h
    next hroom =>
      cases h
      exact .opening (Nat.lt_of_not_le hroom)
  · split at h
    · cases h
    next hroom =>
      cases h
      exact .empty (Nat.lt_of_not_le hroom)
  · split at h
    · cases h
    next top rest hstack =>
      split at h
      next hname =>
        subst hname
        cases h
        exact .closing hstack
      · cases h
  · split at h
    next hempty =>
      split at h
      next hblank =>
        cases h
        exact .blank (List.isEmpty_iff.1 hempty) hblank
      · cases h
    next hopen =>
      cases h
      exact .text (mt List.isEmpty_iff.2 hopen)

/-- Roots are built exactly when the tokens leave them behind and no element open. -/
theorem build_eq_ok_iff_foldlM {tokens : List Token} {roots : List Node} :
    build tokens = .ok roots ↔
      tokens.foldlM Builder.step ⟨[], []⟩ = .ok ⟨[], roots.reverse⟩ := by
  constructor
  · intro h
    obtain ⟨⟨stack, found⟩, hrun, hfinish⟩ := exists_of_bind_eq_ok h
    cases stack with
    | nil =>
        cases hfinish
        rw [hrun, List.reverse_reverse]
    | cons => cases hfinish
  · intro hrun
    rw [build, hrun]
    simp [bind, Except.bind, Builder.finish]

def Token.attributes : Token → Entries String
  | opening _ attributes => attributes
  | empty _ attributes => attributes
  | closing _ => []
  | text _ => []

structure Builder.AllAttributes (p : Entries String → Prop) (b : Builder) : Prop where
  stack : ∀ e ∈ b.stack, p e.attributes ∧ Xml.AllAttributes p e.content
  roots : Xml.AllAttributes p b.roots

/-- A node is stored in front of others, whose elements keep their attributes. -/
theorem Builder.AllAttributes.attach {b : Builder} (h : b.AllAttributes p) {node : Node}
    (hnode : ∀ nodes, Xml.AllAttributes p nodes → Xml.AllAttributes p (node :: nodes)) :
    (b.attach node).AllAttributes p := by
  obtain ⟨stack, roots⟩ := b
  cases stack with
  | nil => exact ⟨h.stack, hnode _ h.roots⟩
  | cons top rest =>
      obtain ⟨⟨htop, hcontent⟩, hrest⟩ := List.forall_mem_cons.1 h.stack
      exact ⟨List.forall_mem_cons.2 ⟨⟨htop, hnode _ hcontent⟩, hrest⟩, h.roots⟩

/-- A token adds no element whose attributes are not its own. -/
theorem Builder.AllAttributes.step {b b' : Builder} (h : b.AllAttributes p) {token : Token}
    (htoken : p token.attributes) (hstep : b.step token = .ok b') : b'.AllAttributes p := by
  cases takes_of_step hstep with
  | opening _ =>
      exact ⟨List.forall_mem_cons.2 ⟨⟨htoken, allAttributes_nil⟩, h.stack⟩, h.roots⟩
  | @empty name _ _ =>
      exact h.attach fun _ hnodes => hnodes.cons_element htoken allAttributes_nil name
  | @closing top rest hstack =>
      obtain ⟨⟨htop, hcontent⟩, hrest⟩ := List.forall_mem_cons.1 (hstack ▸ h.stack)
      have hclosed : Xml.AllAttributes p top.content.reverse :=
        hcontent.subset (List.reverse_subset.2 (List.Subset.refl _))
      have hbelow : Builder.AllAttributes p { b with stack := rest } := ⟨hrest, h.roots⟩
      exact hbelow.attach fun _ hnodes => hnodes.cons_element htop hclosed top.name
  | blank _ _ => exact h
  | @text s _ => exact h.attach fun _ hnodes => hnodes.cons_text s

theorem Builder.AllAttributes.foldlM {tokens : List Token}
    (htokens : ∀ token ∈ tokens, p token.attributes) {b b' : Builder} (h : b.AllAttributes p)
    (hrun : tokens.foldlM Builder.step b = .ok b') : b'.AllAttributes p := by
  induction tokens generalizing b with
  | nil =>
      cases hrun
      exact h
  | cons token tokens ih =>
      obtain ⟨htoken, hrest⟩ := List.forall_mem_cons.1 htokens
      rw [List.foldlM_cons] at hrun
      obtain ⟨next, hstep, hrun⟩ := exists_of_bind_eq_ok hrun
      exact ih hrest (h.step htoken hstep) hrun

/-- The attributes of every element of a tree are those of a token. -/
theorem allAttributes_of_build {tokens : List Token}
    (htokens : ∀ token ∈ tokens, p token.attributes) {roots : List Node}
    (h : build tokens = .ok roots) : AllAttributes p roots := by
  have hempty : Builder.AllAttributes p ⟨[], []⟩ := ⟨by simp, allAttributes_nil⟩
  have hroots := (hempty.foldlM htokens (build_eq_ok_iff_foldlM.1 h)).roots
  exact hroots.subset fun node hnode => List.mem_reverse.2 hnode

/-! ### Tokens of a text -/

/-- Every attribute is given once. -/
def Token.HasDistinctKeys (token : Token) : Prop :=
  (Entries.keys token.attributes).Nodup

instance : DecidablePred Token.HasDistinctKeys := fun token =>
  inferInstanceAs (Decidable (Entries.keys token.attributes).Nodup)

/-- In a tag that gives an attribute twice, the second value takes the place of the first,
so no text has tokens with an attribute that is there twice. -/
theorem hasDistinctKeys_of_tokenize {text : List Char} {tokens : List Token}
    (h : tokenize text = .ok tokens) : ∀ token ∈ tokens, token.HasDistinctKeys := by
  intro token htoken
  cases token with
  | text s => exact List.nodup_nil
  | closing name => exact List.nodup_nil
  | opening name attributes =>
      obtain ⟨m, hm⟩ := (lexed_of_tokenize h).exists_markup htoken nofun
      obtain ⟨pairs, -, rfl⟩ := Markup.exists_pairs (e := .opening) hm
      exact Entries.nodup_keys_ofPairs pairs
  | empty name attributes =>
      obtain ⟨m, hm⟩ := (lexed_of_tokenize h).exists_markup htoken nofun
      obtain ⟨pairs, -, rfl⟩ := Markup.exists_pairs (e := .selfClosing) hm
      exact Entries.nodup_keys_ofPairs pairs

end DocWeave.Xml
