/-
Conditions on single values that hold throughout whatever marked-up text is read as.  The
members of an element are written one after the other, and a list comes about only where a
child element meets another one of its name.
-/
import DocWeave.Proofs.Value.Writing
import DocWeave.Proofs.Xml.Nesting

namespace DocWeave.Xml

theorem kind_assemble_ne_array (attributes : Entries String) (text : List Char)
    (children : List (String × Value)) : (assemble attributes text children).kind ≠ .array := by
  unfold assemble
  dsimp only
  repeat' split
  all_goals exact nofun

theorem kind_ne_array_of_mem_childValues (content : List Node) :
    ∀ child ∈ childValues content, child.2.kind ≠ .array := by
  induction content with
  | nil => simp [childValues]
  | cons node rest ih =>
      cases node with
      | text s => simpa only [childValues] using ih
      | element name attributes content =>
          simp only [childValues, Node.value]
          exact List.forall_mem_cons.2 ⟨kind_assemble_ne_array _ _ _, ih⟩

/-- A condition that is met by texts and objects, however members are written into these,
and by a list of two values that are no lists, to which more such values are added. -/
structure KeptByElements (p : Value → Prop) : Prop where
  string (s : String) : p (.string s)
  empty : p (.object [])
  insert {entries : Entries Value} (h : p (.object entries)) (key : String) (v : Value) :
    p (.object (Entries.insert key v entries))
  pair {first second : Value} (hfirst : first.kind ≠ .array) (hsecond : second.kind ≠ .array) :
    p (.array [first, second])
  append {items : List Value} {v : Value} (h : p (.array items)) (hv : v.kind ≠ .array) :
    p (.array (items ++ [v]))

namespace KeptByElements

variable {p : Value → Prop}

theorem everywhere_string (hp : KeptByElements p) (s : String) : (Value.string s).Everywhere p :=
  (Value.everywhere_iff_of_parts_eq_nil rfl).2 (hp.string s)

theorem everywhere_empty (hp : KeptByElements p) : (Value.object []).Everywhere p :=
  (Value.everywhere_object_iff []).2 ⟨hp.empty, nofun⟩

theorem everywhere_insert (hp : KeptByElements p) {entries : Entries Value}
    (h : (Value.object entries).Everywhere p) (key : String) {v : Value} (hv : v.Everywhere p) :
    (Value.object (Entries.insert key v entries)).Everywhere p :=
  h.insert (hp.insert ((Value.everywhere_object_iff entries).1 h).1 key v) hv

theorem everywhere_addChild (hp : KeptByElements p) {entries : Entries Value}
    (h : (Value.object entries).Everywhere p) {child : String × Value}
    (hchild : child.2.Everywhere p) (hkind : child.2.kind ≠ .array) :
    (Value.object (addChild entries child)).Everywhere p := by
  unfold addChild
  split
  next items hfind =>
    obtain ⟨hhere, hitems⟩ := (Value.everywhere_array_iff items).1 (h.find? hfind)
    apply hp.everywhere_insert h
    rw [Value.everywhere_array_iff, List.forall_mem_append, List.forall_mem_singleton]
    exact ⟨hp.append hhere hkind, hitems, hchild⟩
  next first hfirst hfind =>
    have hkindFirst : first.kind ≠ .array := by
      cases first with
      | array items => exact absurd rfl (hfirst items)
      | null | bool _ | number _ | string _ | object _ => exact nofun
    apply hp.everywhere_insert h
    rw [Value.everywhere_array_iff, List.forall_mem_cons, List.forall_mem_singleton]
    exact ⟨hp.pair hkindFirst hkind, h.find? hfind, hchild⟩
  next => exact hp.everywhere_insert h child.1 hchild

theorem everywhere_foldl_addChild (hp : KeptByElements p) {entries : Entries Value}
    (h : (Value.object entries).Everywhere p) {children : List (String × Value)}
    (hchildren : ∀ child ∈ children, child.2.Everywhere p)
    (hkinds : ∀ child ∈ children, child.2.kind ≠ .array) :
    (Value.object (children.foldl addChild entries)).Everywhere p :=
  List.foldlRecOn (motive := fun entries => (Value.object entries).Everywhere p) children _ h
    fun _ hentries child hmem =>
      hp.everywhere_addChild hentries (hchildren child hmem) (hkinds child hmem)

theorem everywhere_assemble (hp : KeptByElements p) (attributes : Entries String)
    (text : List Char) {children : List (String × Value)}
    (hchildren : ∀ child ∈ children, child.2.Everywhere p)
    (hkinds : ∀ child ∈ children, child.2.kind ≠ .array) :
    (assemble attributes text children).Everywhere p := by
  have hattributes : (Value.object (attributes.foldl (fun entries a =>
      Entries.insert (attributeKey a.1) (.string a.2) entries) [])).Everywhere p :=
    List.foldlRecOn (motive := fun entries => (Value.object entries).Everywhere p) attributes _
      hp.everywhere_empty fun _ hentries a _ =>
        hp.everywhere_insert hentries _ (hp.everywhere_string a.2)
  have hall := hp.everywhere_foldl_addChild hattributes hchildren hkinds
  unfold assemble
  dsimp only
  split
  next =>
    split
    next => exact hattributes
    next =>
      split
      next => exact hp.everywhere_string _
      next => exact hp.everywhere_insert hattributes valueKey (hp.everywhere_string _)
  next =>
    split
    next => exact hall
    next => exact hp.everywhere_insert hall textKey (hp.everywhere_string _)

mutual

theorem everywhere_value (hp : KeptByElements p) : (node : Node) → node.value.Everywhere p
  | .text s => hp.everywhere_string s
  | .element _ attributes content =>
      hp.everywhere_assemble attributes (joinedText content) (everywhere_childValues hp content)
        (kind_ne_array_of_mem_childValues content)

theorem everywhere_childValues (hp : KeptByElements p) :
    (content : List Node) → ∀ child ∈ childValues content, child.2.Everywhere p
  | [] => by simp [childValues]
  | .text _ :: rest => everywhere_childValues hp rest
  | .element name attributes content :: rest => by
      rw [childValues, List.forall_mem_cons]
      exact ⟨everywhere_value hp (.element name attributes content),
        everywhere_childValues hp rest⟩

end

theorem everywhere_of_parse (hp : KeptByElements p) {text : String} {v : Value}
    (h : parse text = .ok v) : v.Everywhere p := by
  obtain ⟨tokens, roots, -, -, rfl⟩ := exists_of_parse h
  exact hp.everywhere_foldl_addChild hp.everywhere_empty (hp.everywhere_childValues roots)
    (kind_ne_array_of_mem_childValues roots)

end KeptByElements

end DocWeave.Xml
