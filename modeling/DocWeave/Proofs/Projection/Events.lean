/-
What the report of a projection holds.  A walk over the template, which comes to a node
before it comes to the nodes in it, meets the events of the report in their order: leaves
that are cut, each under its qualifier, and nodes beyond the deepest level.
-/
import DocWeave.Proofs.Projection.Filled

namespace DocWeave.Projection

/-! ### The walk -/

/-- A node of a template, with its depth and the key or the place it has in the container
around it. -/
structure Visit where
  depth : Nat
  qualifier : String
  template : Value

mutual

/-- The nodes of a template, each before the nodes in it. -/
def visits (depth : Nat) (qualifier : String) (template : Value) : List Visit :=
  ⟨depth, qualifier, template⟩ :: match template with
    | .array items => visitsOfItems (depth + 1) 0 items
    | .object members => visitsOfMembers (depth + 1) members
    | .null | .bool _ | .number _ | .string _ => []

def visitsOfItems (depth place : Nat) : List Value → List Visit
  | [] => []
  | item :: rest =>
      visits depth (Nat.repr place) item ++ visitsOfItems depth (place + 1) rest

def visitsOfMembers (depth : Nat) : List (String × Value) → List Visit
  | [] => []
  | (key, value) :: rest => visits depth key value ++ visitsOfMembers depth rest

end

/-- A walk comes to the root of its template first. -/
theorem exists_visits_eq_cons (depth : Nat) (qualifier : String) (template : Value) :
    ∃ inner, visits depth qualifier template = ⟨depth, qualifier, template⟩ :: inner := by
  cases template <;> exact ⟨_, by rw [visits]⟩

mutual

/-- What a node holds lies deeper than the node. -/
theorem le_depth_of_mem_visits (depth : Nat) (qualifier : String) :
    (template : Value) → ∀ visit ∈ visits depth qualifier template, depth ≤ visit.depth
  | .array items, visit, hvisit => by
      rw [visits, List.mem_cons] at hvisit
      rcases hvisit with rfl | hvisit
      · exact Nat.le_refl depth
      · exact Nat.le_of_succ_le (le_depth_of_mem_visitsOfItems (depth + 1) 0 items visit hvisit)
  | .object members, visit, hvisit => by
      rw [visits, List.mem_cons] at hvisit
      rcases hvisit with rfl | hvisit
      · exact Nat.le_refl depth
      · exact Nat.le_of_succ_le
          (le_depth_of_mem_visitsOfMembers (depth + 1) members visit hvisit)
  | .null, visit, hvisit | .bool _, visit, hvisit | .number _, visit, hvisit
  | .string _, visit, hvisit => by
      rw [visits, List.mem_singleton] at hvisit
      exact Nat.le_of_eq (congrArg Visit.depth hvisit).symm

theorem le_depth_of_mem_visitsOfItems (depth place : Nat) : (items : List Value) →
    ∀ visit ∈ visitsOfItems depth place items, depth ≤ visit.depth
  | [], _, hvisit => nomatch hvisit
  | item :: rest, visit, hvisit => by
      rw [visitsOfItems, List.mem_append] at hvisit
      rcases hvisit with hvisit | hvisit
      · exact le_depth_of_mem_visits depth (Nat.repr place) item visit hvisit
      · exact le_depth_of_mem_visitsOfItems depth (place + 1) rest visit hvisit

theorem le_depth_of_mem_visitsOfMembers (depth : Nat) : (members : List (String × Value)) →
    ∀ visit ∈ visitsOfMembers depth members, depth ≤ visit.depth
  | [], _, hvisit => nomatch hvisit
  | (key, value) :: rest, visit, hvisit => by
      rw [visitsOfMembers, List.mem_append] at hvisit
      rcases hvisit with hvisit | hvisit
      · exact le_depth_of_mem_visits depth key value visit hvisit
      · exact le_depth_of_mem_visitsOfMembers depth rest visit hvisit

end

/-! ### Events -/

/-- The qualifiers of the leaves that are cut, in the order of the walk. -/
def cutQualifiers (caps : Caps) (doc : Value) (walk : List Visit) : List String :=
  (walk.filter fun visit => isCut caps doc visit.depth visit.template).map Visit.qualifier

/-- The report on a walk: every field that was cut, once, and whether a node lay too
deep. -/
def reportOn (caps : Caps) (doc : Value) (walk : List Visit) : Report where
  truncated := !(cutQualifiers caps doc walk).isEmpty
  truncatedFields := (cutQualifiers caps doc walk).eraseDups
  maxDepthReached := walk.any fun visit => caps.depth < visit.depth

theorem cutQualifiers_append (caps : Caps) (doc : Value) (first second : List Visit) :
    cutQualifiers caps doc (first ++ second) =
      cutQualifiers caps doc first ++ cutQualifiers caps doc second := by
  simp [cutQualifiers]

/-- Reports are joined as the parts of the walk are. -/
theorem reportOn_append (caps : Caps) (doc : Value) (first second : List Visit) :
    reportOn caps doc (first ++ second) =
      reportOn caps doc first ++ reportOn caps doc second := by
  change _ = Report.append _ _
  have hremove (xs ys : List String) :
      ys.removeAll xs = ys.filter fun field => !xs.eraseDups.contains field := by
    simp [List.removeAll, List.contains_eq_mem]
  have hempty (xs ys : List String) : (!(xs ++ ys).isEmpty) = (!xs.isEmpty || !ys.isEmpty) := by
    cases xs <;> simp
  simp only [reportOn, Report.append, cutQualifiers_append, List.any_append,
    List.eraseDups_append, hremove, eraseDups_filter, hempty]

/-- A node that is neither a leaf that is cut nor too deep is no event. -/
theorem reportOn_cons_of_quiet {caps : Caps} {doc : Value} {visit : Visit}
    (hcut : isCut caps doc visit.depth visit.template = false)
    (hdepth : ¬ caps.depth < visit.depth) (rest : List Visit) :
    reportOn caps doc (visit :: rest) = reportOn caps doc rest := by
  simp [reportOn, cutQualifiers, hcut, hdepth]

/-- In a part of the template beyond the deepest level nothing is read. -/
theorem reportOn_of_deep {caps : Caps} {depth : Nat} (h : caps.depth < depth) (doc : Value)
    (qualifier : String) (template : Value) :
    reportOn caps doc (visits depth qualifier template) = .tooDeep := by
  have hdeep : ∀ visit ∈ visits depth qualifier template, caps.depth < visit.depth :=
    fun visit hvisit => Nat.lt_of_lt_of_le h (le_depth_of_mem_visits _ _ _ visit hvisit)
  have hnone : cutQualifiers caps doc (visits depth qualifier template) = [] := by
    rw [cutQualifiers, List.map_eq_nil_iff, List.filter_eq_nil_iff]
    intro visit hvisit
    rw [isCut_of_deep (hdeep visit hvisit)]
    exact Bool.false_ne_true
  have hany : ((visits depth qualifier template).any fun visit => caps.depth < visit.depth) =
      true := by
    obtain ⟨inner, hinner⟩ := exists_visits_eq_cons depth qualifier template
    rw [hinner, List.any_cons, decide_eq_true h, Bool.true_or]
  rw [reportOn, hnone, hany]
  rfl

theorem ofMatches_report (cap : Nat) (qualifier : String) (found : List Value) :
    (ofMatches cap qualifier found).report =
      if max 1 cap < found.length then .ofField qualifier else .clean := by
  match found with
  | [] => simp [ofMatches, plain]
  | [only] =>
      rw [if_neg (by simp)]
      rfl
  | first :: second :: rest =>
      simp only [ofMatches, List.length_cons]
      by_cases h : rest.length + 1 + 1 ≤ cap
      · rw [if_pos h, if_neg (by omega)]
        rfl
      · rw [if_neg h, if_pos (by omega)]

theorem isCut_leaf {caps : Caps} {depth : Nat} (hdepth : ¬ caps.depth < depth) (doc : Value)
    (path : String) :
    isCut caps doc depth (.string path) =
      decide (max 1 caps.items < (matchesOf doc path).length) := by
  rw [isCut, decide_eq_true (Nat.le_of_not_lt hdepth), Bool.true_and]

/-- A leaf is an event exactly when it is cut. -/
theorem reportOn_leaf {caps : Caps} {depth : Nat} (hdepth : ¬ caps.depth < depth) (doc : Value)
    (qualifier path : String) :
    reportOn caps doc [⟨depth, qualifier, .string path⟩] =
      (leaf caps.items doc qualifier path).report := by
  rw [leaf_eq_ofMatches, ofMatches_report]
  have hleaf := isCut_leaf hdepth doc path
  by_cases hcut : max 1 caps.items < (matchesOf doc path).length
  · rw [decide_eq_true hcut] at hleaf
    rw [if_pos hcut]
    simp [reportOn, cutQualifiers, hleaf, hdepth, Report.ofField, List.eraseDups_cons]
  · rw [decide_eq_false hcut] at hleaf
    rw [if_neg hcut]
    exact reportOn_cons_of_quiet hleaf hdepth []

/-! ### The whole template -/

mutual

theorem shape_report (caps : Caps) (doc : Value) (depth : Nat) (qualifier : String)
    (template : Value) :
    (shape caps doc depth qualifier template).report =
      reportOn caps doc (visits depth qualifier template) := by
  by_cases hdepth : caps.depth < depth
  -- the projection stops here while the walk goes on, but the walk meets no more than this
  · rw [shape_of_deep hdepth, reportOn_of_deep hdepth]
  · match template with
    | .array items =>
        rw [visits, reportOn_cons_of_quiet rfl hdepth, ← shapeItems_report]
        simp only [shape, if_neg hdepth]
    | .object members =>
        rw [visits, reportOn_cons_of_quiet rfl hdepth, ← shapeMembers_report]
        simp only [shape, if_neg hdepth]
    | .string path =>
        rw [visits, reportOn_leaf hdepth]
        simp only [shape, if_neg hdepth]
    | .null | .bool _ | .number _ =>
        rw [visits, reportOn_cons_of_quiet rfl hdepth]
        simp only [shape, if_neg hdepth]
        rfl

theorem shapeItems_report (caps : Caps) (doc : Value) (depth place : Nat) :
    (items : List Value) → (shapeItems caps doc depth place items).report =
      reportOn caps doc (visitsOfItems depth place items)
  | [] => rfl
  | item :: rest => by
      rw [shapeItems, visitsOfItems, reportOn_append, ← shape_report, ← shapeItems_report]

theorem shapeMembers_report (caps : Caps) (doc : Value) (depth : Nat) :
    (members : List (String × Value)) → (shapeMembers caps doc depth members).report =
      reportOn caps doc (visitsOfMembers depth members)
  | [] => rfl
  | (key, value) :: rest => by
      rw [shapeMembers, visitsOfMembers, reportOn_append, ← shape_report, ← shapeMembers_report]

end

/-- The report of a projection holds the events of its walk and no others: each field that
was cut once, in the order in which they first come up, and whether a node lay too deep. -/
theorem project_report_eq_events (caps : Caps) (template doc : Value) :
    let report := (project caps template doc).report
    let walk := visits 0 rootQualifier template
    report.truncatedFields = (cutQualifiers caps doc walk).eraseDups ∧
      report.truncatedFields.Nodup ∧
      (report.truncated = true ↔ report.truncatedFields ≠ []) ∧
      (report.maxDepthReached = true ↔ ∃ visit ∈ walk, caps.depth < visit.depth) := by
  intro report walk
  have hreport : report = reportOn caps doc walk :=
    shape_report caps doc 0 rootQualifier template
  rw [hreport]
  refine ⟨rfl, nodup_eraseDups _, ?_, ?_⟩
  · cases hcut : cutQualifiers caps doc walk with
    | nil => simp [reportOn, hcut]
    | cons field rest => simp [reportOn, hcut, List.eraseDups_cons]
  · simp [reportOn]

/-- Leaves with one qualifier are one field, and a part that lies too deep is no field. -/
example :
    (project ⟨2, 1⟩ (.object [("b", .array [.string "$.a.*"]), ("a", .string "$.a.*"),
      ("c", .object [("a", .string "$.a.*"), ("d", .array [.string "$.a.*"])])])
      (.object [("a", .array [.null, .null])])).report = ⟨true, ["0", "a"], true⟩ := by
  cbv

end DocWeave.Projection
