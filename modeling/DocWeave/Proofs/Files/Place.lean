/-
Where paths lead.  A path that leads anywhere goes one step for each of its pieces, and
whether it does depends on the directories of a disk alone.  So writing, moving and taking
away files changes where no path leads, and the temporary file for a path is never at the
place of the path itself.
-/
import DocWeave.Files.Disk

namespace DocWeave.Files

/-! ### Pieces of paths -/

theorem consLine_append {c : Char} {first : List (List Char)} (h : first ≠ [])
    (second : List (List Char)) : consLine c (first ++ second) = consLine c first ++ second := by
  cases first with
  | nil => exact absurd rfl h
  | cons line rest => rfl

theorem pieces_ne_nil (path : List Char) : pieces path ≠ [] := by
  cases path with
  | nil => simp [pieces]
  | cons c rest =>
      simp only [pieces]
      split
      · simp
      · cases pieces rest <;> simp [consLine]

/-- A slash parts the pieces before it from those behind it. -/
theorem pieces_append_slash (front behind : List Char) :
    pieces (front ++ '/' :: behind) = pieces front ++ pieces behind := by
  induction front with
  | nil => rfl
  | cons c front ih =>
      simp only [List.cons_append, pieces, ih]
      split
      · rfl
      · exact consLine_append (pieces_ne_nil front) (pieces behind)

theorem pieces_of_not_mem_slash {name : List Char} (h : '/' ∉ name) : pieces name = [name] := by
  induction name with
  | nil => rfl
  | cons c name ih =>
      obtain ⟨hc, hname⟩ := not_or.1 (mt List.mem_cons.2 h)
      rw [pieces, if_neg (Ne.symm hc), ih hname]
      rfl

theorem slash_not_mem_of_mem_pieces {path piece : List Char} (h : piece ∈ pieces path) :
    '/' ∉ piece := by
  induction path generalizing piece with
  | nil => simp_all [pieces]
  | cons c path ih =>
      rw [pieces] at h
      split at h
      · rcases List.mem_cons.1 h with rfl | hmem
        · exact List.not_mem_nil
        · exact ih hmem
      next hc =>
        cases hpath : pieces path with
        | nil => exact absurd hpath (pieces_ne_nil path)
        | cons line rest =>
            rw [hpath] at ih h
            rcases List.mem_cons.1 h with rfl | hmem
            · simpa [Ne.symm hc] using ih List.mem_cons_self
            · exact ih (List.mem_cons_of_mem line hmem)

/-- The pieces of a path whose last piece is a name end in that name. -/
theorem exists_pieces_join_append {name : List Char} (h : '/' ∉ name)
    (parts : List (List Char)) :
    ∃ front, pieces (join (parts ++ [name])) = front ++ [name] := by
  induction parts with
  | nil => exact ⟨[], by simpa [join] using pieces_of_not_mem_slash h⟩
  | cons part parts ih =>
      obtain ⟨front, hfront⟩ := ih
      refine ⟨pieces part ++ front, ?_⟩
      have hjoin : join (part :: parts ++ [name]) = part ++ '/' :: join (parts ++ [name]) := by
        cases parts with
        | nil => simp [join, List.intercalate_cons_cons]
        | cons next others => simp [join, List.intercalate_cons_cons]
      rw [hjoin, pieces_append_slash, hfront, List.append_assoc]

/-- Behind an open end of a path its pieces go on with one more. -/
theorem pieces_append_of_slash {front name : List Char} (h : '/' ∉ name)
    (hslash : front.getLast? = some '/') :
    ∃ parts, pieces front = parts ++ [[]] ∧ pieces (front ++ name) = parts ++ [name] := by
  obtain ⟨before, rfl⟩ : ∃ before, front = before ++ ['/'] :=
    List.getLast?_eq_some_iff.1 hslash
  refine ⟨pieces before, pieces_append_slash before [], ?_⟩
  rw [List.append_assoc, List.singleton_append, pieces_append_slash, pieces_of_not_mem_slash h]

/-! ### Steps -/

namespace Location

theorem step_of_isIdle {piece : List Char} (h : isIdle piece = true) (place : Location) :
    place.step piece = place :=
  if_pos h

/-- A name leads into the directory it is looked up in. -/
theorem step_of_name {name : List Char} (hidle : isIdle name = false) (hup : name ≠ upward)
    (place : Location) : place.step name = place ++ [String.ofList name] := by
  rw [step, hidle, if_neg hup]
  rfl

def follow (place : Location) (parts : List (List Char)) : Location :=
  parts.foldl step place

theorem follow_append (place : Location) (first second : List (List Char)) :
    place.follow (first ++ second) = (place.follow first).follow second :=
  List.foldl_append

/-- Idle pieces lead nowhere. -/
theorem follow_filter (place : Location) (parts : List (List Char)) :
    place.follow (parts.filter fun piece => !isIdle piece) = place.follow parts := by
  induction parts generalizing place with
  | nil => rfl
  | cons piece parts ih =>
      rw [List.filter_cons]
      cases hidle : isIdle piece with
      | true =>
          have hstep : place.follow (piece :: parts) = place.follow parts := by
            rw [follow, List.foldl_cons, step_of_isIdle hidle]
            rfl
          rw [hstep]
          exact ih place
      | false => exact ih (place.step piece)

end Location

/-! ### Paths on a disk -/

namespace Disk

def SameDirectories (first second : Disk) : Prop :=
  ∀ place, first.node? place = some .directory ↔ second.node? place = some .directory

theorem enter_eq_ok (disk : Disk) (place : Location) (entered : Unit) :
    disk.enter place = .ok entered ↔ disk.node? place = some .directory := by
  unfold enter
  cases disk.node? place with
  | none => simp
  | some node => cases node <;> simp

/-- A walk that comes to its end goes through directories. -/
theorem walk_cons_eq_ok (disk : Disk) (place : Location) (piece : List Char)
    (rest : List (List Char)) (last : Location) :
    disk.walk place (piece :: rest) = .ok last ↔ disk.node? place = some .directory ∧
      utf8Length piece ≤ nameLimit ∧ disk.walk (place.step piece) rest = .ok last := by
  rw [walk, ← enter_eq_ok disk place ()]
  cases disk.enter place with
  | error e => simp [bind, Except.bind]
  | ok entered =>
      by_cases hlong : nameLimit < utf8Length piece
      · simp [bind, Except.bind, hlong, Nat.not_le.2 hlong, throw, throwThe,
          MonadExceptOf.throw]
      · simp [bind, Except.bind, hlong, Nat.not_lt.1 hlong]

/-- A walk depends on directories alone. -/
theorem SameDirectories.walk {first second : Disk} (h : first.SameDirectories second)
    (place last : Location) (parts : List (List Char)) :
    first.walk place parts = .ok last ↔ second.walk place parts = .ok last := by
  induction parts generalizing place with
  | nil => exact Iff.rfl
  | cons piece rest ih => rw [walk_cons_eq_ok, walk_cons_eq_ok, h place, ih]

/-- A walk that comes to its end makes all steps. -/
theorem follow_of_walk {disk : Disk} {place last : Location} {parts : List (List Char)}
    (h : disk.walk place parts = .ok last) : place.follow parts = last := by
  induction parts generalizing place with
  | nil => exact Except.ok.inj h
  | cons piece rest ih =>
      obtain ⟨-, -, hrest⟩ := (walk_cons_eq_ok disk place piece rest last).1 h
      exact ih hrest

theorem locate_eq_ok (disk : Disk) (path : String) (place : Location) :
    disk.locate path = .ok place ↔ '\x00' ∉ path.toList ∧ path.toList ≠ [] ∧
      utf8Length path.toList ≤ pathLimit ∧
      disk.walk (startOf path.toList) (pieces path.toList) = .ok place := by
  unfold locate
  generalize path.toList = text
  by_cases hzero : '\x00' ∈ text
  · simp [hzero]
  · by_cases hempty : text = []
    · simp [hempty]
    · by_cases hlong : pathLimit < utf8Length text
      · simp [hzero, hempty, hlong, Nat.not_le.2 hlong]
      · simp [hzero, hempty, hlong, Nat.not_lt.1 hlong]

/-- Where a path leads depends on directories alone. -/
theorem SameDirectories.locate {first second : Disk} (h : first.SameDirectories second)
    (path : String) (place : Location) :
    first.locate path = .ok place ↔ second.locate path = .ok place := by
  rw [locate_eq_ok, locate_eq_ok, h.walk]

/-- A path leads as far as its pieces do. -/
theorem follow_of_locate {disk : Disk} {path : String} {place : Location}
    (h : disk.locate path = .ok place) :
    (startOf path.toList).follow (pieces path.toList) = place :=
  follow_of_walk ((locate_eq_ok disk path place).1 h).2.2.2

/-- A path that ends in a name leads to that name. -/
theorem exists_eq_append_of_locate {disk : Disk} {path : String} {place : Location}
    (h : disk.locate path = .ok place) {name : List Char}
    (hname : fileName? path.toList = some name) :
    ∃ front, place = front ++ [String.ofList name] := by
  obtain ⟨hlast, hup⟩ := Option.filter_eq_some_iff.1 hname
  obtain ⟨front, hfront⟩ := List.getLast?_eq_some_iff.1 hlast
  have hidle : isIdle name = false := by
    have hmem : name ∈ (pieces path.toList).filter fun piece => !isIdle piece := by
      rw [hfront]
      exact List.mem_append_right front List.mem_cons_self
    simpa using (List.mem_filter.1 hmem).2
  refine ⟨(startOf path.toList).follow front, ?_⟩
  rw [← follow_of_locate h, ← Location.follow_filter, hfront, Location.follow_append]
  exact Location.step_of_name hidle (by simpa using hup) _

end Disk

/-! ### The temporary file -/

theorem length_append_temporaryEnding (name : List Char) :
    (name ++ temporaryEnding).length = name.length + 4 :=
  List.length_append

/-- A name with the ending of a temporary file is one that leads into a directory. -/
theorem follow_append_temporaryEnding (place : Location) (name : List Char) :
    place.follow [name ++ temporaryEnding] =
      place ++ [String.ofList (name ++ temporaryEnding)] := by
  have hlength := length_append_temporaryEnding name
  apply Location.step_of_name
  · rw [isIdle, Bool.or_eq_false_iff]
    constructor
    · rw [List.isEmpty_eq_false_iff]
      exact List.ne_nil_of_length_pos (by omega)
    · refine beq_false_of_ne fun heq => ?_
      rw [heq, List.length_singleton] at hlength
      omega
  · intro heq
    rw [heq, upward, List.length_cons, List.length_singleton] at hlength
    omega

theorem slash_not_mem_temporaryEnding : '/' ∉ temporaryEnding := by
  decide

theorem startOf_append {front : List Char} (h : front ≠ []) (behind : List Char) :
    Disk.startOf (front ++ behind) = Disk.startOf front := by
  cases front with
  | nil => exact absurd rfl h
  | cons c front => rfl

/-- The temporary file for a path that ends in a name is under a longer name. -/
theorem exists_pieces_temporary {path : String} {name : List Char}
    (hname : fileName? path.toList = some name) :
    ∃ front, pieces (temporary path).toList = front ++ [name ++ temporaryEnding] := by
  have hslash : '/' ∉ name := by
    have hlast := (Option.filter_eq_some_iff.1 hname).1
    have hmem := List.mem_of_getLast? hlast
    exact slash_not_mem_of_mem_pieces (List.mem_filter.1 hmem).1
  rw [temporary, String.toList_ofList, hname]
  exact exists_pieces_join_append
    (by simp [hslash, slash_not_mem_temporaryEnding]) (parent path.toList)

/-- The temporary file for a path that ends in no name is in the directory that the path
leads to. -/
theorem follow_temporary_of_no_name {path : String} (hempty : path.toList ≠ [])
    (hname : fileName? path.toList = none) :
    (Disk.startOf (temporary path).toList).follow (pieces (temporary path).toList) =
      (Disk.startOf path.toList).follow (pieces path.toList) ++
        [String.ofList temporaryEnding] := by
  have hending (place : Location) : place.follow [temporaryEnding] =
      place ++ [String.ofList temporaryEnding] :=
    follow_append_temporaryEnding place []
  rw [temporary, String.toList_ofList, hname]
  by_cases hslash : path.toList.getLast? = some '/'
  · obtain ⟨parts, hpath, htemporary⟩ :=
      pieces_append_of_slash slash_not_mem_temporaryEnding hslash
    simp only [hslash, decide_true, Bool.or_true, ↓reduceIte]
    rw [startOf_append hempty, htemporary, hpath, Location.follow_append,
      Location.follow_append, hending]
    rfl
  · have hnot : (path.toList.isEmpty || decide (path.toList.getLast? = some '/')) = false := by
      simp [hempty, hslash]
    simp only [hnot, Bool.false_eq_true, ↓reduceIte]
    rw [startOf_append hempty, pieces_append_slash,
      pieces_of_not_mem_slash slash_not_mem_temporaryEnding, Location.follow_append, hending]

/-- The temporary file for a path is not where the path leads. -/
theorem locate_temporary_ne {disk : Disk} {path : String} {target neighbor : Location}
    (htarget : disk.locate path = .ok target)
    (hneighbor : disk.locate (temporary path) = .ok neighbor) : target ≠ neighbor := by
  intro heq
  cases hname : fileName? path.toList with
  | some name =>
      obtain ⟨above, habove⟩ := Disk.exists_eq_append_of_locate htarget hname
      obtain ⟨front, hfront⟩ := exists_pieces_temporary hname
      have hlast := Disk.follow_of_locate hneighbor
      rw [hfront, Location.follow_append, follow_append_temporaryEnding, ← heq, habove] at hlast
      have hsame := (List.append_singleton_inj.1 hlast).2
      have hlength := congrArg List.length (String.ofList_injective hsame)
      rw [length_append_temporaryEnding] at hlength
      omega
  | none =>
      have hempty := ((Disk.locate_eq_ok disk path target).1 htarget).2.1
      have hfollow := follow_temporary_of_no_name hempty hname
      rw [Disk.follow_of_locate htarget, Disk.follow_of_locate hneighbor, ← heq] at hfollow
      simpa using congrArg List.length hfollow

end DocWeave.Files
