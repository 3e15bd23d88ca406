/-
What saving changes.  Each operation changes a disk at most at the place where its path
leads, and never makes or takes away a directory.  Saving therefore changes a disk at its
target and at its temporary file alone: a failure leaves the target as it was, and a
success leaves the whole text there.
-/
import DocWeave.Files.Save
import DocWeave.Proofs.Files.Place
import DocWeave.Proofs.Outcome

namespace DocWeave.Files

/-! ### Changes of a disk -/

namespace Disk

def find? (disk : Disk) (path : String) : Option Node :=
  match disk.locate path with
  | .ok place => disk.node? place
  | .error _ => none

theorem find?_eq_some_iff {disk : Disk} {path : String} {node : Node} :
    disk.find? path = some node ↔
      ∃ place, disk.locate path = .ok place ∧ disk.node? place = some node := by
  unfold find?
  cases disk.locate path <;> simp

/-- Disks with the same directories agree on places with no file. -/
theorem SameDirectories.node?_eq {first second : Disk} (h : first.SameDirectories second)
    {place : Location} (hfirst : ∀ bytes, first.node? place ≠ some (.file bytes))
    (hsecond : ∀ bytes, second.node? place ≠ some (.file bytes)) :
    second.node? place = first.node? place := by
  ext node
  cases node with
  | file bytes => simp [hfirst bytes, hsecond bytes]
  | directory => exact (h place).symm

/-- A disk is as before, but perhaps for a file where a path leads. -/
structure SameBeside (path : String) (before after : Disk) : Prop where
  elsewhere : ∀ place, before.locate path ≠ .ok place → after.node? place = before.node? place
  directories : before.SameDirectories after

namespace SameBeside

variable {path other : String} {before after : Disk} {place : Location}

theorem refl (path : String) (disk : Disk) : SameBeside path disk disk :=
  ⟨fun _ _ => rfl, fun _ => Iff.rfl⟩

theorem trans {first second third : Disk} (h : SameBeside path first second)
    (h' : SameBeside path second third) : SameBeside path first third where
  elsewhere place hne := by
    have hsecond : second.locate path ≠ .ok place :=
      mt (h.directories.locate path place).2 hne
    rw [h'.elsewhere place hsecond, h.elsewhere place hne]
  directories place := (h.directories place).trans (h'.directories place)

/-- A change at one place is none elsewhere if no directory is or was at that place. -/
theorem of_locate (hlocate : before.locate path = .ok place)
    (hbefore : before.node? place ≠ some .directory)
    (hafter : after.node? place ≠ some .directory)
    (helse : ∀ other, other ≠ place → after.node? other = before.node? other) :
    SameBeside path before after where
  elsewhere other hne := helse other fun heq => hne (heq ▸ hlocate)
  directories other := by
    by_cases hother : other = place
    · simp [hother, hbefore, hafter]
    · rw [helse other hother]

/-- What is where another path leads is as before. -/
theorem find?_eq (h : SameBeside path before after)
    (hne : ∀ place, before.locate other = .ok place → before.locate path ≠ .ok place) :
    after.find? other = before.find? other := by
  ext node
  rw [find?_eq_some_iff, find?_eq_some_iff]
  refine exists_congr fun place => ?_
  rw [← h.directories.locate other place]
  exact and_congr_right fun hlocate => by rw [h.elsewhere place (hne place hlocate)]

end SameBeside

variable {disk after : Disk} {place : Location} {path : String} {bytes : Bytes}

/-- The directories above are always there. -/
theorem isAbove_eq_false (h : disk.node? place ≠ some .directory) : place.isAbove = false :=
  Bool.eq_false_iff.2 fun habove => h (if_pos habove)

theorem sameBeside_put (hlocate : disk.locate path = .ok place)
    (h : disk.node? place ≠ some .directory) (bytes : Bytes) :
    SameBeside path disk (disk.put place (.file bytes)) := by
  refine .of_locate hlocate h ?_ fun other hother => node?_put_of_ne hother disk _
  simp [node?_put_self (isAbove_eq_false h)]

theorem sameBeside_erase (hlocate : disk.locate path = .ok place)
    (h : disk.node? place ≠ some .directory) : SameBeside path disk (disk.erase place) := by
  refine .of_locate hlocate h ?_ fun other hother => node?_erase_of_ne hother disk
  simp [node?_erase_self (isAbove_eq_false h)]

/-- A file that is moved is no longer where it was. -/
theorem node?_move {old new : Location} (hnode : disk.node? old = some (.file bytes))
    (hne : place ≠ new) : ((disk.erase old).put new (.file bytes)).node? place =
      if place = old then none else disk.node? place := by
  have hfile : disk.node? old ≠ some .directory := by simp [hnode]
  rw [node?_put_of_ne hne]
  split
  next hplace => rw [hplace, node?_erase_self (isAbove_eq_false hfile)]
  next hplace => exact node?_erase_of_ne hplace disk

theorem sameDirectories_move {old new : Location} (hnode : disk.node? old = some (.file bytes))
    (hfree : disk.node? new ≠ some .directory) :
    disk.SameDirectories ((disk.erase old).put new (.file bytes)) := by
  intro place
  by_cases hnew : place = new
  · simp [hnew, hfree, node?_put_self (isAbove_eq_false hfree)]
  · rw [node?_move hnode hnew]
    split
    next hplace => simp [hplace, hnode]
    next hplace => exact Iff.rfl

/-! ### Operations that succeed -/

theorem write_eq_ok (h : disk.write path bytes = .ok after) :
    ∃ place, disk.locate path = .ok place ∧ disk.node? place ≠ some .directory ∧
      after = disk.put place (.file bytes) := by
  obtain ⟨place, hlocate, h⟩ := exists_of_bind_eq_ok h
  split at h
  · cases h
  next hnode => exact ⟨place, hlocate, hnode, (Except.ok.inj h).symm⟩

theorem remove_eq_ok (h : disk.remove path = .ok after) :
    ∃ place, disk.locate path = .ok place ∧ disk.node? place ≠ some .directory ∧
      after = disk.erase place := by
  obtain ⟨place, hlocate, h⟩ := exists_of_bind_eq_ok h
  split at h
  next bytes hnode => exact ⟨place, hlocate, by simp [hnode], (Except.ok.inj h).symm⟩
  · cases h
  · cases h

/-- A removal that fails finds no file. -/
theorem node?_of_remove_eq_error {e : DiskError} (h : disk.remove path = .error e)
    (hlocate : disk.locate path = .ok place) (bytes : Bytes) :
    disk.node? place ≠ some (.file bytes) := by
  intro hnode
  simp [remove, hlocate, bind, Except.bind, hnode, pure, Except.pure] at h

/-- A move puts the file where the new path leads, and nothing is left where it was. -/
theorem rename_eq_ok {source target : String} (h : disk.rename source target = .ok after) :
    ∃ old new bytes, disk.locate source = .ok old ∧ disk.node? old = some (.file bytes) ∧
      disk.locate target = .ok new ∧ disk.SameDirectories after ∧
      after.node? new = some (.file bytes) ∧
      ∀ place, place ≠ new →
        after.node? place = if place = old then none else disk.node? place := by
  obtain ⟨old, hold, h⟩ := exists_of_bind_eq_ok h
  split at h
  next bytes hnode =>
    obtain ⟨-, -, h⟩ := exists_of_bind_eq_ok h
    obtain ⟨new, hnew, h⟩ := exists_of_bind_eq_ok h
    split at h
    · cases h
    next hfree =>
      obtain rfl := Except.ok.inj h
      have hmoved := node?_put_self (isAbove_eq_false hfree) (disk.erase old) (.file bytes)
      exact ⟨old, new, bytes, hold, hnode, hnew, sameDirectories_move hnode hfree, hmoved,
        fun place hne => node?_move hnode hne⟩
  · cases h
  · cases h

end Disk

/-! ### Operations on a device -/

namespace Device

variable {device after : Device} {path : String} {bytes : Bytes}

/-- Writing, whether it fails or not, changes at most the file. -/
theorem sameBeside_write (device : Device) (path : String) (bytes : Bytes) :
    Disk.SameBeside path device.disk (device.write path bytes).2.disk ∧
      (device.write path bytes).2.failures = device.failures := by
  have hwritten (content : Bytes) {disk : Disk} (h : device.disk.write path content = .ok disk) :
      Disk.SameBeside path device.disk disk := by
    obtain ⟨place, hlocate, hnode, rfl⟩ := Disk.write_eq_ok h
    exact Disk.sameBeside_put hlocate hnode content
  have hrefl := Disk.SameBeside.refl path device.disk
  unfold write
  split
  · cases h : device.disk.write path bytes with
    | ok disk => exact ⟨hwritten bytes h, rfl⟩
    | error e => exact ⟨hrefl, rfl⟩
  · exact ⟨hrefl, rfl⟩
  next e count hfail =>
    cases h : device.disk.write path (bytes.take count) with
    | ok disk => exact ⟨hwritten (bytes.take count) h, rfl⟩
    | error e' => exact ⟨hrefl, rfl⟩

/-- Writing that succeeds leaves all bytes. -/
theorem write_eq_ok {done : Unit} (h : device.write path bytes = (.ok done, after)) :
    ∃ place, device.disk.locate path = .ok place ∧
      device.disk.node? place ≠ some .directory ∧
      after = { device with disk := device.disk.put place (.file bytes) } := by
  unfold write at h
  split at h
  · cases hdisk : device.disk.write path bytes with
    | error e => simp [hdisk, settle] at h
    | ok disk =>
        obtain ⟨place, hlocate, hnode, rfl⟩ := Disk.write_eq_ok hdisk
        rw [hdisk] at h
        exact ⟨place, hlocate, hnode, (Prod.mk.inj h).2.symm⟩
  · cases h
  · split at h <;> cases h

/-- Taking a file away, whether it fails or not, changes at most the file. -/
theorem sameBeside_remove (device : Device) (path : String) :
    Disk.SameBeside path device.disk (device.remove path).2.disk := by
  have hrefl := Disk.SameBeside.refl path device.disk
  unfold remove
  split
  · cases h : device.disk.remove path with
    | ok disk =>
        obtain ⟨place, hlocate, hnode, rfl⟩ := Disk.remove_eq_ok h
        exact Disk.sameBeside_erase hlocate hnode
    | error e => exact hrefl
  · exact hrefl

/-- Unless taking away is made to fail, no file is left. -/
theorem node?_remove_ne_file (h : device.failures.remove = none) {place : Location}
    (hlocate : device.disk.locate path = .ok place) (bytes : Bytes) :
    (device.remove path).2.disk.node? place ≠ some (.file bytes) := by
  simp only [remove, h]
  cases hremove : device.disk.remove path with
  | ok disk =>
      obtain ⟨place', hlocate', hnode, rfl⟩ := Disk.remove_eq_ok hremove
      obtain rfl : place' = place := Except.ok.inj (hlocate'.symm.trans hlocate)
      simp [settle, Disk.node?_erase_self (Disk.isAbove_eq_false hnode)]
  | error e => exact Disk.node?_of_remove_eq_error hremove hlocate bytes

theorem rename_eq_error {source target : String} {e : DiskError}
    (h : device.rename source target = (.error e, after)) : after = device := by
  unfold rename at h
  split at h
  · cases hdisk : device.disk.rename source target with
    | error e' => exact (Prod.mk.inj (hdisk ▸ h)).2.symm
    | ok disk => simp [hdisk, settle] at h
  · exact (Prod.mk.inj h).2.symm

theorem rename_eq_ok {source target : String} {done : Unit}
    (h : device.rename source target = (.ok done, after)) :
    device.disk.rename source target = .ok after.disk := by
  unfold rename at h
  split at h
  · cases hdisk : device.disk.rename source target with
    | error e => simp [hdisk, settle] at h
    | ok disk =>
        rw [hdisk] at h
        rw [← (Prod.mk.inj h).2]
  · cases h

end Device

/-! ### Saving -/

section Saving

variable [Compressor] {path text : String} {device after : Device}

/-- Saving fails before anything is written, or it fails and ends with taking the temporary file
away, or it has written and moved that file. -/
theorem save_cases {result : Except SaveError Unit}
    (h : (save path text : StateM Device _).run device = (result, after)) :
    (∃ cause, result = .error (.compress cause) ∧ after = device) ∨
    ∃ bytes, savedBytes path text = .ok bytes ∧
      ((∃ e, result = .error e ∧ (∀ cause, e ≠ .compress cause) ∧
          after = ((device.write (temporary path) bytes).2.remove (temporary path)).2) ∨
        ∃ written, result = .ok () ∧
          device.write (temporary path) bytes = (.ok (), written) ∧
          written.rename (temporary path) path = (.ok (), after)) := by
  unfold save at h
  rcases hbytes : savedBytes path text with cause | bytes
  · rw [hbytes] at h
    obtain ⟨rfl, rfl⟩ := Prod.mk.inj h
    exact .inl ⟨cause, rfl, rfl⟩
  refine .inr ⟨bytes, rfl, ?_⟩
  simp only [hbytes, StateT.run, bind, StateT.bind, pure, FileAccess.write, FileAccess.rename,
    FileAccess.remove] at h
  rcases hwrite : device.write (temporary path) bytes with ⟨_ | _, written⟩
  · rw [hwrite] at h
    obtain ⟨rfl, rfl⟩ := Prod.mk.inj h
    exact .inl ⟨_, rfl, by simp, rfl⟩
  · simp only [hwrite, StateT.bind, bind] at h
    rcases hrename : written.rename (temporary path) path with ⟨_ | _, moved⟩
    · rw [hrename, Device.rename_eq_error hrename] at h
      obtain ⟨rfl, rfl⟩ := Prod.mk.inj h
      exact .inl ⟨_, rfl, by simp, rfl⟩
    · rw [hrename] at h
      obtain ⟨rfl, rfl⟩ := Prod.mk.inj h
      exact .inr ⟨written, rfl, rfl, hrename⟩

/-- A failure changes at most the temporary file.  If it lies in compressing, nothing is changed
at all; otherwise no temporary file is left, unless taking it away is made to fail too. -/
theorem sameBeside_of_save_error {e : SaveError}
    (h : (save path text : StateM Device _).run device = (.error e, after)) :
    Disk.SameBeside (temporary path) device.disk after.disk ∧
      ((∃ cause, e = .compress cause) → after = device) ∧
      ((∀ cause, e ≠ .compress cause) → device.failures.remove = none →
        ∀ neighbor, device.disk.locate (temporary path) = .ok neighbor →
          ∀ bytes, after.disk.node? neighbor ≠ some (.file bytes)) := by
  rcases save_cases h with ⟨cause, he, rfl⟩ | ⟨bytes, -, ⟨_, he, hlate, rfl⟩ | ⟨_, hok, -⟩⟩
  · obtain rfl := Except.error.inj he
    exact ⟨.refl _ _, fun _ => rfl, fun hlate => absurd rfl (hlate cause)⟩
  · obtain rfl := Except.error.inj he
    obtain ⟨hwritten, hfailures⟩ := Device.sameBeside_write device (temporary path) bytes
    refine ⟨hwritten.trans (Device.sameBeside_remove _ _), fun ⟨cause, hearly⟩ =>
      absurd hearly (hlate cause), fun _ hremove neighbor hlocate => ?_⟩
    exact Device.node?_remove_ne_file (by rw [hfailures, hremove])
      ((hwritten.directories.locate (temporary path) neighbor).1 hlocate)
  · cases hok

/-- A success leaves the text at the target and nothing at the temporary file. -/
theorem disk_of_save_ok {done : Unit}
    (h : (save path text : StateM Device _).run device = (.ok done, after)) :
    ∃ target neighbor bytes, device.disk.locate path = .ok target ∧
      device.disk.locate (temporary path) = .ok neighbor ∧ target ≠ neighbor ∧
      Disk.SameDirectories device.disk after.disk ∧
      savedBytes path text = .ok bytes ∧
      after.disk.node? target = some (.file bytes) ∧
      after.disk.node? neighbor = none ∧
      ∀ place, place ≠ target → place ≠ neighbor →
        after.disk.node? place = device.disk.node? place := by
  rcases save_cases h with ⟨_, hok, -⟩ | ⟨bytes, hsaved, ⟨_, hok, -⟩ | ⟨_, -, hwrite, hrename⟩⟩
  · cases hok
  · cases hok
  · obtain ⟨neighbor, hneighbor, hfree, rfl⟩ := Device.write_eq_ok hwrite
    obtain ⟨old, target, moved, hold, hmoved, htarget, hsame, htext, helse⟩ :=
      Disk.rename_eq_ok (Device.rename_eq_ok hrename)
    have hput := Disk.sameBeside_put hneighbor hfree bytes
    -- The file that is moved is the one that was written.
    obtain rfl : old = neighbor :=
      Except.ok.inj (hold.symm.trans ((hput.directories.locate _ _).1 hneighbor))
    rw [Disk.node?_put_self (Disk.isAbove_eq_false hfree)] at hmoved
    obtain rfl := Node.file.inj (Option.some.inj hmoved)
    have htarget' := (hput.directories.locate _ _).2 htarget
    have hne := locate_temporary_ne htarget' hneighbor
    refine ⟨target, old, _, htarget', hneighbor, hne, fun place => ?_, hsaved, htext, ?_, ?_⟩
    · exact (hput.directories place).trans (hsame place)
    · rw [helse old hne.symm, if_pos rfl]
    · intro place hplace hold'
      rw [helse place hplace, if_neg hold', Disk.node?_put_of_ne hold']

/-- Where the path leads there is what was there before, if saving fails. -/
theorem find?_of_save_error {e : SaveError}
    (h : (save path text : StateM Device _).run device = (.error e, after)) :
    after.disk.find? path = device.disk.find? path :=
  (sameBeside_of_save_error h).1.find?_eq fun _ hlocate htemporary =>
    locate_temporary_ne hlocate htemporary rfl

/-- Where the path leads there is the whole text, if saving succeeds. -/
theorem find?_of_save_ok {done : Unit}
    (h : (save path text : StateM Device _).run device = (.ok done, after)) :
    ∃ bytes, savedBytes path text = .ok bytes ∧
      after.disk.find? path = some (.file bytes) := by
  obtain ⟨target, neighbor, bytes, htarget, -, -, hsame, hsaved, htext, -⟩ := disk_of_save_ok h
  exact ⟨bytes, hsaved,
    Disk.find?_eq_some_iff.2 ⟨target, (hsame.locate path target).1 htarget, htext⟩⟩

/-- Saving touches the target and the temporary file next to it, and nothing else.  If it
succeeds, the target holds the text and the temporary file is gone, whether one was there
before or not.  If it fails, everything but the temporary file is as it was, the target
included.  A failure in compressing comes before anything is written and leaves that file alone
as well; after any other failure, unless the removal is made to fail, no temporary file is left,
so that all is as it was if there was none. -/
theorem touched_by_save (path text : String) (device : Device) :
    match (save path text : StateM Device _).run device with
    | (.ok (), after) =>
        ∃ target neighbor bytes, device.disk.locate path = .ok target ∧
          device.disk.locate (temporary path) = .ok neighbor ∧ target ≠ neighbor ∧
          savedBytes path text = .ok bytes ∧
          after.disk.node? target = some (.file bytes) ∧
          after.disk.node? neighbor = none ∧
          ∀ place, place ≠ target → place ≠ neighbor →
            after.disk.node? place = device.disk.node? place
    | (.error e, after) =>
        (∀ target, device.disk.locate path = .ok target →
          device.disk.locate (temporary path) ≠ .ok target) ∧
        (∀ place, device.disk.locate (temporary path) ≠ .ok place →
          after.disk.node? place = device.disk.node? place) ∧
        ((∃ cause, e = .compress cause) → after = device) ∧
        ((∀ cause, e ≠ .compress cause) → device.failures.remove = none →
          ∀ neighbor, device.disk.locate (temporary path) = .ok neighbor →
            (∀ bytes, after.disk.node? neighbor ≠ some (.file bytes)) ∧
            ((∀ bytes, device.disk.node? neighbor ≠ some (.file bytes)) →
              ∀ place, after.disk.node? place = device.disk.node? place)) := by
  split
  next after h =>
    obtain ⟨target, neighbor, bytes, htarget, hneighbor, hne, -, hrest⟩ := disk_of_save_ok h
    exact ⟨target, neighbor, bytes, htarget, hneighbor, hne, hrest⟩
  next e after h =>
    obtain ⟨hbeside, hearly, hgone⟩ := sameBeside_of_save_error h
    have htarget : ∀ target, device.disk.locate path = .ok target →
        device.disk.locate (temporary path) ≠ .ok target := fun target hlocate htemporary =>
      locate_temporary_ne hlocate htemporary rfl
    refine ⟨htarget, hbeside.elsewhere, hearly, fun hlate hremove neighbor hlocate => ?_⟩
    have hafter := hgone hlate hremove neighbor hlocate
    refine ⟨hafter, fun hbefore place => ?_⟩
    by_cases hplace : place = neighbor
    · rw [hplace, hbeside.directories.node?_eq hbefore hafter]
    · exact hbeside.elsewhere place fun heq => hplace (Except.ok.inj (heq.symm.trans hlocate))

end Saving

/-- A success does not keep everything but its target: a file that happens to have the name
of the temporary file is lost. -/
theorem stale_temporary_lost_by_save :
    let before : Disk := ⟨[(["out.json.tmp"], .file [0x6E])]⟩
    ∃ after, (save "out.json" "\x7b\x7d\n" : StateM Device _).run ⟨before, {}⟩ = (.ok (), after) ∧
      ¬ ∀ place, before.locate "out.json" ≠ .ok place →
        after.disk.node? place = before.node? place := by
  refine ⟨_, rfl, fun hkept => ?_⟩
  have hlost := hkept ["out.json.tmp"] fun hplace => by
    have hnames : ["out.json"] = ["out.json.tmp"] := Except.ok.inj hplace
    exact absurd hnames (by decide)
  exact absurd hlost (by decide)

end DocWeave.Files
