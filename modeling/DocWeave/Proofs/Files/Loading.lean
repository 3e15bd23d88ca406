/-
Loading only reads.  An action that leaves every device as it is can be put together from such
actions in a row, whether they may fail or not; whatever is loaded is loaded that way.
-/
import DocWeave.Files.Load

namespace DocWeave.Files

theorem run_bind {α β : Type} (action : StateM Device α) (next : α → StateM Device β)
    (device : Device) : (action >>= next).run device =
      (next (action.run device).1).run (action.run device).2 := rfl

def ReadsOnly {α : Type} (action : StateM Device α) : Prop :=
  ∀ device, (action.run device).2 = device

namespace ReadsOnly

variable {α β ε : Type}

theorem pure (value : α) : ReadsOnly (Pure.pure value) :=
  fun _ => rfl

theorem read (path : String) : ReadsOnly (FileAccess.read path) :=
  fun _ => rfl

theorem bind {action : StateM Device α} {next : α → StateM Device β} (h : ReadsOnly action)
    (hnext : ∀ value, ReadsOnly (next value)) : ReadsOnly (action >>= next) := by
  intro device
  rw [run_bind, h device]
  exact hnext _ device

/-- An action that may fail only reads if its steps do. -/
theorem bindExcept {action : ExceptT ε (StateM Device) α}
    {next : α → ExceptT ε (StateM Device) β} (h : ReadsOnly action.run)
    (hnext : ∀ value, ReadsOnly (next value).run) : ReadsOnly (action >>= next).run := by
  rw [ExceptT.run_bind]
  refine h.bind fun result => ?_
  cases result with
  | error e => exact pure _
  | ok value => exact hnext value

end ReadsOnly

/-! ### Loading -/

theorem readsOnly_loadText (path : String) : ReadsOnly (loadText path) :=
  (ReadsOnly.read path).bind fun result => by
    cases result <;> exact ReadsOnly.pure _

theorem readsOnly_loadInput (path : String) (format : Option Format) :
    ReadsOnly (loadInput path format) := by
  unfold loadInput
  split
  · exact ReadsOnly.pure _
  · exact (readsOnly_loadText path).bind fun _ => ReadsOnly.pure _

theorem readsOnly_loadTemplate (path : String) : ReadsOnly (loadTemplate path) :=
  (readsOnly_loadText path).bind fun _ => ReadsOnly.pure _

theorem readsOnly_loadRequest (path : String) : ReadsOnly (loadRequest path) :=
  (readsOnly_loadText path).bind fun _ => ReadsOnly.pure _

theorem readsOnly_loadConfig (path : String) : ReadsOnly (loadConfig path) :=
  (ReadsOnly.read path).bind fun result => by
    cases result <;> exact ReadsOnly.pure _

theorem readsOnly_loadUserConfig (home : String) : ReadsOnly (loadUserConfig home) :=
  (readsOnly_loadConfig (configPath home)).bind fun result => by
    cases result <;> exact ReadsOnly.pure _

end DocWeave.Files
