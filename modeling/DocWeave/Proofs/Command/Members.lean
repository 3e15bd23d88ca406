/-
Files of several members.  Every way of loading reads the text of the first member and reports
no failure, so that the members behind it are lost unless they are empty.
-/
import DocWeave.Proofs.Command.Output

namespace DocWeave.Command

open Files

/-- A text was read to its end, or the failure to do so was reported. -/
def IsWholeOrError {ε : Type} (content : String) (outcome : Except ε String) : Prop :=
  outcome = .ok content ∨ ∃ e, outcome = .error e

/-- A text in front is all of it only if nothing stands behind. -/
theorem isWholeOrError_ok_iff {ε : Type} (front behind : String) :
    IsWholeOrError (front ++ behind) (.ok front : Except ε String) ↔ behind = "" := by
  constructor
  · rintro (h | ⟨e, h⟩)
    · exact String.append_eq_left_iff.1 (Except.ok.inj h).symm
    · cases h
  · rintro rfl
    exact .inl (by rw [String.append_empty])

theorem decode_append {text : String} {bytes : Bytes}
    (h : Gzip.IsMember (Utf8.encode text) bytes) (more : Bytes) :
    decode (bytes ++ more) = .ok text := by
  rw [decode, if_pos (h.isMarked more), h.text_append more]
  rfl

theorem decode_member {text : String} {bytes : Bytes}
    (h : Gzip.IsMember (Utf8.encode text) bytes) : decode bytes = .ok text := by
  have hdecode := decode_append h []
  rwa [List.append_nil] at hdecode

/-- Of two members in a row the first one alone is read, under a path and on the standard
input.  The text of the second one could be read as well, but is dropped without a failure:
what is loaded is all of the text exactly when the second one is empty.  A template and a
request are read as if the text of the first member were all. -/
theorem load_two_members [TemplateReader] {a b : String} {first second : Bytes}
    (hfirst : Gzip.IsMember (Utf8.encode a) first)
    (hsecond : Gzip.IsMember (Utf8.encode b) second) {device : Device} {path : String}
    (hfile : device.disk.find? path = some (.file (first ++ second)))
    {given : Option Format} {format : Format} (hformat : given.or (formatOf? path) = some format)
    (home : String) :
    let surroundings : Surroundings (StateM Device) := ⟨home, pure (.ok (first ++ second))⟩
    let input := (loadInput path given : StateM Device _).run device
    let arrived := (readStandardInput surroundings).run.run device
    (decode first = .ok a ∧ decode second = .ok b) ∧
    (input = (.ok ⟨format, a⟩, device) ∧ arrived = (.ok a, device)) ∧
    (IsWholeOrError (a ++ b) (input.1.map Input.data) ↔ b = "") ∧
    (IsWholeOrError (a ++ b) arrived.1 ↔ b = "") ∧
    (loadTemplate path : StateM Device _).run device = (readTemplate path a, device) ∧
    (loadRequest path : StateM Device _).run device =
      ((Request.parse a).mapError .request, device) := by
  intro surroundings input arrived
  have hdecode : decode (first ++ second) = .ok a := decode_append hfirst second
  have hinput : input = (.ok ⟨format, a⟩, device) := loadInput_of_find? hfile hdecode hformat
  have harrived : arrived = (.ok a, device) := run_readStandardInput rfl hdecode device
  have htext := loadText_of_find? hfile hdecode
  refine ⟨⟨decode_member hfirst, decode_member hsecond⟩, ⟨hinput, harrived⟩, ?_, ?_, ?_, ?_⟩
  · rw [hinput]
    exact isWholeOrError_ok_iff a b
  · rw [harrived]
    exact isWholeOrError_ok_iff a b
  · rw [loadTemplate, run_bind, htext]
    rfl
  · rw [loadRequest, run_bind, htext]
    rfl

/-- Two digits, each compressed, in a file and on the standard input. -/
theorem load_two_members_of_digits :
    let first := Gzip.compress (Utf8.encode "1")
    let second := Gzip.compress (Utf8.encode "2")
    let device : Device := ⟨⟨[(["data.json.gz"], .file (first ++ second))]⟩, {}⟩
    let surroundings : Surroundings (StateM Device) := ⟨"", pure (.ok (first ++ second))⟩
    Gzip.IsMember (Utf8.encode "1") first ∧ Gzip.IsMember (Utf8.encode "2") second ∧
    device.disk.find? "data.json.gz" = some (.file (first ++ second)) ∧
    (loadInput "data.json.gz" none : StateM Device _).run device = (.ok ⟨.json, "1"⟩, device) ∧
    (readStandardInput surroundings).run.run device = (.ok "1", device) := by
  intro first second device surroundings
  have hfirst : Gzip.IsMember (Utf8.encode "1") first := Gzip.isMember_compress _
  have hsecond : Gzip.IsMember (Utf8.encode "2") second := Gzip.isMember_compress _
  have hfile : device.disk.find? "data.json.gz" = some (.file (first ++ second)) := rfl
  have hformat : Option.or none (formatOf? "data.json.gz") = some .json := by decide +kernel
  obtain ⟨-, ⟨hinput, harrived⟩, -⟩ := load_two_members hfirst hsecond hfile hformat ""
  exact ⟨hfirst, hsecond, hfile, hinput, harrived⟩

/-- What is loaded need not be the whole text, nor need there be a failure. -/
theorem second_member_lost :
    ¬ ∀ a b first second, Gzip.IsMember (Utf8.encode a) first →
      Gzip.IsMember (Utf8.encode b) second → ∀ device path,
      device.disk.find? path = some (.file (first ++ second)) →
      IsWholeOrError (a ++ b)
        (((loadInput path none : StateM Device _).run device).1.map Input.data) := by
  intro h
  have hfirst := Gzip.isMember_compress (Utf8.encode "1")
  let bytes : Bytes := Gzip.compress (Utf8.encode "1") ++ Gzip.compress (Utf8.encode "2")
  let device : Device := ⟨⟨[(["data.json.gz"], .file bytes)]⟩, {}⟩
  have hfile : device.disk.find? "data.json.gz" = some (.file bytes) := rfl
  have hwhole := h _ _ _ _ hfirst (Gzip.isMember_compress (Utf8.encode "2")) device _ hfile
  have hformat : Option.or none (formatOf? "data.json.gz") = some .json := by decide +kernel
  rw [loadInput_of_find? hfile (decode_append hfirst _) hformat] at hwhole
  exact absurd ((isWholeOrError_ok_iff "1" "2").1 hwhole) (by decide)

end DocWeave.Command
