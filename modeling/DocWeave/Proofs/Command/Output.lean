/-
What a run does to the file that it is asked to write.  Everything before the saving only
reads, so that a run which fails there leaves all files as they were; a saving that fails
leaves its target as it was; and a run that succeeds leaves its whole output there.
-/
import DocWeave.Command.Run
import DocWeave.Proofs.Files.Reloading
import DocWeave.Proofs.Rendering

namespace DocWeave.Command

open Files

variable {surroundings : Surroundings (StateM Device)}

theorem readsOnly_liftLoad {α ε : Type} {action : StateM Device (Except ε α)}
    (h : ReadsOnly action) (wrap : ε → RunError) : ReadsOnly (liftLoad wrap action).run :=
  h.bind fun _ => ReadsOnly.pure _

theorem readsOnly_runConfig (surroundings : Surroundings (StateM Device)) (options : Options) :
    ReadsOnly (runConfig surroundings options).run := by
  unfold runConfig
  split
  next path hconfig =>
    exact ReadsOnly.bindExcept (readsOnly_liftLoad (readsOnly_loadConfig path) _)
      fun _ => ReadsOnly.pure _
  next hconfig =>
    refine ReadsOnly.bindExcept ?_ fun _ => ReadsOnly.pure _
    exact (readsOnly_loadUserConfig surroundings.home).bind fun _ => ReadsOnly.pure _

theorem readsOnly_readStandardInput (h : ReadsOnly surroundings.standardInput) :
    ReadsOnly (readStandardInput surroundings).run :=
  ReadsOnly.bindExcept (readsOnly_liftLoad h _) fun _ => readsOnly_liftLoad (ReadsOnly.pure _) _

theorem readsOnly_runInputs (h : ReadsOnly surroundings.standardInput) (taken : Bool)
    (arguments : List String) : ReadsOnly (runInputs surroundings taken arguments).run := by
  induction arguments generalizing taken with
  | nil => exact ReadsOnly.pure _
  | cons argument rest ih =>
      have hrest (taken : Bool) (input : Input) :
          ReadsOnly (return input :: (← runInputs surroundings taken rest)).run :=
        ReadsOnly.bindExcept (ih taken) fun _ => ReadsOnly.pure _
      rw [runInputs]
      dsimp only
      split
      · split
        · exact ReadsOnly.pure _
        next format hformat =>
          have hread := ReadsOnly.bindExcept (readsOnly_readStandardInput h) fun text =>
            hrest true ⟨format, text⟩
          split
          · exact ReadsOnly.bindExcept (ReadsOnly.pure _) fun _ => hread
          · exact hread
      · exact ReadsOnly.bindExcept (readsOnly_liftLoad (readsOnly_loadInput _ _) _)
          fun input => hrest _ _

theorem readsOnly_runRequest [TemplateReader] (h : ReadsOnly surroundings.standardInput)
    (source : Source) : ReadsOnly (runRequest surroundings source).run := by
  cases source with
  | request path => exact readsOnly_liftLoad (readsOnly_loadRequest path) _
  | inputs arguments template =>
      refine ReadsOnly.bindExcept (readsOnly_runInputs h false arguments) fun inputs => ?_
      cases template with
      | none => exact ReadsOnly.pure _
      | some path =>
          have hload := readsOnly_liftLoad (readsOnly_loadTemplate path) RunError.load
          exact ReadsOnly.bindExcept hload fun _ => ReadsOnly.pure _

theorem readsOnly_runResponse [TemplateReader] (h : ReadsOnly surroundings.standardInput)
    (options : Options) : ReadsOnly (runResponse surroundings options).run :=
  ReadsOnly.bindExcept (readsOnly_runConfig surroundings options) fun _ =>
    ReadsOnly.bindExcept (readsOnly_runRequest h options.source) fun _ =>
      readsOnly_liftLoad (ReadsOnly.pure _) _

/-! ### Runs -/

theorem run_bind_eq_ok {α β ε : Type} {action : ExceptT ε (StateM Device) α}
    {next : α → ExceptT ε (StateM Device) β} {value : β} {device after : Device}
    (h : (action >>= next).run.run device = (.ok value, after)) :
    ∃ first middle, action.run.run device = (.ok first, middle) ∧
      (next first).run.run middle = (.ok value, after) := by
  rw [ExceptT.run_bind, run_bind] at h
  rcases hfirst : action.run.run device with ⟨e | first, middle⟩
  · rw [hfirst] at h
    cases (Prod.mk.inj h).1
  · rw [hfirst] at h
    exact ⟨first, middle, rfl, h⟩

theorem run_readStandardInput {surroundings : Surroundings (StateM Device)} {bytes : Bytes}
    (harriving : surroundings.standardInput = pure (.ok bytes)) {text : String}
    (htext : decode bytes = .ok text) (device : Device) :
    (readStandardInput surroundings).run.run device = (.ok text, device) := by
  rw [readStandardInput, harriving]
  change ((decode bytes).mapError RunError.inputUndecodable, device) = _
  rw [htext]
  rfl

theorem run_bind_of_ok {α β ε : Type} {action : ExceptT ε (StateM Device) α}
    {next : α → ExceptT ε (StateM Device) β} {value : α} {device after : Device}
    (h : action.run.run device = (.ok value, after)) :
    (action >>= next).run.run device = (next value).run.run after := by
  rw [ExceptT.run_bind, run_bind, h]

/-- Without settings that can be read a run has the defaults, but for its options. -/
theorem run_runConfig_of_unreadable {options : Options} (hoption : options.config = none)
    {device : Device} {e : DiskError}
    (h : device.disk.read (configPath surroundings.home) = .error e) :
    (runConfig surroundings options).run.run device = (.ok (options.override {}), device) := by
  have hread : (FileAccess.read (configPath surroundings.home) : StateM Device _).run device =
      (.error e, device) := Prod.ext h rfl
  have hdefault : (loadUserConfig surroundings.home : StateM Device _).run device =
      ({}, device) := by
    rw [loadUserConfig, run_bind, loadConfig, run_bind, hread]
    rfl
  rw [runConfig, hoption]
  have hlift : (ExceptT.lift (loadUserConfig surroundings.home) :
      ExceptT RunError (StateM Device) Config).run.run device = (.ok {}, device) := by
    rw [ExceptT.run_lift]
    change (Except.ok ((loadUserConfig surroundings.home : StateM Device _).run device).1,
      ((loadUserConfig surroundings.home : StateM Device _).run device).2) = _
    rw [hdefault]
  exact run_bind_of_ok hlift

/-- One input from the standard input makes a request of its own. -/
theorem run_runRequest_standardInput [TemplateReader] {argument text : String} {format : Format}
    (hsplit : splitFormat argument = (some format, "-")) {device : Device}
    (hread : (readStandardInput surroundings).run.run device = (.ok text, device)) :
    (runRequest surroundings (.inputs [argument] none)).run.run device =
      (.ok ⟨[⟨format, text⟩], none⟩, device) := by
  have hinputs : (runInputs surroundings false [argument]).run.run device =
      (.ok [⟨format, text⟩], device) := by
    rw [runInputs, hsplit]
    exact run_bind_of_ok hread
  exact run_bind_of_ok hinputs

/-- A response combines what was loaded, all of it from the device as it was. -/
theorem runResponse_eq_ok [TemplateReader] (h : ReadsOnly surroundings.standardInput)
    {options : Options} {response : Response} {device after : Device}
    (hrun : (runResponse surroundings options).run.run device = (.ok response, after)) :
    ∃ config request, (runConfig surroundings options).run.run device = (.ok config, device) ∧
      (runRequest surroundings options.source).run.run device = (.ok request, device) ∧
      combine config request = .ok response := by
  unfold runResponse at hrun
  obtain ⟨config, device₁, hconfig, hrun⟩ := run_bind_eq_ok hrun
  obtain ⟨request, device₂, hrequest, hcombine⟩ := run_bind_eq_ok hrun
  obtain rfl : device₁ = device := by
    simpa [hconfig] using readsOnly_runConfig surroundings options device
  obtain rfl : device₂ = device₁ := by
    simpa [hrequest] using readsOnly_runRequest h options.source device₁
  have hresult : (combine config request).mapError RunError.combine = .ok response :=
    (Prod.mk.inj hcombine).1
  exact ⟨config, request, hconfig, hrequest, eq_ok_of_mapError_eq_ok hresult⟩

/-- The arguments of a run ask for a form of output, and combining all that is loaded for them
gives a document. -/
def Yields [TemplateReader] (surroundings : Surroundings (StateM Device))
    (arguments : List String) (device : Device) (format : OutputFormat) (result : Value) : Prop :=
  ∃ options config request response, parse arguments = .ok options ∧
    (runConfig surroundings options).run.run device = (.ok config, device) ∧
    (runRequest surroundings options.source).run.run device = (.ok request, device) ∧
    combine config request = .ok response ∧
    options.format = format ∧ response.result = result

/-- A run has one outcome. -/
theorem Yields.unique [TemplateReader] {arguments : List String} {device : Device}
    {format format' : OutputFormat} {result result' : Value}
    (h : Yields surroundings arguments device format result)
    (h' : Yields surroundings arguments device format' result') :
    format = format' ∧ result = result' := by
  obtain ⟨options, config, request, response, hoptions, hconfig, hrequest, hresponse, rfl, rfl⟩ := h
  obtain ⟨_, _, _, _, hoptions', hconfig', hrequest', hresponse', rfl, rfl⟩ := h'
  obtain rfl := Except.ok.inj (hoptions.symm.trans hoptions')
  obtain rfl := Except.ok.inj (Prod.mk.inj (hconfig.symm.trans hconfig')).1
  obtain rfl := Except.ok.inj (Prod.mk.inj (hrequest.symm.trans hrequest')).1
  obtain rfl := Except.ok.inj (hresponse.symm.trans hresponse')
  exact ⟨rfl, rfl⟩

/-- A run with one input, from the standard input, and without settings that can be read. -/
theorem yields_of_standardInput [TemplateReader] {arguments : List String} {options : Options}
    (hparse : parse arguments = .ok options) (hoption : options.config = none) {argument : String}
    (hsource : options.source = .inputs [argument] none) {format : Format}
    (hsplit : splitFormat argument = (some format, "-")) {bytes : Bytes}
    (harriving : surroundings.standardInput = pure (.ok bytes)) {text : String}
    (htext : decode bytes = .ok text) {device : Device} {e : DiskError}
    (hconfig : device.disk.read (configPath surroundings.home) = .error e) {response : Response}
    (hcombine : combine (options.override {}) ⟨[⟨format, text⟩], none⟩ = .ok response) :
    Yields surroundings arguments device options.format response.result := by
  have hread := run_readStandardInput harriving htext device
  have hrequest := run_runRequest_standardInput hsplit hread
  rw [← hsource] at hrequest
  exact ⟨options, _, _, response, hparse, run_runConfig_of_unreadable hoption hconfig, hrequest,
    hcombine, rfl, rfl⟩

/-- A run that is asked to write a file fails with all files as they were, or comes to saving
its rendered result, and its code tells whether that succeeds. -/
theorem run_cases [TemplateReader] [Compressor] (hinput : ReadsOnly surroundings.standardInput)
    {arguments : List String} {options : Options} (hoptions : parse arguments = .ok options)
    {path : String} (hpath : options.output = some path) {device after : Device}
    {outcome : Outcome} (h : (run surroundings options).run device = (outcome, after)) :
    (outcome.code = 1 ∧ after = device) ∨
    ∃ format result saved, Yields surroundings arguments device format result ∧
      (save path (render format result) : StateM Device _).run device = (saved, after) ∧
      ((∃ e, saved = .error e ∧ outcome.code = 1) ∨ (saved = .ok () ∧ outcome.code = 0)) := by
  unfold run at h
  rw [run_bind] at h
  have hmiddle := readsOnly_runResponse hinput options device
  rcases hresponse : (runResponse surroundings options).run.run device with ⟨e | response, middle⟩
  · rw [hresponse] at h hmiddle
    obtain ⟨rfl, rfl⟩ := Prod.mk.inj h
    exact .inl ⟨rfl, hmiddle⟩
  · rw [hresponse] at h hmiddle
    obtain rfl : middle = device := hmiddle
    obtain ⟨config, request, hconfig, hrequest, hcombine⟩ := runResponse_eq_ok hinput hresponse
    have hyields : Yields surroundings arguments middle options.format response.result :=
      ⟨options, config, request, response, hoptions, hconfig, hrequest, hcombine, rfl, rfl⟩
    simp only [hpath] at h
    rw [run_bind] at h
    rcases hsave : (save path (render options.format response.result) : StateM Device _).run
      middle with ⟨e | done, final⟩
    · rw [hsave] at h
      obtain ⟨rfl, rfl⟩ := Prod.mk.inj h
      exact .inr ⟨_, _, _, hyields, hsave, .inl ⟨e, rfl, rfl⟩⟩
    · rw [hsave] at h
      obtain ⟨rfl, rfl⟩ := Prod.mk.inj h
      exact .inr ⟨_, _, _, hyields, hsave, .inr ⟨rfl, rfl⟩⟩

/-- The command never leaves a damaged output.  Unless the arguments ask for help or for the
version, a run that exits with a failure leaves at the output path what was there before; one
that succeeds has combined what it loaded, and the output path holds all of the rendered
result, compressed if the path ends so. -/
theorem output_of_execute [TemplateReader] [Compressor] (home : String)
    (arriving : Except DiskError Bytes) {arguments : List String} {path : String}
    (hpath : ∀ options, parse arguments = .ok options → options.output = some path)
    (hhelp : parse arguments ≠ .error .help) (hversion : parse arguments ≠ .error .version)
    (device : Device) :
    let surroundings : Surroundings (StateM Device) := ⟨home, pure arriving⟩
    let ended := (execute surroundings arguments).run device
    (ended.1.code ≠ 0 → ended.2.disk.find? path = device.disk.find? path) ∧
    (ended.1.code = 0 → ∃ format result text bytes,
      Yields surroundings arguments device format result ∧
      text = render format result ∧ IsRendering format result text ∧
      ended.2.disk.find? path = some (.file bytes) ∧
      if isCompressed path.toList then
        Compressor.compress (Utf8.encode text) = .ok bytes ∧
          (LawfulCompressor → Gzip.text bytes = .ok text)
      else bytes = Utf8.encode text) := by
  intro surroundings
  rcases hexecute : (execute surroundings arguments).run device with ⟨outcome, after⟩
  unfold execute at hexecute
  cases hparse : parse arguments with
  | error stop =>
      rw [hparse] at hexecute
      obtain ⟨rfl, rfl⟩ := Prod.mk.inj hexecute
      cases stop with
      | usage =>
          have husage : (2 : UInt8) ≠ 0 := by decide
          exact ⟨fun _ => rfl, fun hcode => absurd hcode husage⟩
      | help => exact absurd hparse hhelp
      | version => exact absurd hparse hversion
  | ok options =>
      rw [hparse] at hexecute
      rcases run_cases (ReadsOnly.pure arriving) hparse (hpath options hparse) hexecute with
        ⟨hcode, rfl⟩ | ⟨format, result, saved, hyields, hsave, ⟨e, rfl, hcode⟩ | ⟨rfl, hcode⟩⟩
      · exact ⟨fun _ => rfl, fun hzero => absurd (hcode.symm.trans hzero) (by decide)⟩
      · exact ⟨fun _ => find?_of_save_error hsave,
          fun hzero => absurd (hcode.symm.trans hzero) (by decide)⟩
      · refine ⟨fun hfailed => absurd hcode hfailed, fun _ => ?_⟩
        obtain ⟨bytes, hsaved, hbytes⟩ := find?_of_save_ok hsave
        refine ⟨format, result, _, bytes, hyields, rfl, isRendering_render format result,
          hbytes, ?_⟩
        rw [savedBytes] at hsaved
        split at hsaved
        next hname =>
          rw [if_pos hname]
          exact ⟨hsaved, fun _ =>
            Gzip.text_of_decompress (LawfulCompressor.decompress_of_compress hsaved)⟩
        next hname =>
          rw [if_neg hname]
          exact (Except.ok.inj hsaved).symm

/-- A document from the standard input, over an output that is there already.  If moving fails
the old output stays; otherwise the new one is there, in whichever form and compressed or
not. -/
theorem output_of_execute_of_old_output :
    let result : Value := .object [("a", .array [.number (.integer 1), .string "1"])]
    let arriving := "\x7b\"a\":[1,\"1\"]\x7d"
    let compact := "\x7b\"a\":[1,\"1\"]\x7d\n"
    let indented := "\x7b\n  \"a\": [\n    1,\n    \"1\"\n  ]\n\x7d\n"
    let outlined := "a:\n- 1\n- '1'\n"
    let compressed : Bytes := [0x1F, 0x8B, 8, 0, 0, 0, 0, 0, 0, 0xFF] ++
      [0xAB, 0x56, 0x4A, 0x54, 0xB2, 0x8A, 0x36, 0xD4, 0x51, 0x32, 0x54, 0x8A, 0xAD, 0xE5, 2, 0] ++
      [9, 0xD5, 0x5B, 0xC6, 14, 0, 0, 0]
    let old : Disk := ⟨["out", "out.gz"].map fun name => ([name], .file [0x6F])⟩
    let run (format : OutputFormat) (path : String) (failures : Failures) : Outcome × Device :=
      (execute (⟨"", pure (.ok (Utf8.encode arriving))⟩ : Surroundings (StateM Device))
        ["json:-", "-f", format.name, "-o", path]).run ⟨old, failures⟩
    ((run .json "out" { rename := some .busy }).1.code = 1 ∧
      (run .json "out" { rename := some .busy }).2.disk.find? "out" = old.find? "out") ∧
    ((run .json "out.gz" {}).1.code = 0 ∧ IsRendering .json result compact ∧
      (run .json "out.gz" {}).2.disk.find? "out.gz" = some (.file compressed) ∧
      Gzip.text compressed = .ok compact) ∧
    ((run .pretty "out" {}).1.code = 0 ∧ IsRendering .pretty result indented ∧
      (run .pretty "out" {}).2.disk.find? "out" = some (.file (Utf8.encode indented))) ∧
    (run .yaml "out" {}).1.code = 0 ∧ IsRendering .yaml result outlined ∧
      (run .yaml "out" {}).2.disk.find? "out" = some (.file (Utf8.encode outlined)) := by
  intro result arriving compact indented outlined compressed old run
  have hcode : (run .json "out" { rename := some .busy }).1.code = 1 := by decide +kernel +revert
  have hcompact : (run .json "out.gz" {}).1.code = 0 := by decide +kernel +revert
  have hindented : (run .pretty "out" {}).1.code = 0 := by decide +kernel +revert
  have houtlined : (run .yaml "out" {}).1.code = 0 := by decide +kernel +revert
  have hcompress : Gzip.compress (Utf8.encode compact) = compressed := by decide +kernel +revert
  have hrender : render .json result = compact ∧ render .pretty result = indented ∧
      render .yaml result = outlined := by decide +kernel +revert
  have hnone : old.read (configPath "") = .error .notFound := by decide +kernel +revert
  have hdocument : parseJson arriving = .ok result := by
    change parseJson "\x7b\"a\":[1,\"1\"]\x7d" = .ok result
    cbv
  have hvalid : Combine.validate {} ⟨[⟨.json, "\x7b\"a\":[1,\"1\"]\x7d"⟩], none⟩ = .ok () := by
    rfl
  have hcombine : combine {} ⟨[⟨.json, arriving⟩], none⟩ = .ok ⟨result, none⟩ := by
    rw [combine, hvalid]
    simp only [Combine.readAll, DocWeave.parse, hdocument]
    rfl
  have hsplit : splitFormat "json:-" = (some .json, "-") := by decide +kernel
  -- what is left are facts about these texts and this disk, not their values
  clear_value result arriving compact indented outlined compressed old
  let surroundings : Surroundings (StateM Device) := ⟨"", pure (.ok (Utf8.encode arriving))⟩
  have hended (failures : Failures) {format : OutputFormat} {path : String}
      (hparse : parse ["json:-", "-f", format.name, "-o", path] =
        .ok ⟨.inputs ["json:-"] none, none, none, none, true, format, some path, false⟩) :
      ((run format path failures).1.code ≠ 0 →
        (run format path failures).2.disk.find? path = old.find? path) ∧
      ((run format path failures).1.code = 0 → IsRendering format result (render format result) ∧
        ∃ bytes, (run format path failures).2.disk.find? path = some (.file bytes) ∧
          if isCompressed path.toList then
            Compressor.compress (Utf8.encode (render format result)) = .ok bytes ∧
              (LawfulCompressor → Gzip.text bytes = .ok (render format result))
          else bytes = Utf8.encode (render format result)) := by
    have hpath : ∀ options, parse ["json:-", "-f", format.name, "-o", path] = .ok options →
        options.output = some path := fun options h => by
      obtain rfl := Except.ok.inj (hparse.symm.trans h)
      rfl
    have hstop (stop : Stop) : parse ["json:-", "-f", format.name, "-o", path] ≠ .error stop :=
      fun h => by cases hparse.symm.trans h
    have hyields : Yields surroundings ["json:-", "-f", format.name, "-o", path]
        ⟨old, failures⟩ format result := by
      have hunread : (⟨old, failures⟩ : Device).disk.read (configPath surroundings.home) =
          .error .notFound := hnone
      exact yields_of_standardInput hparse rfl rfl hsplit rfl (decode_encode arriving) hunread
        hcombine
    obtain ⟨hfailed, hdone⟩ := output_of_execute "" (.ok (Utf8.encode arriving)) hpath
      (hstop .help) (hstop .version) ⟨old, failures⟩
    refine ⟨hfailed, fun hcode => ?_⟩
    obtain ⟨format', result', _, bytes, hyields', rfl, hrendering, hbytes, hcontent⟩ := hdone hcode
    obtain ⟨rfl, rfl⟩ := hyields.unique hyields'
    exact ⟨hrendering, bytes, hbytes, hcontent⟩
  obtain ⟨hjson, hpretty, hyaml⟩ := hrender
  have hplain : ¬ isCompressed "out".toList := by decide
  have hgz : isCompressed "out.gz".toList := by decide
  refine ⟨⟨hcode, ?_⟩, ⟨hcompact, ?_⟩, ⟨hindented, ?_⟩, houtlined, ?_⟩
  · have hfailed : (run .json "out" { rename := some .busy }).1.code ≠ 0 := by
      rw [hcode]
      decide
    exact (hended _ rfl).1 hfailed
  · obtain ⟨hrendering, bytes, hbytes, hcontent⟩ := (hended {} rfl).2 hcompact
    rw [if_pos hgz, hjson] at hcontent
    obtain rfl : compressed = bytes := hcompress.symm.trans (Except.ok.inj hcontent.1)
    rw [hjson] at hrendering
    exact ⟨hrendering, hbytes, hcontent.2 inferInstance⟩
  · obtain ⟨hrendering, bytes, hbytes, hcontent⟩ := (hended {} rfl).2 hindented
    rw [if_neg hplain] at hcontent
    obtain rfl := hcontent
    rw [hpretty] at hrendering hbytes
    exact ⟨hrendering, hbytes⟩
  · obtain ⟨hrendering, bytes, hbytes, hcontent⟩ := (hended {} rfl).2 houtlined
    rw [if_neg hplain] at hcontent
    obtain rfl := hcontent
    rw [hyaml] at hrendering hbytes
    exact ⟨hrendering, hbytes⟩

end DocWeave.Command
