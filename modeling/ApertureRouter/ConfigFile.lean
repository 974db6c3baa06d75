import ApertureRouter.Config
import ApertureRouter.Lib.Files

/-!
# The configuration file

`Config::load` and `Config::save` (`src/config.rs`) on Unix.

* `TomlCodec` is the crate `toml`. `SaveFaults` is which operations of a call fail, and how. A read that
  fails is a file that is not there.
* `save_cases`: what a call does. `save_ok`: what it has written if it succeeds.
* `save_allOrNothing_iff`: a call that fails leaves everything as it was, exactly if it does not get
  stuck with its temporary file. After a run of calls there is no such file, and so the next call
  succeeds, exactly if this holds of all of them.
* `fullDisk_leavesTemp`: a call that leaves its file.
-/

namespace ApertureRouter

/-- `toml::from_str` and `toml::to_string_pretty`. -/
structure TomlCodec where
  fromStr : String → Except String Config
  toStringPretty : Config → Except String String

/-- The files of the system, by path. -/
abbrev FileSystem := Files String ByteArray

/-- The environment of a process. A variable that is not Unicode counts as not set. -/
abbrev EnvVars := String → Option String

/-! ## `Config::load` -/

/-- `std::fs::read_to_string`. -/
def readToString (files : FileSystem) (path : String) : Except String String :=
  match files path with
  | none => .error "No such file or directory (os error 2)"
  | some content =>
    match String.fromUTF8? content with
    | none => .error "stream did not contain valid UTF-8"
    | some text => .ok text

/-- The port of the environment, or else that of the file. -/
def overriddenPort (vars : EnvVars) (port : Nat) : Except String Nat :=
  match vars "APERTURE_PORT" with
  | none => .ok port
  | some text => (Text.parseUint 65536 text.toList).mapError ("Invalid APERTURE_PORT: " ++ ·)

/-- The configuration with the variables of the environment in place of its own values. -/
def Config.overridden (vars : EnvVars) (config : Config) : Except String Config := do
  let port ← overriddenPort vars config.port
  return { config with
    host := (vars "APERTURE_HOST").getD config.host
    port := port
    aperture := { config.aperture with
      baseUrl := (vars "APERTURE_BASE_URL").getD config.aperture.baseUrl
      apiKey := vars "APERTURE_API_KEY" <|> config.aperture.apiKey } }

/-- `Config::load`, with the environment after it. -/
def Config.load (toml : TomlCodec) (parse : UrlParser) (debug : Bool) (vars : EnvVars)
    (path : String) (files : FileSystem) : Except String (Config × EnvVars) := do
  let content ← (readToString files path).mapError
    ("Failed to read config file " ++ path ++ ": " ++ ·)
  let config ← (toml.fromStr content).mapError
    ("Failed to parse config file " ++ path ++ ": " ++ ·)
  let config ← config.overridden vars
  (config.validate parse debug).mapError ("Config validation failed: " ++ ·)
  return (config, Function.update vars "APERTURE_API_KEY" none)

/-- The text of a file that was written. -/
theorem readToString_update (files : FileSystem) (path text : String) :
    readToString (Function.update files path (some text.toUTF8)) path = .ok text := by
  have htext : String.fromUTF8? text.toUTF8 = some text := by
    have hvalid : text.toUTF8.IsValidUTF8 := text.isValidUTF8
    rw [String.fromUTF8?, dif_pos hvalid]
    rfl
  rw [readToString, Function.update_self]
  simp only [htext]

/-! ## `Config::save` -/

/-- The failures of the operations of one call. -/
structure SaveFaults where
  create : Option String := none
  /-- Fails after some bytes. -/
  write : Option (Nat × String) := none
  rename : Option String := none
  removeFails : Bool := false

/-- The path of the temporary file. -/
def tempPath (path : String) : String := path ++ ".tmp"

/-- The result of an operation that failed on the file system. -/
def failed (files : FileSystem) (what e : String) : FileSystem × Except String Unit :=
  (files, .error (what ++ ": " ++ e))

/-- `Config::save`. -/
def Config.save (toml : TomlCodec) (config : Config) (path : String) (faults : SaveFaults)
    (files : FileSystem) : FileSystem × Except String Unit :=
  match toml.toStringPretty config with
  | .error e => failed files "Failed to serialize config" e
  | .ok tomlContent =>
    let content := tomlContent.toUTF8
    let part := faults.write.map fun fault => (content.extract 0 fault.1, fault.2)
    match files.createNew .empty "File exists (os error 17)" (tempPath path) faults.create with
    | .error e => failed files "Failed to write temp config file" e
    | .ok files =>
      match files.writeAll (tempPath path) content part with
      | (files, .error e) => failed files "Failed to write temp config file" e
      | (files, .ok ()) =>
        match files.rename "No such file or directory (os error 2)" (tempPath path) path
            faults.rename with
        | .error e =>
          failed (files.remove (tempPath path) faults.removeFails) "Failed to rename config file" e
        | .ok files => (files, .ok ())

/-! ## One call -/

section

variable (toml : TomlCodec) (config : Config) (path : String) (faults : SaveFaults)
  (files : FileSystem)

/-- All operations succeed. -/
def SaveSucceeds : Prop :=
  (∃ text, toml.toStringPretty config = .ok text) ∧ files (tempPath path) = none ∧
    faults.create = none ∧ faults.write = none ∧ faults.rename = none

/-- The temporary file is created, and then its writing fails, or both the renaming and the clean-up. -/
def LeavesTemp : Prop :=
  (∃ text, toml.toStringPretty config = .ok text) ∧ files (tempPath path) = none ∧
    faults.create = none ∧
    (faults.write ≠ none ∨ faults.rename ≠ none ∧ faults.removeFails = true)

/-- A call with an operation that fails returns an error, and has changed no file. -/
structure AllOrNothing : Prop where
  returns_error : ¬SaveSucceeds toml config path faults files →
    ∃ e, (config.save toml path faults files).2 = .error e
  unchanged : ¬SaveSucceeds toml config path faults files →
    (config.save toml path faults files).1 = files

variable {toml config path faults files}

variable (toml config path faults files) in
/-- **A call.** It succeeds, or nothing has changed, or the temporary file is left. -/
theorem save_cases :
    (∃ text, toml.toStringPretty config = .ok text ∧ SaveSucceeds toml config path faults files ∧
      config.save toml path faults files =
        (Function.update files path (some text.toUTF8), .ok ())) ∨
    (¬SaveSucceeds toml config path faults files ∧ ¬LeavesTemp toml config path faults files ∧
      ∃ e, config.save toml path faults files = (files, .error e)) ∨
    (¬SaveSucceeds toml config path faults files ∧ LeavesTemp toml config path faults files ∧
      ∃ content e, config.save toml path faults files =
        (Function.update files (tempPath path) (some content), .error e)) := by
  unfold Config.save SaveSucceeds LeavesTemp
  cases hser : toml.toStringPretty config with
  | error e => exact .inr (.inl ⟨by simp, by simp, _, rfl⟩)
  | ok text =>
    cases hfree : files (tempPath path) with
    | some content =>
      refine .inr (.inl ⟨by simp, by simp, ?_⟩)
      simp [Files.createNew, hfree, failed]
    | none =>
      cases hcreate : faults.create with
      | some e =>
        refine .inr (.inl ⟨by simp, by simp, ?_⟩)
        simp [Files.createNew, Files.unlessFault, hfree, failed]
      | none =>
        have hcreated : files.createNew ByteArray.empty "File exists (os error 17)" (tempPath path)
            none = .ok (Function.update files (tempPath path) (some ByteArray.empty)) :=
          Files.createNew_ok_iff.mpr ⟨hfree, rfl, rfl⟩
        simp only [hcreated]
        cases hwrite : faults.write with
        | some fault =>
          refine .inr (.inr ⟨by simp, by simp, text.toUTF8.extract 0 fault.1, ?_⟩)
          simp [Files.writeAll, failed]
        | none =>
          simp only [Option.map_none, Files.writeAll, Function.update_idem]
          cases hrename : faults.rename with
          | none =>
            refine .inl ⟨text, rfl, by simp, ?_⟩
            rw [Files.rename_written hfree]
          | some e =>
            have hfault : Files.rename "No such file or directory (os error 2)" (tempPath path) path
                (some e) (Function.update files (tempPath path) (some text.toUTF8)) = .error e := by
              simp [Files.rename, Files.unlessFault]
            simp only [hfault, failed]
            cases hremove : faults.removeFails with
            | false =>
              refine .inr (.inl ⟨by simp, by simp, "Failed to rename config file" ++ ": " ++ e, ?_⟩)
              rw [Files.remove_created hfree]
            | true =>
              refine .inr (.inr ⟨by simp, by simp, text.toUTF8,
                "Failed to rename config file" ++ ": " ++ e, ?_⟩)
              rfl

theorem SaveSucceeds.not_leavesTemp (h : SaveSucceeds toml config path faults files) :
    ¬LeavesTemp toml config path faults files := by
  obtain ⟨-, -, -, hwrite, hrename⟩ := h
  rintro ⟨-, -, -, hfault | ⟨hfault, -⟩⟩
  · exact hfault hwrite
  · exact hfault hrename

/-- What a call that succeeds has written. -/
theorem save_ok (h : (config.save toml path faults files).2 = .ok ()) :
    ∃ text, toml.toStringPretty config = .ok text ∧
      (config.save toml path faults files).1 = Function.update files path (some text.toUTF8) := by
  rcases save_cases toml config path faults files with
    ⟨text, htext, -, hsave⟩ | ⟨-, -, e, hsave⟩ | ⟨-, -, content, e, hsave⟩
  · exact ⟨text, htext, by rw [hsave]⟩
  · rw [hsave] at h
    cases h
  · rw [hsave] at h
    cases h

/-- The temporary file has a path of its own. -/
theorem tempPath_ne : tempPath path ≠ path := by
  intro h
  have hlength := congrArg String.length h
  rw [tempPath, String.length_append] at hlength
  exact absurd hlength (by have : ".tmp".length = 4 := rfl; omega)

/-- A call that fails changes nothing exactly if it does not leave its temporary file. -/
theorem allOrNothing_iff :
    AllOrNothing toml config path faults files ↔ ¬LeavesTemp toml config path faults files := by
  rcases save_cases toml config path faults files with
    ⟨text, -, hok, hsave⟩ | ⟨hnot, hclean, e, hsave⟩ | ⟨hnot, hleaves, content, e, hsave⟩
  · exact iff_of_true ⟨fun h => absurd hok h, fun h => absurd hok h⟩ hok.not_leavesTemp
  · exact iff_of_true ⟨fun _ => ⟨e, by rw [hsave]⟩, fun _ => by rw [hsave]⟩ hclean
  · refine iff_of_false (fun h => ?_) (fun h => h hleaves)
    have hsame := congrFun (h.unchanged hnot) (tempPath path)
    rw [hsave] at hsame
    dsimp only at hsame
    rw [Function.update_self, hleaves.2.1] at hsame
    cases hsame

/-! ## Runs -/

/-- A call of `Config::save` for the path. -/
structure SaveCall where
  config : Config
  faults : SaveFaults

variable (toml path) in
/-- The files after a run of calls, the first one first. -/
def saveAll : List SaveCall → FileSystem → FileSystem
  | [], files => files
  | call :: calls, files => saveAll calls (call.config.save toml path call.faults files).1

variable (toml path) in
/-- No call of the run leaves its temporary file. -/
def NoneLeavesTemp : List SaveCall → FileSystem → Prop
  | [], _ => True
  | call :: calls, files => ¬LeavesTemp toml call.config path call.faults files ∧
      NoneLeavesTemp calls (call.config.save toml path call.faults files).1

/-- After a call there is no temporary file if there was none, and it has not been left. -/
theorem save_temp_eq_none : (config.save toml path faults files).1 (tempPath path) = none ↔
    files (tempPath path) = none ∧ ¬LeavesTemp toml config path faults files := by
  rcases save_cases toml config path faults files with
    ⟨text, -, hok, hsave⟩ | ⟨hnot, hclean, e, hsave⟩ | ⟨hnot, hleaves, content, e, hsave⟩
  · rw [hsave]
    dsimp only
    rw [Function.update_of_ne tempPath_ne]
    exact (and_iff_left hok.not_leavesTemp).symm
  · rw [hsave]
    exact (and_iff_left hclean).symm
  · rw [hsave]
    dsimp only
    rw [Function.update_self]
    exact iff_of_false nofun fun h => h.2 hleaves

/-- **Runs.** -/
theorem saveAll_temp_eq_none {calls : List SaveCall} :
    saveAll toml path calls files (tempPath path) = none ↔
      files (tempPath path) = none ∧ NoneLeavesTemp toml path calls files := by
  induction calls generalizing files with
  | nil => exact (and_iff_left trivial).symm
  | cons call calls ih => rw [saveAll, ih, save_temp_eq_none, NoneLeavesTemp, and_assoc]

/-- A call without faults succeeds if there is no temporary file. -/
theorem save_faultless : (config.save toml path {} files).2 = .ok () ↔
    (∃ text, toml.toStringPretty config = .ok text) ∧ files (tempPath path) = none := by
  rcases save_cases toml config path {} files with
    ⟨text, htext, hok, hsave⟩ | ⟨hnot, -, e, hsave⟩ | ⟨hnot, -, content, e, hsave⟩
  · rw [hsave]
    exact iff_of_true rfl ⟨⟨text, htext⟩, hok.2.1⟩
  · rw [hsave]
    exact iff_of_false nofun fun h => hnot ⟨h.1, h.2, rfl, rfl, rfl⟩
  · rw [hsave]
    exact iff_of_false nofun fun h => hnot ⟨h.1, h.2, rfl, rfl, rfl⟩

variable (toml config path faults files) in
/-- **All or nothing.** A call that fails returns an error and changes no file, exactly if it does not
leave its temporary file. After a run of calls, a call without faults succeeds exactly if none of them
does, there was no such file before, and the configuration can be written. -/
theorem save_allOrNothing_iff (calls : List SaveCall) :
    (AllOrNothing toml config path faults files ↔ ¬LeavesTemp toml config path faults files) ∧
    ((config.save toml path {} (saveAll toml path calls files)).2 = .ok () ↔
      (∃ text, toml.toStringPretty config = .ok text) ∧ files (tempPath path) = none ∧
        NoneLeavesTemp toml path calls files) := by
  refine ⟨allOrNothing_iff, ?_⟩
  rw [save_faultless, saveAll_temp_eq_none]

end

/-! ## A full disk -/

/-- The text of some lines. -/
def tomlLines (lines : List String) : String :=
  lines.foldr (fun line rest => line ++ "\n" ++ rest) ""

/-- The text of the default configuration. -/
def defaultToml : String := tomlLines [
  "host = \"127.0.0.1\"", "port = 8765", "multi_provider_enabled = false", "providers = []", "",
  "[aperture]", "base_url = \"http://localhost:8080\"", "model_refresh_interval_secs = 300", "",
  "[http]", "connect_timeout_secs = 10", "request_timeout_secs = 300", "sse_keep_alive_secs = 15",
  "upstream_retry_attempts = 2", "upstream_retry_base_delay_ms = 2000", "", "[cors]",
  "allowed_origins = [\"http://localhost:3000\"]", "trusted_proxies = []", "", "[rate_limit]",
  "requests_per_second = 10", "burst_size = 30", "health_requests_per_second = 20",
  "health_burst_size = 50", "", "[security]", "api_keys = []", "admin_api_keys = []",
  "max_body_size_bytes = 10485760", "max_auth_attempts = 5", "auth_window_secs = 60",
  "ban_duration_secs = 300", "require_auth_in_prod = true", "max_json_depth = 256",
  "max_streaming_size_bytes = 104857600", "max_messages = 10000", "", "[model_aliases]"]

/-- The codec on this text. -/
def defaultCodec : TomlCodec where
  fromStr _ := .ok {}
  toStringPretty _ := .ok defaultToml

/-- A disk that is full after four bytes. -/
def fullDisk : SaveFaults := { write := some (4, "No space left on device (os error 28)") }

/-- The temporary file is left, and the next call fails though it meets no fault. -/
theorem fullDisk_leavesTemp :
    ¬AllOrNothing defaultCodec {} "config.toml" fullDisk (fun _ => none) ∧
    (Config.save defaultCodec {} "config.toml" {}
      (Config.save defaultCodec {} "config.toml" fullDisk fun _ => none).1).2 ≠ .ok () := by
  have hleaves : LeavesTemp defaultCodec {} "config.toml" fullDisk fun _ => none :=
    ⟨⟨_, rfl⟩, rfl, rfl, .inl nofun⟩
  refine ⟨fun h => allOrNothing_iff.mp h hleaves, fun h => ?_⟩
  exact (save_temp_eq_none.mp (save_faultless.mp h).2).2 hleaves

end ApertureRouter
