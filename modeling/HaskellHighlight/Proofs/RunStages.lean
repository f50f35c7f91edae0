import HaskellHighlight.Proofs.Rendering

/-! The stages of a run. They follow one another in a fixed order: the settings, their check, the
name of the source file, its text. The first stage that fails ends the run; nothing is read for a
stage behind it, and nothing is written. A run in which none fails writes its whole output at
once. -/
namespace HaskellHighlight

namespace CommandLine

/-- What a run reads from outside, and what it writes there. -/
inductive Access where
  | file (path : String)
  | input
  | output (text : String)
  deriving DecidableEq, Repr

/-- An environment that keeps a list of what is read from it and written to it, in order. -/
def Environment.recorded (environment : Environment Id) :
    Environment (StateM (List Access)) where
  usualConfig := environment.usualConfig
  readFile path := do
    modify (· ++ [.file path])
    return (environment.readFile path).run
  readInput := do
    modify (· ++ [.input])
    return environment.readInput.run
  write text := modify (· ++ [.output text])

/-- `Settles environment given settings accesses` says what settings a run has whose arguments give
the file `given` for them, and what it reads for that. Only a given file has to hold settings. -/
inductive Settles (environment : Environment Id) :
    Option String → Except Failure Config → List Access → Prop where
  | unusable {path : String} {error : ConfigError}
      (failed : Config.ofRead (environment.readFile path).run = .error error) :
      Settles environment (some path) (.error (.configUnreadable path)) [.file path]
  | given {path : String} {config : Config}
      (read : Config.ofRead (environment.readFile path).run = .ok config) :
      Settles environment (some path) (.ok config) [.file path]
  | usual {path : String} {config : Config} (known : environment.usualConfig = some path)
      (read : Config.ofRead (environment.readFile path).run = .ok config) :
      Settles environment none (.ok config) [.file path]
  | usualUnusable {path : String} {error : ConfigError}
      (known : environment.usualConfig = some path)
      (failed : Config.ofRead (environment.readFile path).run = .error error) :
      Settles environment none (.ok .standard) [.file path]
  | unknown (known : environment.usualConfig = none) :
      Settles environment none (.ok .standard) []

/-- `Supplies environment registry file source accesses` says what source text a run has whose
arguments name `file`, and what it reads for that. A file that does not go by the name of a Haskell
file is not read. -/
inductive Supplies (environment : Environment Id) (registry : Registry) :
    Option String → Except Failure String → List Access → Prop where
  | notHaskell {path : String} (other : registry.languageFor? path ≠ some .haskell) :
      Supplies environment registry (some path) (.error (.notHaskell path registry.extensions)) []
  | fileUnreadable {path : String} (haskell : registry.languageFor? path = some .haskell)
      (failed : ∀ text : String, (environment.readFile path).run ≠ .ok text.toUTF8) :
      Supplies environment registry (some path) (.error (.fileUnreadable path)) [.file path]
  | file {path text : String} (haskell : registry.languageFor? path = some .haskell)
      (read : (environment.readFile path).run = .ok text.toUTF8) :
      Supplies environment registry (some path) (.ok text) [.file path]
  | inputUnreadable (failed : ∀ text : String, environment.readInput.run ≠ .ok text.toUTF8) :
      Supplies environment registry none (.error .inputUnreadable) [.input]
  | input {text : String} (read : environment.readInput.run = .ok text.toUTF8) :
      Supplies environment registry none (.ok text) [.input]

/-- `Ends environment arguments outcome accesses` says how a run ends and what it has read and
written then, by the stage that ends it. -/
inductive Ends (environment : Environment Id) (arguments : Arguments) :
    Outcome → List Access → Prop where
  | noSettings {cause : Failure} {accesses : List Access}
      (settings : Settles environment arguments.config (.error cause) accesses) :
      Ends environment arguments (.failure cause) accesses
  | badConfiguration {config : Config} {error : SessionError} {accesses : List Access}
      (settings : Settles environment arguments.config (.ok config) accesses)
      (rejected : Session.ofConfig config = .error error) :
      Ends environment arguments (.failure .badConfiguration) accesses
  | noSource {config : Config} {session : Session} {cause : Failure} {accesses more : List Access}
      (settings : Settles environment arguments.config (.ok config) accesses)
      (accepted : Session.ofConfig config = .ok session)
      (source : Supplies environment session.registry arguments.file (.error cause) more) :
      Ends environment arguments (.failure cause) (accesses ++ more)
  | written {config : Config} {session : Session} {text : String} {written : List Char}
      {accesses more : List Access}
      (settings : Settles environment arguments.config (.ok config) accesses)
      (accepted : Session.ofConfig config = .ok session)
      (source : Supplies environment session.registry arguments.file (.ok text) more)
      (prints : Prints arguments session text.toList written) :
      Ends environment arguments (.success (String.ofList written))
        (accesses ++ more ++ [.output (String.ofList written)])

section stages
variable {environment : Environment Id} {arguments : Arguments} {session : Session}
  {accesses log : List Access}

theorem recorded_write (environment : Environment Id) (text : String) :
    environment.recorded.write text = modify (· ++ [.output text]) := rfl

theorem settles_exists (environment : Environment Id) (given : Option String) :
    ∃ settings accesses, Settles environment given settings accesses := by
  cases given with
  | some path =>
    cases read : Config.ofRead (environment.readFile path).run with
    | error error => exact ⟨_, _, .unusable read⟩
    | ok config => exact ⟨_, _, .given read⟩
  | none =>
    cases known : environment.usualConfig with
    | none => exact ⟨_, _, .unknown known⟩
    | some path =>
      cases read : Config.ofRead (environment.readFile path).run with
      | error error => exact ⟨_, _, .usualUnusable known read⟩
      | ok config => exact ⟨_, _, .usual known read⟩

theorem Settles.reads {given : Option String} {result : Except Failure Config}
    (h : Settles environment given result accesses) (text : String) :
    .output text ∉ accesses := by
  cases h <;> simp

theorem Settles.run {result : Except Failure Config}
    (h : Settles environment arguments.config result accesses) (log : List Access) :
    ((settings environment.recorded arguments).run log).run = (result, log ++ accesses) ∧
      (settings environment arguments).run = result := by
  generalize given : arguments.config = config at h
  cases h with
  | unusable failed => simp [settings, Environment.recorded, given, failed]
  | given read => simp [settings, Environment.recorded, given, read]
  | usual known read =>
    simp [settings, Environment.recorded, given, known, Config.ofReadOrStandard, read]
  | usualUnusable known failed =>
    simp [settings, Environment.recorded, given, known, Config.ofReadOrStandard, failed]
  | unknown known => simp [settings, Environment.recorded, given, known]

private theorem decoded_iff {read : Except FileError ByteArray} {text : String} :
    (read >>= decodeUtf8) = .ok text ↔ read = .ok text.toUTF8 := by
  cases read with
  | error error => exact ⟨nofun, nofun⟩
  | ok bytes =>
    rw [Except.ok.injEq, ← decodeUtf8_eq_ok_iff]
    exact Iff.rfl

private theorem exists_error {read : Except FileError ByteArray}
    (failed : ∀ text : String, read ≠ .ok text.toUTF8) :
    ∃ error, (read >>= decodeUtf8) = .error error := by
  cases decoded : read >>= decodeUtf8 with
  | error error => exact ⟨error, rfl⟩
  | ok text => exact absurd (decoded_iff.mp decoded) (failed text)

theorem supplies_exists (environment : Environment Id) (registry : Registry)
    (file : Option String) :
    ∃ source accesses, Supplies environment registry file source accesses := by
  have text_or_not (read : Except FileError ByteArray) :
      (∃ text : String, read = .ok text.toUTF8) ∨ ∀ text : String, read ≠ .ok text.toUTF8 := by
    simpa using Classical.em (∃ text : String, read = .ok text.toUTF8)
  cases file with
  | none =>
    rcases text_or_not environment.readInput.run with ⟨text, read⟩ | failed
    · exact ⟨_, _, .input read⟩
    · exact ⟨_, _, .inputUnreadable failed⟩
  | some path =>
    by_cases haskell : registry.languageFor? path = some .haskell
    · rcases text_or_not (environment.readFile path).run with ⟨text, read⟩ | failed
      · exact ⟨_, _, .file haskell read⟩
      · exact ⟨_, _, .fileUnreadable haskell failed⟩
    · exact ⟨_, _, .notHaskell haskell⟩

theorem Supplies.reads {registry : Registry} {file : Option String}
    {result : Except Failure String} (h : Supplies environment registry file result accesses)
    (text : String) : .output text ∉ accesses := by
  cases h <;> simp

theorem Supplies.run {result : Except Failure String}
    (h : Supplies environment session.registry arguments.file result accesses)
    (log : List Access) :
    ((source environment.recorded arguments session).run log).run = (result, log ++ accesses) ∧
      (source environment arguments session).run = result := by
  generalize given : arguments.file = file at h
  cases h with
  | notHaskell other => simp [source, given, other]
  | fileUnreadable haskell failed =>
    obtain ⟨error, decoded⟩ := exists_error failed
    simp [source, Environment.recorded, given, haskell, decoded]
  | file haskell read =>
    have decoded := decoded_iff.mpr read
    simp [source, Environment.recorded, given, haskell, decoded]
  | inputUnreadable failed =>
    obtain ⟨error, decoded⟩ := exists_error failed
    simp [source, Environment.recorded, given, decoded]
  | input read =>
    have decoded := decoded_iff.mpr read
    simp [source, Environment.recorded, given, decoded]

theorem ends_exists (environment : Environment Id) (arguments : Arguments) :
    ∃ outcome accesses, Ends environment arguments outcome accesses := by
  obtain ⟨settings, accesses, settled⟩ := settles_exists environment arguments.config
  cases settings with
  | error cause => exact ⟨_, _, .noSettings settled⟩
  | ok config =>
    cases checked : Session.ofConfig config with
    | error error => exact ⟨_, _, .badConfiguration settled checked⟩
    | ok session =>
      obtain ⟨source, more, supplied⟩ :=
        supplies_exists environment session.registry arguments.file
      cases source with
      | error cause => exact ⟨_, _, .noSource settled checked supplied⟩
      | ok text =>
        obtain ⟨written, output⟩ := output?_exists arguments session text.toList
        exact ⟨_, _, .written settled checked supplied (prints_iff.mpr output)⟩

/-- A run writes once, as the last thing it does, or not at all. -/
theorem Ends.writes {outcome : Outcome} (h : Ends environment arguments outcome accesses) :
    (∃ output reads, outcome = .success output ∧ accesses = reads ++ [.output output] ∧
      ∀ text, .output text ∉ reads) ∨
    (∃ cause, outcome = .failure cause) ∧ outcome.output = "" ∧
      ∀ text, .output text ∉ accesses := by
  cases h with
  | noSettings settled => exact Or.inr ⟨⟨_, rfl⟩, rfl, settled.reads⟩
  | badConfiguration settled => exact Or.inr ⟨⟨_, rfl⟩, rfl, settled.reads⟩
  | noSource settled _ supplied =>
    refine Or.inr ⟨⟨_, rfl⟩, rfl, fun text mem => ?_⟩
    exact (List.mem_append.mp mem).elim (settled.reads text) (supplied.reads text)
  | written settled _ supplied =>
    refine Or.inl ⟨_, _, rfl, rfl, fun text mem => ?_⟩
    exact (List.mem_append.mp mem).elim (settled.reads text) (supplied.reads text)

/-- A run ends as its stages say. -/
theorem Ends.run {outcome : Outcome} (h : Ends environment arguments outcome accesses)
    (log : List Access) :
    ((highlight environment.recorded arguments).run log).run = (outcome, log ++ accesses) ∧
      (highlight environment arguments).run = outcome := by
  cases h with
  | noSettings settled =>
    obtain ⟨recorded, plain⟩ := settled.run log
    simp [highlight, recorded, plain]
  | badConfiguration settled rejected =>
    obtain ⟨recorded, plain⟩ := settled.run log
    simp [highlight, recorded, plain, rejected]
  | @noSource _ _ _ before _ settled accepted supplied =>
    obtain ⟨recorded, plain⟩ := settled.run log
    obtain ⟨then_recorded, then_plain⟩ := supplied.run (log ++ before)
    simp [highlight, recorded, plain, accepted, then_recorded, then_plain]
  | @written _ _ _ _ before _ settled accepted supplied prints =>
    obtain ⟨recorded, plain⟩ := settled.run log
    obtain ⟨then_recorded, then_plain⟩ := supplied.run (log ++ before)
    have output := prints_iff.mp prints
    simp [highlight, recorded, plain, accepted, then_recorded, then_plain, output, recorded_write]

end stages

/-- A run whose usual settings are unusable is a run that knows of none. -/
theorem highlight_usualUnusable {environment : Environment Id} {arguments : Arguments}
    {path : String} {error : ConfigError} (none_given : arguments.config = none)
    (known : environment.usualConfig = some path)
    (failed : Config.ofRead (environment.readFile path).run = .error error) :
    (highlight { environment with usualConfig := none } arguments).run =
      (highlight environment arguments).run := by
  have standard : (settings environment arguments).run = .ok .standard := by
    have settled : Settles environment arguments.config (.ok .standard) [.file path] := by
      rw [none_given]
      exact .usualUnusable known failed
    exact (settled.run []).2
  have without : (settings { environment with usualConfig := none } arguments).run =
      .ok .standard := by
    have settled : Settles { environment with usualConfig := none } arguments.config
        (.ok .standard) [] := by
      rw [none_given]
      exact .unknown rfl
    exact (settled.run []).2
  simp only [highlight, Id.run_bind, standard, without]
  rfl

/-- A run writes its whole output, once and after all it has read, or it writes nothing. How it
ends, and what it has read and written by then, is decided by the first stage that fails: the given
file with settings, the check of the settings, the name of the source file, its content or that of
the standard input. Where none fails it succeeds; for this every source text has to be written out,
whatever its highlights are, and in one way only, by the mode that the arguments ask for. Without a
file that is given for them the settings do not fail; unusable ones are as good as none. A listing
of tokens depends on the source text alone. -/
theorem highlight_stages :
    ∃ listing : List Char → List Char, ∀ (environment : Environment Id) (arguments : Arguments),
      ∃ outcome accesses,
        ((highlight environment.recorded arguments).run []).run = (outcome, accesses) ∧
        (highlight environment arguments).run = outcome ∧
        (∀ other log, Ends environment arguments other log ↔
          other = outcome ∧ log = accesses) ∧
        ((∃ output reads, outcome = .success output ∧ accesses = reads ++ [.output output] ∧
            ∀ text, .output text ∉ reads) ∨
          (∃ cause, outcome = .failure cause) ∧ outcome.output = "" ∧
            ∀ text, .output text ∉ accesses) ∧
        (arguments.config = none →
          (∀ path, outcome ≠ .failure (.configUnreadable path)) ∧
          ∀ path error, environment.usualConfig = some path →
            Config.ofRead (environment.readFile path).run = .error error →
            (highlight { environment with usualConfig := none } arguments).run = outcome) ∧
        ∀ session text, ∃ written, output? arguments session text = some written ∧
          (∀ other, Prints arguments session text other ↔ other = written) ∧
          (arguments.listTokens = true → written = listing text) := by
  refine ⟨fun text => (Render.tokenListing text (Lexer.tokens text)).getD [],
    fun environment arguments => ?_⟩
  obtain ⟨outcome, accesses, ends⟩ := ends_exists environment arguments
  obtain ⟨recorded, plain⟩ := ends.run []
  refine ⟨outcome, accesses, recorded, plain, fun other log => ⟨fun also => ?_, ?_⟩, ends.writes,
    fun none_given => ⟨fun path => ?_, fun path error known failed => ?_⟩, fun session text => ?_⟩
  · have same := (also.run []).1.symm.trans recorded
    exact Prod.mk.inj same
  · rintro ⟨rfl, rfl⟩
    exact ends
  · rintro rfl
    cases ends with
    | noSettings settled =>
      rw [none_given] at settled
      cases settled
    | noSource _ _ supplied =>
      generalize arguments.file = file at supplied
      cases supplied
  · exact (highlight_usualUnusable none_given known failed).trans plain
  · obtain ⟨written, output⟩ := output?_exists arguments session text
    refine ⟨written, output, fun other => ?_, fun listed => ?_⟩
    · rw [prints_iff, output, Option.some.injEq, eq_comm]
    rw [output?, if_pos listed] at output
    simp only [output, Option.getD_some]

example : ((highlight (Environment.ofTree .empty (some "settings") .empty).recorded
    ⟨some "main.rs", .ansi, none, false, 0⟩).run []).run =
      (.failure (.notHaskell "main.rs" ["hs"]), [.file "settings"]) := by
  decide +kernel

end CommandLine

end HaskellHighlight
