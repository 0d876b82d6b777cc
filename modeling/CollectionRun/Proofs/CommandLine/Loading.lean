import CollectionRun.CommandLine.Run
import CollectionRun.Proofs.CommandLine.Collection

namespace CollectionRun

open Spelling

namespace Surroundings

def Parsed (w : Surroundings) : Prop := ∀ source s, ¬ (w.variablesOf source).Unparsed s

end Surroundings

namespace Config

variable (w : Surroundings) (ps : Parameters)

theorem build_cases :
    (∃ source s, (w.variablesOf source).Unparsed s ∧
        build w ps = .error (.unreadable s source)) ∨
      w.Parsed ∧ ((∃ c, build w ps = .ok c) ∨ ∃ found, build w ps = .error (.invalid found)) := by
  unfold build
  rw [w.environmentLayer_eq, w.envFileLayer_eq]
  rcases Layer.ofVariables_cases (w.variablesOf .environment) with ⟨s, stops, fails, -⟩ | ⟨env, parsed⟩
  · rw [stops]
    exact .inl ⟨.environment, s, fails, rfl⟩
  rw [env]
  rcases Layer.ofVariables_cases (w.variablesOf .envFile) with ⟨s, stops, fails, -⟩ | ⟨file, parsed'⟩
  · rw [stops]
    exact .inl ⟨.envFile, s, fails, rfl⟩
  rw [file]
  refine .inr ⟨fun source => ?_, ?_⟩
  · cases source with
    | environment => exact parsed
    | envFile => exact parsed'
  · show (∃ c, (ofLayer _).mapError _ = .ok c) ∨ ∃ found, (ofLayer _).mapError _ = .error _
    cases ofLayer _ with
    | ok c => exact .inl ⟨c, rfl⟩
    | error found => exact .inr ⟨found, rfl⟩

end Config

namespace CommandLine

theorem not_stepFault_of_readEnvFile {files : Files} {failure : Failure}
    (h : readEnvFile files = .error failure) : failure.fault.isStepFault = false := by
  unfold readEnvFile decoded at h
  split at h
  · contradiction
  · split at h
    · obtain rfl := Except.error.inj h
      rfl
    · contradiction

theorem stepFault_of_readParameters {files : Files} {path : Path} {failure : Failure}
    (h : readParameters files path = .error failure) : failure.fault.isStepFault = true := by
  unfold readParameters at h
  split at h
  · obtain rfl := Except.error.inj h
    rfl
  · contradiction
  · obtain rfl := Except.error.inj h
    rfl

namespace Arguments

variable {a : Arguments} {files : Files} {environment : Environment} {failure : Failure}

theorem parameters_eq_error_iff :
    a.parameters files = .error failure ↔ a.fileParameters files = .error failure := by
  unfold parameters
  rw [bind_eq_error_iff, or_iff_left]
  rintro ⟨ps, -, h⟩
  contradiction

theorem exists_of_bare (bare : a.config = .bare) :
    ∃ failure, a.parameters files = .error failure ∧ failure.fault.isStepFault = false := by
  refine ⟨⟨.noAttribute "list" "read_text", []⟩, parameters_eq_error_iff.mpr ?_, rfl⟩
  unfold fileParameters
  rw [bare]

theorem stepFault_of_parameters (set : a.config ≠ .bare) (h : a.parameters files = .error failure) :
    failure.fault.isStepFault = true := by
  replace h := parameters_eq_error_iff.mp h
  unfold fileParameters at h
  split at h
  · exact stepFault_of_readParameters h
  · next bare => exact absurd bare set
  · contradiction

theorem loadConfig_eq_error_iff : a.loadConfig files environment = .error failure ↔
    a.parameters files = .error failure ∨ ∃ ps, a.parameters files = .ok ps ∧
      (readEnvFile files = .error failure ∨ ∃ envFile, readEnvFile files = .ok envFile ∧
        (Config.build ⟨environment, envFile⟩ ps).mapError BuildFault.failure = .error failure) := by
  unfold loadConfig
  simp only [bind_eq_error_iff]

/-- The file of parameters is a file, and where it can be read, so can the texts of the
environment file and of all lists. -/
structure Loadable (a : Arguments) (files : Files) (environment : Environment) : Prop where
  set : a.config ≠ .bare
  read : ∀ ps, a.parameters files = .ok ps →
    ∃ envFile, readEnvFile files = .ok envFile ∧ (Surroundings.mk environment envFile).Parsed

theorem loadable_iff : a.Loadable files environment ↔
    ∀ failure, a.loadConfig files environment = .error failure →
      failure.fault.isStepFault = true := by
  constructor
  · rintro ⟨set, read⟩ failure failed
    rcases loadConfig_eq_error_iff.mp failed with unread | ⟨ps, found, failed⟩
    · exact stepFault_of_parameters set unread
    obtain ⟨envFile, foundF, parsed⟩ := read ps found
    rcases failed with undecoded | ⟨envFile', foundF', failed⟩
    · cases foundF.symm.trans undecoded
    obtain rfl := Except.ok.inj (foundF.symm.trans foundF')
    rcases Config.build_cases ⟨environment, envFile⟩ ps with
      ⟨source, s, unparsed, -⟩ | ⟨-, ⟨c, built⟩ | ⟨violations, built⟩⟩
    · exact absurd unparsed (parsed source s)
    · rw [built] at failed
      contradiction
    · rw [built] at failed
      obtain rfl := Except.error.inj failed
      rfl
  · intro step
    have loud {failure : Failure} (failed : a.loadConfig files environment = .error failure)
        (below : failure.fault.isStepFault = false) : False := by
      have raised := step failure failed
      rw [below] at raised
      contradiction
    refine ⟨fun bare => ?_, fun ps found => ?_⟩
    · obtain ⟨failure, failed, below⟩ :
          ∃ failure, a.parameters files = .error failure ∧ failure.fault.isStepFault = false :=
        exists_of_bare bare
      exact loud (loadConfig_eq_error_iff.mpr (.inl failed)) below
    · cases foundF : readEnvFile files with
      | error failure =>
        exact (loud (loadConfig_eq_error_iff.mpr (.inr ⟨ps, found, .inl foundF⟩))
          (not_stepFault_of_readEnvFile foundF)).elim
      | ok envFile =>
        refine ⟨envFile, rfl, ?_⟩
        rcases Config.build_cases ⟨environment, envFile⟩ ps with
          ⟨source, s, -, built⟩ | ⟨parsed, -⟩
        · have failed := congrArg (Except.mapError BuildFault.failure) built
          exact (loud (loadConfig_eq_error_iff.mpr
            (.inr ⟨ps, found, .inr ⟨envFile, foundF, failed⟩⟩)) rfl).elim
        · exact parsed

end Arguments

theorem outcome_perform_of_error {site : Site} {a : Arguments} {failure : Failure}
    (failed : a.loadConfig site.files site.environment = .error failure) :
    (perform site a).1 = if failure.fault.isStepFault then .ok 1 else .error failure := by
  unfold perform
  simp only [failed]
  split <;> rfl

/-- What is wrong with a configuration is reported as such exactly if the text of every list is
JSON; the fault of one that is not is passed on as it is. So loading a configuration fails only in
ways that end the command line with exit code 1, except for the separator in place of a file
(`Arguments.given`), an environment file that is not UTF-8, and such lists. -/
theorem loadConfig_surfaces (w : Surroundings) (ps : Parameters) (site : Site) (a : Arguments) :
    (((∃ c, Config.build w ps = .ok c) ∨
        ∃ found, (Config.build w ps).mapError BuildFault.failure =
          .error ⟨.invalidConfiguration, [.violations found]⟩) ↔ w.Parsed) ∧
      (¬ w.Parsed → ∃ source s, (w.variablesOf source).Unparsed s ∧
        (Config.build w ps).mapError BuildFault.failure =
          .error ⟨.unreadableSetting s source, []⟩) ∧
      ((∀ failure, a.loadConfig site.files site.environment = .error failure →
          (perform site a).1 = .ok 1) ↔ a.Loadable site.files site.environment) := by
  refine ⟨?_, fun unparsed => ?_, ?_⟩
  · rcases Config.build_cases w ps with ⟨source, s, unparsed, built⟩ | ⟨parsed, built⟩
    · refine iff_of_false ?_ fun parsed => parsed source s unparsed
      rw [built]
      rintro (⟨c, h⟩ | ⟨found, h⟩)
      · contradiction
      · cases Except.error.inj h
    · refine iff_of_true ?_ parsed
      rcases built with valid | ⟨found, built⟩
      · exact .inl valid
      · exact .inr ⟨found, congrArg (Except.mapError BuildFault.failure) built⟩
  · rcases Config.build_cases w ps with ⟨source, s, fails, built⟩ | ⟨parsed, -⟩
    · exact ⟨source, s, fails, congrArg (Except.mapError BuildFault.failure) built⟩
    · exact absurd parsed unparsed
  · rw [Arguments.loadable_iff]
    refine forall₂_congr fun failure failed => ?_
    rw [outcome_perform_of_error failed]
    cases failure.fault.isStepFault with
    | true => exact iff_of_true rfl rfl
    | false => exact iff_of_false nofun nofun

theorem escapes_of_plain_list :
    let w : Surroundings := ⟨⟨[("BRUNO_EXECUTE_RUN_OPTIONS", "x")]⟩, none⟩
    let site : Site := ⟨w.environment, fun _ => .error .missing, []⟩
    ∃ s source, (Config.build w .empty).mapError BuildFault.failure =
        .error ⟨.unreadableSetting s source, []⟩ ∧
      (perform site {}).1 = .error ⟨.unreadableSetting s source, []⟩ := by
  intro w site
  have unparsed : (w.variablesOf .environment).Unparsed .runOptions := by
    have named : smallCase "BRUNO_EXECUTE_RUN_OPTIONS" = Setting.runOptions.environmentName := by
      decide
    have bare : Json.read? "x" = none := by with_unfolding_all rfl
    exact ⟨rfl, "x", ⟨[], _, [], rfl, named, List.forall_mem_nil _⟩, bare⟩
  rcases Config.build_cases w .empty with ⟨source, s, -, built⟩ | ⟨parsed, -⟩
  · have failed := congrArg (Except.mapError BuildFault.failure) built
    refine ⟨s, source, failed, ?_⟩
    have loading : Arguments.loadConfig {} site.files site.environment =
        .error ⟨.unreadableSetting s source, []⟩ :=
      Arguments.loadConfig_eq_error_iff.mpr (.inr ⟨.empty, rfl, .inr ⟨none, rfl, failed⟩⟩)
    rw [outcome_perform_of_error loading]
    rfl
  · exact absurd unparsed (parsed .environment .runOptions)

end CommandLine

end CollectionRun
