import CollectionRun.Proofs.CommandLine.Loading

namespace CollectionRun

open Spelling

namespace Parameters

/-- The parameters are the settings of the configuration, each under a spelling of its name, in
some order. -/
def Restate (ps : Parameters) (c : Config) : Prop :=
  ∃ spelling : Setting → String, (∀ s, snakeCase (spelling s) = s.name) ∧
    ps.entries.Perm (Setting.all.map fun s => (spelling s, c.value s))

theorem Restate.lastFor {ps : Parameters} {c : Config} (h : ps.Restate c) (s : Setting) :
    ps.LastFor s (c.value s) := by
  obtain ⟨spelling, names, order⟩ := h
  have member : (spelling s, c.value s) ∈ ps.entries :=
    order.mem_iff.mpr (List.mem_map_of_mem s.mem_all)
  -- No two keys have the same name, so that none behind this one gives the setting.
  have nodup : (ps.entries.map fun p => snakeCase p.1).Nodup := by
    have named : Setting.all.map (fun s => snakeCase (spelling s)) = Setting.all.map Setting.name :=
      List.map_congr_left fun t _ => names t
    rw [(order.map _).nodup_iff, List.map_map]
    show (Setting.all.map fun s => snakeCase (spelling s)).Nodup
    rw [named]
    decide
  obtain ⟨before, after, split⟩ := List.append_of_mem member
  refine ⟨before, spelling s, after, split, names s, fun p later same => ?_⟩
  rw [split] at nodup
  exact ne_of_nodup_map nodup later (same.trans (names s).symm)

end Parameters

theorem Surroundings.layers_of_parsed {w : Surroundings} (parsed : w.Parsed) :
    ∃ environment envFile, w.environmentLayer = .ok environment ∧
      w.envFileLayer = .ok envFile := by
  rw [w.environmentLayer_eq, w.envFileLayer_eq]
  rcases Layer.ofVariables_cases (w.variablesOf .environment) with ⟨s, -, fails, -⟩ | ⟨env, -⟩
  · exact absurd fails (parsed .environment s)
  · rcases Layer.ofVariables_cases (w.variablesOf .envFile) with ⟨s, -, fails, -⟩ | ⟨file, -⟩
    · exact absurd fails (parsed .envFile s)
    · rw [env, file]
      exact ⟨_, _, rfl, rfl⟩

namespace Config

theorem build_of_lastFor {w : Surroundings} {ps : Parameters} {c : Config} (parsed : w.Parsed)
    (given : ∀ s, ps.LastFor s (c.value s)) (accepted : ∀ s : Setting, s.kind.Accepts (c.get s)) :
    build w ps = .ok c := by
  obtain ⟨environment, envFile, foundE, foundF⟩ := w.layers_of_parsed parsed
  refine build_eq_ok_iff.mpr ⟨environment, envFile, foundE, foundF, fun s => ?_⟩
  rw [Layer.firstOf, Parameters.ofParameters_eq_some_iff.mpr (given s)]
  exact Setting.readAs_toJson (accepted s)

/-- A configuration that has been built is built again of its own values, in any order and under any
spellings, whatever the environment and the environment file say besides, as long as their lists are
JSON. Each of its values is validated to itself; its counts are not negative, and its sandbox is one
of the three modes. -/
theorem build_restated {w : Surroundings} {ps : Parameters} {c : Config}
    (built : build w ps = .ok c) :
    (∀ (w' : Surroundings) (ps' : Parameters), w'.Parsed → ps'.Restate c → build w' ps' = .ok c) ∧
      (∀ s : Setting, s.read (c.value s) = .ok (c.get s)) ∧
      (0 : Int) ≤ c.get .delay ∧ (0 : Int) ≤ c.get .iterationCount ∧
      c.get .sandboxMode ∈ ["", "safe", "developer"] := by
  have accepted := accepts_of_build built
  refine ⟨fun w' ps' parsed restated => build_of_lastFor parsed restated.lastFor accepted,
    fun s => Setting.readAs_toJson (accepted s), ?_, ?_, ?_⟩
  · exact accepted .delay
  · exact accepted .iterationCount
  · exact accepted .sandboxMode

/-- A padded numeral, a word for a flag and a flag for a count; below them, a count that is refused
and a list that is hidden. -/
theorem build_restated_of_hidden_variables :
    let ps : Parameters := ⟨[("delay", .string " +0_7.0 "), ("bail", .string "YES"),
      ("iteration-count", .bool true), ("sandboxMode", .string "developer")]⟩
    let c := (((standard.set .delay (7 : Int)).set .bail true).set .iterationCount (1 : Int)).set
      .sandboxMode "developer"
    let w : Surroundings :=
      ⟨⟨[("BRUNO_EXECUTE_DELAY", "-1"), ("Bruno_Execute_Env_Vars", "[\"A=1\"]")]⟩, none⟩
    let spelling : Setting → String := fun s => if s = .delay then "Delay" else s.name
    let ps' : Parameters := ⟨(Setting.all.map fun s => (spelling s, c.value s)).reverse⟩
    build ⟨.empty, none⟩ ps = .ok c ∧ w.Parsed ∧ ps'.Restate c ∧ build w ps' = .ok c := by
  intro ps c w spelling ps'
  have built : build ⟨.empty, none⟩ ps = .ok c := build_of_parameters fun s => by
    cases s <;> rfl
  have parsed : w.Parsed := by
    rintro source s ⟨list, text, ⟨before, n, after, split, named, -⟩, unread⟩
    have member : (n, some text) ∈ w.variablesOf source := by
      rw [split]
      exact List.mem_append_right _ List.mem_cons_self
    cases source with
    | envFile => cases member
    | environment =>
      have read : Json.read? "[\"A=1\"]" = some (.array [.string "A=1"]) := by
        with_unfolding_all rfl
      simp only [Surroundings.variablesOf, w, List.map_cons, List.map_nil, List.mem_cons,
        Prod.mk.injEq, Option.some.injEq, List.not_mem_nil, or_false] at member
      -- The count is not a list, so that its text need not be JSON; the list is.
      rcases member with ⟨rfl, rfl⟩ | ⟨rfl, rfl⟩
      · have delay : smallCase "BRUNO_EXECUTE_DELAY" = Setting.delay.environmentName := by decide
        rw [delay] at named
        cases s with
        | runOptions | envVars | skipHeaders => exact absurd named (by decide)
        | _ => cases list
      · rw [read] at unread
        contradiction
  have restated : ps'.Restate c := by
    refine ⟨spelling, fun s => ?_, List.reverse_perm _⟩
    cases s <;> decide
  exact ⟨built, parsed, restated, (build_restated built).1 w ps' parsed restated⟩

end Config

end CollectionRun
