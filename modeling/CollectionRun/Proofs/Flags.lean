import CollectionRun.Flags
import CollectionRun.Proofs.Config.Layering
import Mathlib.Data.List.Nodup
import Std.Data.String.ToInt

/-! `rows` lists the settings that have a flag, in the order of the flags. The list of a
configuration is read from left to right into what each row shows, whatever the values look like
(`readAll_flagWords`). -/

namespace CollectionRun

namespace Flag

def word : Flag → String
  | switch word => word
  | valued word _ => word

/-- The word of the flag tells the reader how many elements to take. -/
def Known : Flag → Prop
  | switch word => word ∈ switches
  | valued word _ => word ∈ valuedWords

theorem notMem_switches {word : String} (valued : word ∈ valuedWords) : word ∉ switches := by
  have apart : ∀ w ∈ valuedWords, w ∉ switches := by decide
  exact apart word valued

theorem readAll_switch {word : String} (known : word ∈ switches) (rest : List String) :
    readAll (word :: rest) = (readAll rest).map (switch word :: ·) := by
  have found : switches.contains word = true := List.contains_iff_mem.mpr known
  cases rest with
  | nil => simp only [readAll, found, if_true, Option.map_some]
  | cons next rest => simp only [readAll, found, if_true]

theorem readAll_valued {word : String} (known : word ∈ valuedWords) (value : String)
    (rest : List String) :
    readAll (word :: value :: rest) = (readAll rest).map (valued word value :: ·) := by
  have notFound : ¬ switches.contains word = true := by
    rw [List.contains_iff_mem]
    exact notMem_switches known
  have found : valuedWords.contains word = true := List.contains_iff_mem.mpr known
  simp only [readAll, if_neg notFound, found, if_true]

theorem readAll_flatMap_words {flags : List Flag} (known : ∀ f ∈ flags, f.Known) :
    readAll (flags.flatMap words) = some flags := by
  induction flags with
  | nil => rfl
  | cons f rest ih =>
    rw [List.forall_mem_cons] at known
    have later := ih known.2
    rw [List.flatMap_cons]
    cases f with
    | switch word =>
      show readAll (word :: rest.flatMap words) = _
      rw [readAll_switch known.1, later, Option.map_some]
    | valued word value =>
      show readAll (word :: value :: rest.flatMap words) = _
      rw [readAll_valued known.1, later, Option.map_some]

theorem words_of_readAll {elements : List String} {flags : List Flag}
    (read : readAll elements = some flags) :
    flags.flatMap words = elements ∧ ∀ f ∈ flags, f.Known := by
  fun_induction readAll elements generalizing flags with
  | case1 =>
    cases read
    exact ⟨rfl, by simp⟩
  | case2 word found =>
    cases read
    exact ⟨rfl, by simpa [Known] using found⟩
  | case3 => cases read
  | case4 word next rest found ih =>
    obtain ⟨later, readLater, rfl⟩ := Option.map_eq_some_iff.mp read
    obtain ⟨same, known⟩ := ih readLater
    refine ⟨by rw [List.flatMap_cons, same]; rfl, List.forall_mem_cons.mpr ⟨?_, known⟩⟩
    exact List.contains_iff_mem.mp found
  | case5 word next rest _ found ih =>
    obtain ⟨later, readLater, rfl⟩ := Option.map_eq_some_iff.mp read
    obtain ⟨same, known⟩ := ih readLater
    refine ⟨by rw [List.flatMap_cons, same]; rfl, List.forall_mem_cons.mpr ⟨?_, known⟩⟩
    exact List.contains_iff_mem.mp found
  | case6 => cases read

/-- The reader takes one element for a switch and two for a flag with a value, and knows all. -/
theorem readAll_eq_some_iff {elements : List String} {flags : List Flag} :
    readAll elements = some flags ↔ flags.flatMap words = elements ∧ ∀ f ∈ flags, f.Known := by
  constructor
  · exact words_of_readAll
  · rintro ⟨rfl, known⟩
    exact readAll_flatMap_words known

def rows : List (Setting × String) :=
  [(.environment, "--env"), (.globalEnvironment, "--global-env"), (.envFile, "--env-file"),
    (.envVars, "--env-var"), (.sandboxMode, "--sandbox"), (.recursive, "-r"), (.bail, "--bail"),
    (.parallel, "--parallel"), (.testsOnly, "--tests-only"), (.insecure, "--insecure"),
    (.delay, "--delay"), (.csvFile, "--csv-file-path"), (.jsonFile, "--json-file-path"),
    (.iterationCount, "--iteration-count"), (.tags, "--tags"), (.excludeTags, "--exclude-tags"),
    (.reporterJson, "--reporter-json"), (.reporterJunit, "--reporter-junit"),
    (.reporterHtml, "--reporter-html"), (.skipAllHeaders, "--reporter-skip-all-headers"),
    (.skipHeaders, "--reporter-skip-headers")]

theorem nodup_rows : (rows.map (·.2)).Nodup := by decide

/-- The words by which the reader knows the flags of a kind. -/
def wordsOf (k : Kind) : List String := if k = .flag then switches else valuedWords

theorem mem_wordsOf : ∀ row ∈ rows, row.2 ∈ wordsOf row.1.kind := by decide

end Flag

/-- The flags for a value of a kind: one for a text that is not empty, a true flag or a positive
count, and one for every element of a list. -/
def Kind.flags (word : String) : (k : Kind) → k.Carrier → List Flag
  | .text, v => if v.isEmpty then [] else [.valued word v]
  | .flag, on => if on then [.switch word] else []
  | .count, n => if 0 < n then [.valued word (toString n)] else []
  | .sandbox, v => if v.isEmpty then [] else [.valued word v]
  | .words, vs => vs.map (.valued word)

theorem Kind.mem_flags {word : String} {k : Kind} {x : k.Carrier} {f : Flag}
    (h : f ∈ k.flags word x) :
    f.word = word ∧ (word ∈ Flag.wordsOf k → f.Known) := by
  cases k with
  | text | sandbox =>
    simp only [flags] at h
    split at h
    · contradiction
    · obtain rfl := List.mem_singleton.mp h
      exact ⟨rfl, id⟩
  | flag | count =>
    simp only [flags] at h
    split at h
    · obtain rfl := List.mem_singleton.mp h
      exact ⟨rfl, id⟩
    · contradiction
  | words =>
    obtain ⟨v, _, rfl⟩ := List.mem_map.mp h
    exact ⟨rfl, id⟩

theorem Kind.flags_injective {word : String} {k : Kind} {x y : k.Carrier} (hx : k.Natural x)
    (hy : k.Natural y) (same : k.flags word x = k.flags word y) : x = y := by
  cases k with
  | text | sandbox =>
    by_cases emptyX : x = "" <;> by_cases emptyY : y = "" <;> simp_all [flags, String.isEmpty_iff]
  | flag => cases x <;> cases y <;> simp_all [flags]
  | count =>
    have startX : (0 : Int) ≤ x := hx
    have startY : (0 : Int) ≤ y := hy
    simp only [flags] at same
    by_cases shownX : (0 : Int) < x
    · by_cases shownY : (0 : Int) < y
      · rw [if_pos shownX, if_pos shownY] at same
        have texts := (Flag.valued.inj (List.cons.inj same).1).2
        rwa [Int.toString_eq_repr, Int.toString_eq_repr, Int.repr_inj] at texts
      · rw [if_pos shownX, if_neg shownY] at same
        contradiction
    · by_cases shownY : (0 : Int) < y
      · rw [if_neg shownX, if_pos shownY] at same
        contradiction
      · exact (Int.le_antisymm (Int.not_lt.mp shownX) startX).trans
          (Int.le_antisymm (Int.not_lt.mp shownY) startY).symm
  | words => exact List.map_injective_iff.mpr (fun v w h => (Flag.valued.inj h).2) same

namespace Flag

variable {word : String} {n : Int}

theorem ofCount_eq_ok {flags : List Flag} (h : ofCount word n = .ok flags) :
    flags = Kind.count.flags word n := by
  unfold ofCount at h
  split at h
  next positive =>
    split at h
    next digits written =>
      rw [Text.eq_toString_of_decimal? written] at h
      exact (Except.ok.inj h).symm.trans (if_pos positive).symm
    next => cases h
  next none => exact (Except.ok.inj h).symm.trans (if_neg none).symm

theorem ofCount_eq_error {failure : Failure} (h : ofCount word n = .error failure) :
    failure = .overlong ∧ Kind.count.Overlong n := by
  unfold ofCount at h
  split at h
  · split at h
    next => cases h
    next unwritten => exact ⟨(Except.error.inj h).symm, Text.decimal?_eq_none_iff.mp unwritten⟩
  · cases h

theorem ofCount_of_overlong (natural : Kind.count.Natural n) (long : Kind.count.Overlong n) :
    ofCount word n = .error .overlong := by
  have start : (0 : Int) ≤ n := natural
  have nonzero : n ≠ 0 := by
    rintro rfl
    exact absurd long (by decide : ¬ Text.digitLimit < Text.digitCount 0)
  have positive : 0 < n := by omega
  rw [ofCount, if_pos positive, Text.decimal?_eq_none_iff.mpr long]

end Flag

namespace Config

variable (c : Config)

def options : List String := c.get .runOptions

/-- A reporter that a run option mentions has no flag of its own. -/
def Mentions (s : Setting) (word : String) : Prop :=
  s ∈ [.reporterJunit, .reporterHtml] ∧ ∃ o ∈ c.options, word.toList <:+: o.toList

instance (s : Setting) (word : String) : Decidable (c.Mentions s word) :=
  inferInstanceAs (Decidable (s ∈ [.reporterJunit, .reporterHtml] ∧
    ∃ o ∈ c.options, word.toList <:+: o.toList))

def flagsOf (row : Setting × String) : List Flag :=
  if c.Mentions row.1 row.2 then [] else row.1.kind.flags row.2 (c.get row.1)

theorem flagsOf_of_other {s : Setting} (other : s ∉ [.reporterJunit, .reporterHtml])
    (word : String) : c.flagsOf (s, word) = s.kind.flags word (c.get s) :=
  if_neg fun mentions => other mentions.1

theorem flagsOf_of_reporter {s : Setting} (reporter : s ∈ [.reporterJunit, .reporterHtml])
    (word value : String) (shown : s.kind.flags word (c.get s) = Kind.text.flags word value) :
    c.flagsOf (s, word) = Flag.ofReporter c.options word value := by
  have found : c.options.any (Text.holds · word) = true ↔ c.Mentions s word := by
    rw [List.any_eq_true, Mentions, and_iff_right reporter]
    simp only [Text.holds, Text.occursIn_iff]
  rw [flagsOf, Flag.ofReporter, shown]
  exact (if_congr found rfl rfl).symm

def shown : List Flag := Flag.rows.flatMap c.flagsOf

variable {c} in
theorem eq_shown_of_flags {flags : List Flag} (h : c.flags = .ok flags) : flags = c.shown := by
  obtain ⟨delay, ofDelay, behind⟩ := bind_eq_ok_iff.mp h
  obtain ⟨iterations, ofIterations, same⟩ := bind_eq_ok_iff.mp behind
  obtain rfl := Flag.ofCount_eq_ok ofDelay
  obtain rfl := Flag.ofCount_eq_ok ofIterations
  have junit := c.flagsOf_of_reporter (s := .reporterJunit) (by decide) "--reporter-junit" _ rfl
  have html := c.flagsOf_of_reporter (s := .reporterHtml) (by decide) "--reporter-html" _ rfl
  rw [← Except.ok.inj same]
  simp only [shown, Flag.rows, List.flatMap_cons, List.flatMap_nil, junit, html]
  simp (disch := decide) only [flagsOf_of_other]
  simp only [List.append_assoc, List.append_nil]
  rfl

variable {c} in
theorem flags_eq_error {failure : Failure} (h : c.flags = .error failure) :
    failure = .overlong ∧ ¬ c.Writable := by
  rcases bind_eq_error_iff.mp h with ofDelay | ⟨_, -, behind⟩
  · obtain ⟨same, long⟩ := Flag.ofCount_eq_error ofDelay
    exact ⟨same, fun writable => writable .delay long⟩
  · rcases bind_eq_error_iff.mp behind with ofIterations | ⟨_, -, never⟩
    · obtain ⟨same, long⟩ := Flag.ofCount_eq_error ofIterations
      exact ⟨same, fun writable => writable .iterationCount long⟩
    · cases never

variable {c} in
theorem flags_of_not_writable (natural : c.Natural) (long : ¬ c.Writable) :
    c.flags = .error .overlong := by
  cases given : c.flags with
  | error failure => rw [(flags_eq_error given).1]
  | ok flags =>
    obtain ⟨_, ofDelay, behind⟩ := bind_eq_ok_iff.mp given
    obtain ⟨_, ofIterations, -⟩ := bind_eq_ok_iff.mp behind
    obtain ⟨s, long⟩ := not_forall_not.mp long
    cases s with
    | delay => cases ofDelay.symm.trans (Flag.ofCount_of_overlong (natural .delay) long)
    | iterationCount =>
      cases ofIterations.symm.trans (Flag.ofCount_of_overlong (natural .iterationCount) long)
    | _ => exact long.elim

theorem mem_flagsOf {row : Setting × String} {f : Flag} (h : f ∈ c.flagsOf row) :
    f.word = row.2 ∧ (row ∈ Flag.rows → f.Known) := by
  unfold flagsOf at h
  split at h
  · contradiction
  · obtain ⟨same, known⟩ := Kind.mem_flags h
    exact ⟨same, fun listed => known (Flag.mem_wordsOf row listed)⟩

theorem filter_shown {row : Setting × String} (listed : row ∈ Flag.rows) :
    c.shown.filter (·.word = row.2) = c.flagsOf row := by
  obtain ⟨before, after, split⟩ := List.append_of_mem listed
  have apart := Flag.nodup_rows
  rw [split, List.map_append, List.map_cons, List.nodup_middle, List.nodup_cons,
    ← List.map_append] at apart
  have other : ∀ rows, rows ⊆ before ++ after →
      (rows.flatMap c.flagsOf).filter (·.word = row.2) = [] := by
    intro rows part
    refine List.filter_eq_nil_iff.mpr fun f shown same => apart.1 ?_
    obtain ⟨row', member, shown'⟩ := List.mem_flatMap.mp shown
    rw [← of_decide_eq_true same, (c.mem_flagsOf shown').1]
    exact List.mem_map_of_mem (part member)
  have own : (c.flagsOf row).filter (·.word = row.2) = c.flagsOf row :=
    List.filter_eq_self.mpr fun f shown => decide_eq_true (c.mem_flagsOf shown).1
  rw [shown, split, List.flatMap_append, List.flatMap_cons, List.filter_append,
    List.filter_append, own, other before (List.subset_append_left _ _),
    other after (List.subset_append_right _ _), List.nil_append, List.append_nil]

theorem known_shown : ∀ f ∈ c.shown, f.Known := by
  intro f member
  obtain ⟨row, listed, shown⟩ := List.mem_flatMap.mp member
  exact (c.mem_flagsOf shown).2 listed

theorem valued_notMem_shown_iff {s : Setting} {word : String} (listed : (s, word) ∈ Flag.rows)
    (reporter : s ∈ [.reporterJunit, .reporterHtml]) {text : String}
    (shown : s.kind.flags word (c.get s) = Kind.text.flags word text) :
    (∀ v, .valued word v ∉ c.shown) ↔
      text = "" ∨ ∃ o ∈ c.options, word.toList <:+: o.toList := by
  have own (v : String) : .valued word v ∈ c.shown ↔ .valued word v ∈ c.flagsOf (s, word) := by
    rw [← c.filter_shown listed, List.mem_filter]
    exact (and_iff_left (decide_eq_true rfl)).symm
  simp only [own, flagsOf, shown, Mentions, and_iff_right reporter]
  by_cases mentioned : ∃ o ∈ c.options, word.toList <:+: o.toList
  · simp [mentioned]
  · by_cases empty : text = "" <;> simp [mentioned, empty, Kind.flags, String.isEmpty_iff]

theorem get_eq_of_shown_eq {d : Config} (natural : c.Natural) (natural' : d.Natural)
    (options : d.options = c.options) (same : d.shown = c.shown) {row : Setting × String}
    (listed : row ∈ Flag.rows) (plain : ¬ c.Mentions row.1 row.2) :
    d.get row.1 = c.get row.1 := by
  have rows : d.flagsOf row = c.flagsOf row := by
    rw [← d.filter_shown listed, ← c.filter_shown listed, same]
  have plain' : ¬ d.Mentions row.1 row.2 := by
    rw [Mentions, options]
    exact plain
  rw [flagsOf, flagsOf, if_neg plain, if_neg plain'] at rows
  exact Kind.flags_injective (natural' row.1) (natural row.1) rows

theorem readAll_of_flagWords {words : List String} (h : c.flagWords = .ok words) :
    Flag.readAll words = some c.shown := by
  obtain ⟨flags, given, same⟩ := bind_eq_ok_iff.mp h
  obtain rfl := eq_shown_of_flags given
  rw [← Except.ok.inj same]
  exact Flag.readAll_flatMap_words c.known_shown

variable {c} in
theorem flagWords_eq_error {failure : Failure} (h : c.flagWords = .error failure) :
    failure = .overlong ∧ ¬ c.Writable := by
  rcases bind_eq_error_iff.mp h with failed | ⟨_, -, never⟩
  · exact flags_eq_error failed
  · cases never

theorem flagWords_of_writable (writable : c.Writable) : ∃ words, c.flagWords = .ok words := by
  cases given : c.flagWords with
  | ok words => exact ⟨words, rfl⟩
  | error failure => exact absurd writable (flagWords_eq_error given).2

/-- The reader inverts the writing of flags, whatever their values look like, and gives what each
row shows. So the list and the run options fix every setting with a flag, but for a reporter that
a run option mentions. A configuration has no list exactly if a count of it has too many digits;
no count of a configuration that is built is negative. -/
theorem readAll_flagWords :
    (∀ elements flags, Flag.readAll elements = some flags ↔
      flags.flatMap Flag.words = elements ∧ ∀ f ∈ flags, f.Known) ∧
    (∀ words, c.flagWords = .ok words → Flag.readAll words = some (Flag.rows.flatMap c.flagsOf)) ∧
    (c.Writable → ∃ words, c.flagWords = .ok words) ∧
    (c.Natural → ¬ c.Writable → c.flagWords = .error .overlong) ∧
    (∀ w ps, build w ps = .ok c → c.Natural) ∧
    ((∀ v, .valued "--reporter-junit" v ∉ Flag.rows.flatMap c.flagsOf) ↔
      c.get .reporterJunit = "" ∨ ∃ o ∈ c.options, "--reporter-junit".toList <:+: o.toList) ∧
    ((∀ v, .valued "--reporter-html" v ∉ Flag.rows.flatMap c.flagsOf) ↔
      c.get .reporterHtml = "" ∨ ∃ o ∈ c.options, "--reporter-html".toList <:+: o.toList) ∧
    ∀ (d : Config) (words : List String), c.Natural → d.Natural → d.options = c.options →
      c.flagWords = .ok words → d.flagWords = .ok words →
        ∀ row ∈ Flag.rows, ¬ c.Mentions row.1 row.2 → d.get row.1 = c.get row.1 := by
  refine ⟨fun _ _ => Flag.readAll_eq_some_iff, fun _ => c.readAll_of_flagWords,
    c.flagWords_of_writable, fun natural long => ?_,
    fun w ps => natural_of_build, ?_, ?_, ?_⟩
  · rw [flagWords, flags_of_not_writable natural long]
    rfl
  · exact c.valued_notMem_shown_iff (s := .reporterJunit) (by decide) (by decide) rfl
  · exact c.valued_notMem_shown_iff (s := .reporterHtml) (by decide) (by decide) rfl
  · intro d words natural natural' options ofC ofD row listed plain
    have same : some d.shown = some c.shown :=
      (d.readAll_of_flagWords ofD).symm.trans (c.readAll_of_flagWords ofC)
    exact c.get_eq_of_shown_eq natural natural' options (Option.some.inj same) listed plain

theorem readAll_flagWords_of_reporter_mentioned :
    let c := Config.standard.set .tags "--bail"
    let d := (c.set .reporterJunit "report.xml").set .failOnError false
    let words := ["--sandbox", "safe", "--tags", "--bail"]
    c.Natural ∧ d.Natural ∧ d.options = c.options ∧ c.flagWords = .ok words ∧
      d.flagWords = .ok words ∧ ¬ c.Mentions .tags "--tags" ∧ d.get .tags = c.get .tags := by
  intro c d words
  have natural : c.Natural := natural_standard.set trivial
  have between : (c.set .reporterJunit "report.xml").Natural := natural.set trivial
  have natural' : d.Natural := between.set trivial
  have ofC : c.flagWords = .ok words := toOption_eq_some_iff.mp (by decide)
  have ofD : d.flagWords = .ok words := toOption_eq_some_iff.mp (by decide)
  have plain : ¬ c.Mentions .tags "--tags" := by decide
  have fixed := (readAll_flagWords c).2.2.2.2.2.2.2 d words natural natural' rfl ofC ofD
    (.tags, "--tags") (by decide) plain
  exact ⟨natural, natural', rfl, ofC, ofD, plain, fixed⟩

/-- A value that looks like a flag is read as a value. -/
example :
    let c := (Config.standard.set .tags "--bail").set .envVars ["", "-r"]
    c.flagWords.toOption.bind Flag.readAll = some [.valued "--env-var" "",
      .valued "--env-var" "-r", .valued "--sandbox" "safe", .valued "--tags" "--bail"] := by decide

end Config

end CollectionRun
