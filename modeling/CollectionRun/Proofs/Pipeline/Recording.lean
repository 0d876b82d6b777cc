import CollectionRun.Pipeline.Observers
import CollectionRun.Proofs.Outline
import CollectionRun.Proofs.Pipeline.Advancing

/-! Among observers that leave the report alone, a reporting one records how every stage that is
started ends, and nothing about a stage that is not (`recorded_of_advances`). -/

namespace CollectionRun

namespace OrderedMap

variable {κ α : Type} [DecidableEq κ]

theorem putIn_putIn (key : κ) (v w : α) (es : List (κ × α)) :
    putIn key w (putIn key v es) = putIn key w es := by
  induction es with
  | nil => simp [putIn]
  | cons e rest ih =>
    obtain ⟨k, u⟩ := e
    by_cases same : k = key
    · simp [putIn, same]
    · simp [putIn, same, ih]

theorem putIn_of_notMem {key : κ} {es : List (κ × α)} (fresh : key ∉ es.map (·.1)) (v : α) :
    putIn key v es = es ++ [(key, v)] := by
  induction es with
  | nil => rfl
  | cons e rest ih =>
    obtain ⟨k, u⟩ := e
    rw [List.map_cons, List.mem_cons, not_or] at fresh
    rw [putIn, if_neg (Ne.symm fresh.1), ih fresh.2]
    rfl

end OrderedMap

theorem Report.record_record (r : Report) (stage : String) (earlier later : Status) :
    (r.record stage earlier).record stage later = r.record stage later := by
  unfold record OrderedMap.put
  rw [OrderedMap.putIn_putIn]

section

variable {σ V α β : Type} {view : σ → V}

namespace Act

def Changes (view : σ → V) (g : V → V) (a : Act σ α) (x : α) : Prop :=
  ∀ j, (a.play j).1 = .ok x ∧ view (a.play j).2.world = g (view j.world)

variable {a : Act σ α} {x : α} {g : V → V}

theorem changes_of_follows (h : Follows view a (pure x)) : Changes view id a x := by
  intro j
  exact Prod.mk.inj (h j)

theorem Changes.of_play (h : Changes view g a x) {outcome : Except Failure α} {j j' : Journal σ}
    (played : a.play j = (outcome, j')) : outcome = .ok x ∧ view j'.world = g (view j.world) := by
  have changes := h j
  rwa [played] at changes

theorem Changes.bind {k : α → Act σ β} {y : β} {g' : V → V} (ha : Changes view g a x)
    (hk : Changes view g' (k x) y) : Changes view (g' ∘ g) (a >>= k) y := by
  intro j
  cases played : a.play j with
  | mk outcome j' =>
  obtain ⟨rfl, first⟩ := ha.of_play played
  obtain ⟨ends, later⟩ := hk j'
  rw [play_bind, played]
  exact ⟨ends, later.trans (congrArg g' first)⟩

end Act

/-- What can be done again is done by all observers if one of them does it, and no other does
anything else. -/
theorem Observer.changes_tell {observers : List (Observer σ)} {what : Observer σ → α → Act σ α}
    {x : α} {g : V → V} (again : g ∘ g = g)
    (each : ∀ o ∈ observers,
      Act.Changes view g (what o x) x ∨ Act.Follows view (what o x) (pure x))
    (one : ∃ o ∈ observers, Act.Changes view g (what o x) x) :
    Act.Changes view g (tell observers what x) x := by
  induction observers with
  | nil =>
    obtain ⟨_, member, _⟩ := one
    exact absurd member List.not_mem_nil
  | cons first rest ih =>
    rw [List.forall_mem_cons] at each
    obtain ⟨here, later⟩ := each
    by_cases more : ∃ o ∈ rest, Act.Changes view g (what o x) x
    · have told := ih later more
      rcases here with does | quiet
      · have both := does.bind told
        rwa [again] at both
      · exact (Act.changes_of_follows quiet).bind told
    · have quiet : ∀ o ∈ rest, Act.Follows view (what o x) (pure x) := by
        intro o member
        exact (later o member).resolve_left fun does => more ⟨o, member, does⟩
      obtain ⟨o, member, does⟩ := one
      rcases List.mem_cons.mp member with rfl | member
      · exact does.bind (Act.changes_of_follows (Observer.follows_tell quiet))
      · exact absurd ⟨o, member, does⟩ more

end

/-- The observers record in the report what they are told, and do no more to it. -/
structure Observer.Recording (observers : List (Observer World)) : Prop where
  before : ∀ stage, Act.Changes World.report (·.record stage .inProgress)
    (tellBefore observers stage) ()
  after : ∀ stage result, Act.Changes World.report (·.record stage result.status)
    (tellAfter observers stage result) result
  failed : ∀ stage failure, Act.Changes World.report (·.record stage .failed)
    (tellFailed observers stage failure) ()

theorem Observer.recording_of_mem {observers : List (Observer World)}
    (listed : .reporting ∈ observers)
    (each : ∀ o ∈ observers, o = .reporting ∨ o.Quiet World.report) : Recording observers := by
  have recorded {α : Type} (stage : String) (status : Status)
      {what : Observer World → α → Act World α} {x : α}
      (does : Act.Changes World.report (·.record stage status) (what .reporting x) x)
      (quiet : ∀ o : Observer World, o.Quiet World.report →
        Act.Follows World.report (what o x) (pure x)) :
      Act.Changes World.report (·.record stage status) (tell observers what x) x := by
    have again : (Report.record · stage status) ∘ (Report.record · stage status) =
        (Report.record · stage status) := funext fun r => r.record_record stage status status
    refine changes_tell again (fun o member => ?_) ⟨.reporting, listed, does⟩
    rcases each o member with rfl | silent
    · exact .inl does
    · exact .inr (quiet o silent)
  constructor
  · exact fun stage => recorded stage .inProgress (fun _ => ⟨rfl, rfl⟩) fun _ h => h.before stage
  · exact fun stage result =>
      recorded stage result.status (fun _ => ⟨rfl, rfl⟩) fun _ h => h.after stage result
  · exact fun stage f => recorded stage .failed (fun _ => ⟨rfl, rfl⟩) fun _ h => h.failed stage f

theorem Observer.recording_of_quiet {front back : List (Observer World)}
    (quietFront : ∀ o ∈ front, o.Quiet World.report)
    (quietBack : ∀ o ∈ back, o.Quiet World.report) :
    Recording (front ++ .reporting :: back) := by
  refine recording_of_mem (List.mem_append_right _ List.mem_cons_self) ?_
  rw [List.forall_mem_append, List.forall_mem_cons]
  exact ⟨fun o member => .inr (quietFront o member), .inl rfl,
    fun o member => .inr (quietBack o member)⟩

namespace Stage

/-- What an attempt at a stage comes to: its ending, and the report after it. -/
inductive Recorded (c : Config) (s : Stage World) (entries : Entries) (r : Report) :
    Ending → Report → Prop
  | lacking (missing : s.missing entries ≠ []) :
    Recorded c s entries r ⟨entries, some ⟨.missingKeys s.name (s.missing entries), []⟩⟩ r
  | halted {f : Failure} {left : Entries} (present : s.missing entries = [])
      (raised : s.Gives c entries ⟨.error f, left⟩) (halts : f.fault.isHalt = true) :
    Recorded c s entries r ⟨left, some f⟩ (r.record s.name .inProgress)
  | raised {f : Failure} {left : Entries} (present : s.missing entries = [])
      (raised : s.Gives c entries ⟨.error f, left⟩) (caught : f.fault.isHalt = false) :
    Recorded c s entries r ⟨left, some f⟩ (r.record s.name .failed)
  | declined {result : StageResult} {left : Entries} (present : s.missing entries = [])
      (returned : s.Gives c entries ⟨.ok result, left⟩) (failed : result.status = .failed) :
    Recorded c s entries r ⟨left, some ⟨.stageFailed s.name result.error, []⟩⟩
      (r.record s.name .failed)
  | completed {result : StageResult} {left : Entries} (present : s.missing entries = [])
      (returned : s.Gives c entries ⟨.ok result, left⟩) (going : result.status ≠ .failed) :
    Recorded c s entries r ⟨left.update result.data, none⟩ (r.record s.name result.status)

variable {observers : List (Observer World)} {c : Config} {s : Stage World} {entries : Entries}
  {j j' : Journal World} {work : Work}

theorem report_of_works (recording : Observer.Recording observers)
    (keeps : s.Keeps World.report c entries) (works : s.Works observers c entries j work j') :
    j'.world.report = j.world.report.record s.name .inProgress := by
  obtain ⟨-, j₁, before, process⟩ := works
  have kept := keeps j₁
  rw [process] at kept
  exact kept.trans ((recording.before s.name).of_play before).2

/-- What is recorded at the end of a stage stands in place of what was at its start. -/
theorem report_of_settled (recording : Observer.Recording observers)
    (keeps : s.Keeps World.report c entries) {j₂ : Journal World} {status : Status}
    (works : s.Works observers c entries j work j₂)
    (ended : j'.world.report = j₂.world.report.record s.name status) :
    j'.world.report = j.world.report.record s.name status := by
  rw [ended, report_of_works recording keeps works, Report.record_record]

theorem recorded_of_advances {ending : Ending} (recording : Observer.Recording observers)
    (keeps : s.Keeps World.report c entries) (h : s.Advances observers c entries j ending j') :
    s.Recorded c entries j.world.report ending j'.world.report := by
  cases h with
  | lacking missing => exact .lacking missing
  | heldUp present before => cases ((recording.before s.name).of_play before).1
  | halted works halts =>
    rw [report_of_works recording keeps works]
    exact .halted works.present works.gives halts
  | raised works caught failed =>
    rw [report_of_settled recording keeps works ((recording.failed s.name _).of_play failed).2]
    exact .raised works.present works.gives caught
  | raisedUntold works caught failed => cases ((recording.failed s.name _).of_play failed).1
  | returnedUntold works after => cases ((recording.after s.name _).of_play after).1
  | declined works after failed =>
    obtain ⟨handed, ended⟩ := (recording.after s.name _).of_play after
    cases handed
    rw [report_of_settled recording keeps works ended, failed]
    exact .declined works.present works.gives failed
  | completed works after going =>
    obtain ⟨handed, ended⟩ := (recording.after s.name _).of_play after
    cases handed
    rw [report_of_settled recording keeps works ended]
    exact .completed works.present works.gives going

end Stage

end CollectionRun
