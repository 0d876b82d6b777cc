import CollectionRun.Proofs.CommandLine.Collection
import CollectionRun.Session
import Mathlib.Data.List.Induction
import Mathlib.Data.List.Nodup

/-!
The lists of a configuration grow in place, and amending leaves them where they are. Yet no
request shows it: the lists of the current configuration stand apart from each other and from the
standard run options (`State.Sound`), so that each setting has the value of the last request that
gave it one, and behind it what has been appended since (`yields_of_requests`).
-/

namespace CollectionRun

namespace Store

variable {store : Store} {p q : Place}

theorem read_append (within : p < store.lists.length) (more : List (List String)) :
    Store.read ⟨store.lists ++ more⟩ p = store.read p := by
  simp only [read, List.getElem?_append_left within]

theorem read_behind (store : Store) (more : List (List String)) (i : Nat) :
    Store.read ⟨store.lists ++ more⟩ (store.lists.length + i) = (more[i]?).getD [] := by
  simp only [read, List.getElem?_append_right (Nat.le_add_right _ i), Nat.add_sub_cancel_left]

theorem read_grow_self (within : p < store.lists.length) (element : String) :
    (store.grow p element).read p = store.read p ++ [element] := by
  simp [read, grow, within]

theorem read_grow_of_ne (ne : p ≠ q) (element : String) :
    (store.grow p element).read q = store.read q := by
  simp [read, grow, ne]

end Store

namespace Kind

variable {k : Kind} {store store' : Store} {p : Place}

/-- A list with more elements behind it; the other values stay as they are. -/
def extend : (k : Kind) → k.Carrier → List String → k.Carrier
  | .text, v, _ => v
  | .flag, v, _ => v
  | .count, v, _ => v
  | .sandbox, v, _ => v
  | .words, texts, more => texts ++ more

theorem extend_nil (v : k.Carrier) : k.extend v [] = v := by
  cases k with
  | words => exact List.append_nil v
  | _ => rfl

theorem extend_append (v : k.Carrier) (xs ys : List String) :
    k.extend v (xs ++ ys) = k.extend (k.extend v xs) ys := by
  cases k with
  | words => exact (List.append_assoc v xs ys).symm
  | _ => rfl

theorem extend_of_ne (plain : k ≠ .words) (v : k.Carrier) (more : List String) :
    k.extend v more = v := by
  cases k with
  | words => exact absurd rfl plain
  | _ => rfl

theorem place?_held (v : k.Carrier) : k.place? (k.held p v) = if k = .words then some p else none := by
  cases k <;> rfl

theorem place?_eq_none (plain : k ≠ .words) (x : k.Held) : k.place? x = none := by
  cases k with
  | words => exact absurd rfl plain
  | _ => rfl

theorem ne_of_place? {x : k.Held} (none : k.place? x = none) : k ≠ .words := by
  rintro rfl
  contradiction

theorem load_congr {x : k.Held} (same : ∀ p, k.place? x = some p → store'.read p = store.read p) :
    k.load store' x = k.load store x := by
  cases k with
  | words => exact same x rfl
  | _ => rfl

theorem load_held {v : k.Carrier} (stands : k = .words → store.read p = k.elements v) :
    k.load store (k.held p v) = v := by
  cases k with
  | words => exact stands rfl
  | _ => rfl

theorem load_grow {x : k.Held} (placed : k.place? x = some p) (within : p < store.lists.length)
    (element : String) : k.load (store.grow p element) x = k.extend (k.load store x) [element] := by
  cases k with
  | words =>
    obtain rfl := Option.some.inj placed
    exact Store.read_grow_self within element
  | _ => contradiction

end Kind

/-! ### Lists apart -/

theorem Config.set_get_self (c : Config) (s : Setting) : c.set s (c.get s) = c := by
  refine Config.ext fun t => ?_
  by_cases same : s = t
  · subst same
    exact c.get_set_self s _
  · exact c.get_set_of_ne _ same

namespace Holding

variable {h : Holding} {store store' : Store} {s t : Setting} {p : Place}

@[simp] theorem get_set_self (v : s.kind.Held) : (h.set s v).get s = v := by
  simp [set]

theorem get_set_of_ne (v : s.kind.Held) (ne : s ≠ t) : (h.set s v).get t = h.get t := by
  simp [set, ne]

theorem place?_set (v : s.kind.Held) :
    (h.set s v).place? t = if s = t then s.kind.place? v else h.place? t := by
  by_cases same : s = t
  · subst same
    rw [if_pos rfl, place?, get_set_self]
  · rw [if_neg same, place?, get_set_of_ne v same]
    rfl

/-- The lists of a configuration stand in the store, apart from each other and from the standard
run options. -/
structure Apart (h : Holding) (store : Store) : Prop where
  within {s : Setting} {p : Place} : h.place? s = some p → p < store.lists.length
  own {s : Setting} {p : Place} : h.place? s = some p → p ≠ Store.standard
  single {s t : Setting} {p : Place} : h.place? s = some p → h.place? t = some p → s = t

theorem Apart.mono (apart : h.Apart store) (more : store.lists.length ≤ store'.lists.length) :
    h.Apart store' where
  within placed := Nat.lt_of_lt_of_le (apart.within placed) more
  own := apart.own
  single := apart.single

theorem Apart.set (apart : h.Apart store) (present : Store.standard < store.lists.length)
    (v : s.kind.Carrier) {more : List (List String)} (list : s.kind = .words → more ≠ []) :
    (h.set s (s.kind.held store.lists.length v)).Apart ⟨store.lists ++ more⟩ := by
  have cases {t : Setting} {p : Place}
      (placed : (h.set s (s.kind.held store.lists.length v)).place? t = some p) :
      (s = t ∧ s.kind = .words ∧ p = store.lists.length) ∨
        (h.place? t = some p ∧ p < store.lists.length) := by
    rw [place?_set, Kind.place?_held] at placed
    split at placed
    · next same =>
      split at placed
      · next words => exact .inl ⟨same, words, (Option.some.inj placed).symm⟩
      · contradiction
    · exact .inr ⟨placed, apart.within placed⟩
  constructor
  · intro t p placed
    rw [List.length_append]
    rcases cases placed with ⟨-, words, rfl⟩ | ⟨-, within⟩
    · exact Nat.lt_add_of_pos_right (List.length_pos_iff.mpr (list words))
    · exact Nat.lt_of_lt_of_le within (Nat.le_add_right _ _)
  · intro t p placed
    rcases cases placed with ⟨-, -, rfl⟩ | ⟨old, -⟩
    · exact Nat.ne_of_gt present
    · exact apart.own old
  · intro t u p first second
    rcases cases first with ⟨rfl, -, rfl⟩ | ⟨old, within⟩ <;>
      rcases cases second with ⟨same, -, last⟩ | ⟨old', within'⟩
    · exact same
    · exact absurd within' (Nat.lt_irrefl _)
    · exact absurd (last ▸ within) (Nat.lt_irrefl _)
    · exact apart.single old old'

end Holding

namespace Store

variable {store : Store}

theorem mem_lists {s : Setting} : s ∈ Setting.lists ↔ s.kind = .words := by
  simp [Setting.lists, s.mem_all]

theorem load_hold (store : Store) (c : Config) : (store.hold c).1.load (store.hold c).2 = c := by
  refine Config.ext fun s => Kind.load_held fun words => ?_
  have member : s ∈ Setting.lists := mem_lists.mpr words
  show Store.read ⟨store.lists ++ _⟩ _ = _
  rw [read_behind, List.getElem?_map, List.getElem?_idxOf member]
  rfl

theorem apart_hold (present : standard < store.lists.length) (c : Config) :
    (store.hold c).1.Apart (store.hold c).2 := by
  have placed {s : Setting} {p : Place} (h : (store.hold c).1.place? s = some p) :
      s ∈ Setting.lists ∧ p = store.lists.length + Setting.lists.idxOf s := by
    have found : (if s.kind = .words then some (store.lists.length + Setting.lists.idxOf s) else
        none) = some p := by
      rw [← Kind.place?_held (c.get s)]
      exact h
    split at found
    · next words => exact ⟨mem_lists.mpr words, (Option.some.inj found).symm⟩
    · contradiction
  constructor
  · intro s p h
    obtain ⟨member, rfl⟩ := placed h
    have := List.idxOf_lt_length_of_mem member
    show _ < (store.lists ++ _).length
    rw [List.length_append, List.length_map]
    omega
  · intro s p h
    obtain ⟨-, rfl⟩ := placed h
    exact Nat.ne_of_gt (Nat.lt_of_lt_of_le present (Nat.le_add_right _ _))
  · intro s t p h h'
    obtain ⟨member, rfl⟩ := placed h
    obtain ⟨-, same⟩ := placed h'
    exact (List.idxOf_inj member).mp (Nat.add_left_cancel same)

theorem config_build_eq (w : Surroundings) (ps : Parameters) :
    Config.build w ps =
      w.layer ps >>= fun layer => (Config.ofLayer layer).mapError BuildFault.invalid := by
  unfold Config.build Surroundings.layer
  cases w.environmentLayer with
  | error fault => rfl
  | ok environment =>
    cases w.envFileLayer with
    | error fault => rfl
    | ok envFile => rfl

theorem build_eq (intact : store.read standard = Setting.standardRunOptions) (w : Surroundings)
    (ps : Parameters) : store.build w ps = Config.build w ps := by
  rw [config_build_eq, build]
  cases w.layer ps with
  | error fault => rfl
  | ok layer =>
    show ((Config.ofLayer layer).mapError BuildFault.invalid >>= fun c => Except.ok
      (if (layer .runOptions).isNone then c.set .runOptions (store.read standard) else c)) =
        (Config.ofLayer layer).mapError BuildFault.invalid
    cases built : Config.ofLayer layer with
    | error violations => rfl
    | ok c =>
      show Except.ok (if (layer .runOptions).isNone then _ else _) = Except.ok c
      split
      · next missing =>
        have default := Config.ofLayer_eq_ok_iff.mp built .runOptions
        rw [Option.isNone_iff_eq_none.mp missing] at default
        have same : store.read standard = c.get .runOptions := intact.trans (Except.ok.inj default)
        rw [same]
        refine congrArg Except.ok (Config.ext fun s => ?_)
        by_cases eq : Setting.runOptions = s
        · subst eq
          exact c.get_set_self _ _
        · exact c.get_set_of_ne _ eq
      · rfl

end Store

/-! ### Sessions of values -/

namespace Session

variable {s : Session} {t : Setting}

def Request.around (w : Surroundings) : Request → Surroundings
  | .setVariable name value => { w with environment := w.environment.put name value }
  | .unsetVariable name => { w with environment := w.environment.erase name }
  | _ => w

/-- The session after a request where configurations are values. -/
def next (s : Session) (r : Request) : Session where
  surroundings := r.around s.surroundings
  config :=
    match r with
    | .append spelling element =>
      match Setting.spelled? spelling with
      | some t => s.config.set t (t.kind.extend (s.config.get t) [element])
      | none => s.config
    | .amend changes => s.config.amend changes
    | .renew ps =>
      match Config.build s.surroundings ps with
      | .ok c => c
      | .error _ => s.config
    | _ => s.config

namespace State

/-- The session that a state stands for. Its lists stand apart, and the standard list is intact. -/
structure Shows (st : State) (s : Session) : Prop where
  config : st.config = s.config
  surroundings : st.surroundings = s.surroundings
  apart : st.holding.Apart st.store
  present : Store.standard < st.store.lists.length
  standard : st.store.read Store.standard = Setting.standardRunOptions

variable {st : State}

theorem store_set (st : State) (v : t.kind.Carrier) :
    ∃ more, (st.set t v).store = ⟨st.store.lists ++ more⟩ ∧
      (t.kind = .words → more = [t.kind.elements v]) := by
  unfold set
  dsimp only
  split
  · exact ⟨_, rfl, fun _ => rfl⟩
  · next plain => exact ⟨[], by rw [List.append_nil], fun words => absurd words plain⟩

theorem Shows.set (shows : st.Shows s) (v : t.kind.Carrier) :
    (st.set t v).Shows { s with config := s.config.set t v } := by
  obtain ⟨more, stored, list⟩ := st.store_set v
  refine ⟨?_, shows.surroundings, ?_, ?_, ?_⟩
  · refine Config.ext fun u => ?_
    show u.kind.load (st.set t v).store ((st.holding.set t _).get u) = (s.config.set t v).get u
    rw [stored]
    by_cases same : t = u
    · subst same
      rw [Config.get_set_self, Holding.get_set_self]
      refine Kind.load_held fun words => ?_
      rw [list words]
      exact st.store.read_behind _ 0
    · rw [Config.get_set_of_ne _ _ same, Holding.get_set_of_ne _ same, ← shows.config]
      exact Kind.load_congr fun p placed => Store.read_append (shows.apart.within placed) more
  · rw [stored]
    exact shows.apart.set shows.present v fun words => by simp [list words]
  · rw [stored]
    exact Nat.lt_of_lt_of_le shows.present (by simp)
  · rw [stored, Store.read_append shows.present]
    exact shows.standard

theorem Shows.amendOne (shows : st.Shows s) (name : String) (v : Json.Value) :
    (st.amendOne name v).Shows { s with config := s.config.amendOne name v } := by
  unfold State.amendOne Config.amendOne
  split
  · split
    · exact shows.set _
    · exact shows
  · exact shows

theorem Shows.amend (shows : st.Shows s) (changes : Parameters) :
    (st.next (.amend changes)).Shows (s.next (.amend changes)) := by
  show State.Shows (changes.entries.foldl _ st)
    ⟨changes.entries.foldl _ s.config, s.surroundings⟩
  induction changes.entries generalizing st s with
  | nil => exact shows
  | cons change rest ih => exact ih (shows.amendOne change.1 change.2)

theorem Shows.hold (shows : st.Shows s) (c : Config) : (st.hold c).Shows { s with config := c } := by
  refine ⟨st.store.load_hold c, shows.surroundings, Store.apart_hold shows.present c, ?_, ?_⟩
  · exact Nat.lt_of_lt_of_le shows.present (by simp [State.hold, Store.hold])
  · exact (Store.read_append shows.present _).trans shows.standard

theorem Shows.grow (shows : st.Shows s) {p : Place} (placed : st.holding.place? t = some p)
    (element : String) : State.Shows { st with store := st.store.grow p element }
      { s with config := s.config.set t (t.kind.extend (s.config.get t) [element]) } := by
  have same : (st.store.grow p element).lists.length = st.store.lists.length := by
    simp [Store.grow]
  refine ⟨?_, shows.surroundings, shows.apart.mono (Nat.le_of_eq same.symm), ?_, ?_⟩
  · refine Config.ext fun u => ?_
    show u.kind.load (st.store.grow p element) (st.holding.get u) = _
    by_cases eq : t = u
    · subst eq
      rw [Config.get_set_self, Kind.load_grow placed (shows.apart.within placed), ← shows.config]
      rfl
    · rw [Config.get_set_of_ne _ _ eq, ← shows.config]
      refine Kind.load_congr fun q placed' => Store.read_grow_of_ne ?_ element
      rintro rfl
      exact eq (shows.apart.single placed placed')
  · rw [same]
    exact shows.present
  · rw [Store.read_grow_of_ne (shows.apart.own placed)]
    exact shows.standard

theorem Shows.withEnvironment (shows : st.Shows s) (f : Environment → Environment) :
    (st.withEnvironment f).Shows { s with
      surroundings := { s.surroundings with environment := f s.surroundings.environment } } := by
  refine ⟨shows.config, ?_, shows.apart, shows.present, shows.standard⟩
  rw [← shows.surroundings]
  rfl

/-- Whatever is asked for, the state goes on to stand for the session of values. -/
theorem Shows.next (shows : st.Shows s) (r : Request) : (st.next r).Shows (s.next r) := by
  cases r with
  | amend changes => exact shows.amend changes
  | append spelling element =>
    unfold State.next Session.next
    dsimp only
    cases Setting.spelled? spelling with
    | none => exact shows
    | some t =>
      cases placed : st.holding.place? t with
      | some p =>
        simp only [Option.bind_some, placed]
        exact shows.grow placed element
      | none =>
        have plain : t.kind ≠ .words := Kind.ne_of_place? placed
        simp only [Option.bind_some, placed, Kind.extend_of_ne plain, Config.set_get_self]
        exact shows
  | renew ps =>
    have same := st.store.build_eq shows.standard st.surroundings ps
    rw [shows.surroundings] at same
    unfold State.next Session.next
    dsimp only
    rw [shows.surroundings, same]
    cases Config.build s.surroundings ps with
    | ok c => exact shows.hold c
    | error fault => exact shows
  | setVariable name value => exact shows.withEnvironment (·.put name value)
  | unsetVariable name => exact shows.withEnvironment (·.erase name)
  | _ => exact shows

theorem shows_start (s : Session) : s.start.Shows s :=
  ⟨Store.initial.load_hold s.config, rfl, Store.initial.apart_hold (by decide) s.config,
    by simp [start, Store.hold, Store.initial, Store.standard], rfl⟩

def after (st : State) (rs : List Request) : State := rs.foldl State.next st

theorem Shows.after (shows : st.Shows s) (rs : List Request) :
    (st.after rs).Shows (rs.foldl Session.next s) := by
  induction rs generalizing st s with
  | nil => exact shows
  | cons r rest ih => exact ih (shows.next r)

end State

def Request.gives (w : Surroundings) (t : Setting) : Request → Option t.kind.Carrier
  | .amend changes => changes.entries.reverse.findSome? fun (name, v) =>
      if name = t.name then t.kind.ofJson? v else none
  | .renew ps => (Config.build w ps).toOption.map (·.get t)
  | _ => none

def Request.appends (t : Setting) : Request → List String
  | .append spelling element => if Setting.spelled? spelling = some t then [element] else []
  | _ => []

theorem get_amendOne (c : Config) (name : String) (v : Json.Value) (t : Setting) :
    (c.amendOne name v).get t =
      (if name = t.name then t.kind.ofJson? v else none).getD (c.get t) := by
  unfold Config.amendOne
  cases named : Setting.named? name with
  | none =>
    have other : name ≠ t.name := by
      rintro rfl
      rw [Setting.named?_name] at named
      contradiction
    rw [if_neg other]
    rfl
  | some u =>
    obtain rfl := Setting.name_of_named? named
    dsimp only
    by_cases same : u = t
    · subst same
      rw [if_pos rfl]
      cases u.kind.ofJson? v with
      | none => rfl
      | some x => exact c.get_set_self u x
    · rw [if_neg fun e => same (Setting.name_injective e)]
      cases u.kind.ofJson? v with
      | none => rfl
      | some x => exact c.get_set_of_ne x same

theorem get_amend (c : Config) (changes : Parameters) (w : Surroundings) (t : Setting) :
    (c.amend changes).get t = ((Request.amend changes).gives w t).getD (c.get t) := by
  show (changes.entries.foldl _ c).get t = (changes.entries.reverse.findSome? _).getD (c.get t)
  induction changes.entries generalizing c with
  | nil => rfl
  | cons change rest ih =>
    rw [List.foldl_cons, ih, List.reverse_cons, List.findSome?_append]
    cases rest.reverse.findSome? _ with
    | some v => rfl
    | none =>
      rw [Option.none_or, Option.getD_none, get_amendOne]
      simp only [List.findSome?_singleton]

/-- One request, seen from one setting. -/
theorem get_next (s : Session) (r : Request) (t : Setting) :
    (s.next r).config.get t =
      t.kind.extend ((r.gives s.surroundings t).getD (s.config.get t)) (r.appends t) := by
  cases r with
  | amend changes => exact (get_amend _ _ _ t).trans (t.kind.extend_nil _).symm
  | renew ps =>
    rw [show Request.appends t (.renew ps) = [] from rfl, Kind.extend_nil]
    unfold next Request.gives
    dsimp only
    cases Config.build s.surroundings ps with
    | ok c => rfl
    | error fault => rfl
  | append spelling element =>
    unfold next Request.gives Request.appends
    dsimp only
    cases Setting.spelled? spelling with
    | none => exact (t.kind.extend_nil _).symm
    | some u =>
      by_cases same : u = t
      · subst same
        rw [if_pos rfl]
        exact Config.get_set_self _ _ _
      · rw [if_neg fun e => same (Option.some.inj e), Kind.extend_nil]
        exact Config.get_set_of_ne _ _ same
  | _ => exact (t.kind.extend_nil _).symm

/-! ### Histories -/

def around (w : Surroundings) (rs : List Request) : Surroundings := rs.foldl Request.around w

def Silent (w : Surroundings) (t : Setting) (rs : List Request) : Prop :=
  ∀ before r, before ++ [r] <+: rs → r.gives (around w before) t = none

/-- The value of a setting after some requests: that of the last request that gave one, or else
that of the beginning, and behind it what has been appended since. -/
inductive Yields (s : Session) (t : Setting) : List Request → t.kind.Carrier → Prop
  | never {rs : List Request} (silent : Silent s.surroundings t rs) :
    Yields s t rs (t.kind.extend (s.config.get t) (rs.flatMap (Request.appends t)))
  | last {before : List Request} {r : Request} {later : List Request} {v : t.kind.Carrier}
      (given : r.gives (around s.surroundings before) t = some v)
      (silent : Silent (around s.surroundings (before ++ [r])) t later) :
    Yields s t (before ++ r :: later) (t.kind.extend v (later.flatMap (Request.appends t)))

theorem Silent.concat {w : Surroundings} {rs : List Request} {r : Request}
    (silent : Silent w t rs) (gives : r.gives (around w rs) t = none) : Silent w t (rs ++ [r]) := by
  intro before r' front
  rcases List.prefix_concat_iff.mp front with same | front
  · obtain ⟨rfl, last⟩ := List.append_inj' same rfl
    obtain rfl := List.singleton_inj.mp last
    exact gives
  · exact silent before r' front

theorem around_append (w : Surroundings) (xs ys : List Request) :
    around w (xs ++ ys) = around (around w xs) ys := List.foldl_append

theorem surroundings_foldl (s : Session) (rs : List Request) :
    (rs.foldl next s).surroundings = around s.surroundings rs := by
  induction rs generalizing s with
  | nil => rfl
  | cons r rest ih => exact ih (s.next r)

theorem appends_of_gives {w : Surroundings} {r : Request} {v : t.kind.Carrier}
    (gives : r.gives w t = some v) : r.appends t = [] := by
  cases r with
  | append => contradiction
  | _ => rfl

theorem Yields.concat {rs : List Request} {r : Request} {x : t.kind.Carrier} (yields : Yields s t rs x) :
    Yields s t (rs ++ [r])
      (t.kind.extend ((r.gives (around s.surroundings rs) t).getD x) (r.appends t)) := by
  cases gives : r.gives (around s.surroundings rs) t with
  | some v =>
    rw [appends_of_gives gives]
    exact .last gives (by simp [Silent])
  | none =>
    rw [Option.getD_none]
    cases yields with
    | never silent =>
      have kept := Yields.never (s := s) (silent.concat gives)
      rwa [List.flatMap_append, List.flatMap_singleton, Kind.extend_append] at kept
    | @last before r' later v given silent =>
      rw [List.append_cons, around_append] at gives
      have kept := Yields.last given (silent.concat gives)
      rw [List.flatMap_append, List.flatMap_singleton, Kind.extend_append] at kept
      rwa [List.append_assoc, List.cons_append]

theorem yields_foldl (s : Session) (t : Setting) (rs : List Request) :
    Yields s t rs ((rs.foldl next s).config.get t) := by
  induction rs using List.reverseRecOn with
  | nil =>
    have start : Yields s t [] _ := .never (by simp [Silent])
    rwa [List.flatMap_nil, Kind.extend_nil] at start
  | append_singleton rs r ih =>
    rw [List.foldl_concat, get_next, surroundings_foldl]
    exact ih.concat

def Request.Reads : Request → Prop
  | .lookup _ | .resolve | .flags | .dump => True
  | _ => False

/-- What fails whatever the configuration is: to set a setting in place, to ask for a name that no
setting has, to append to a setting that is no list, to build what cannot be built. -/
inductive Request.Fails (w : Surroundings) : Request → Prop
  | assign {name : String} {v : Json.Value} : Fails w (.assign name v)
  | lookup {spelling : String} (unknown : Setting.spelled? spelling = none) :
    Fails w (.lookup spelling)
  | append {spelling element : String}
      (noList : ∀ t, Setting.spelled? spelling = some t → t.kind ≠ .words) :
    Fails w (.append spelling element)
  | renew {ps : Parameters} {fault : BuildFault} (rejected : Config.build w ps = .error fault) :
    Fails w (.renew ps)

theorem Request.Fails.exists_error {w : Surroundings} {r : Request} (fails : r.Fails w)
    (c : Config) : ∃ failure, r.answer c w = .error failure := by
  cases fails with
  | assign => exact ⟨_, rfl⟩
  | lookup unknown =>
    rw [Request.answer, Config.lookup?, unknown]
    exact ⟨_, rfl⟩
  | @append spelling element noList =>
    rw [Request.answer]
    cases named : Setting.spelled? spelling with
    | none => exact ⟨_, rfl⟩
    | some t =>
      dsimp only
      rw [if_neg (noList t named)]
      exact ⟨_, rfl⟩
  | renew rejected =>
    rw [Request.answer, rejected]
    exact ⟨_, rfl⟩

/-- What is refused fails so, unless it only reads. -/
theorem Request.fails_of_error {c : Config} {w : Surroundings} {r : Request} {failure : Failure}
    (refused : r.answer c w = .error failure) : r.Fails w ∨ r.Reads := by
  cases r with
  | assign => exact .inl .assign
  | append spelling element =>
    refine .inl (.append fun t named words => ?_)
    rw [Request.answer, named] at refused
    dsimp only at refused
    rw [if_pos words] at refused
    contradiction
  | renew ps =>
    cases built : Config.build w ps with
    | ok c =>
      rw [Request.answer, built] at refused
      contradiction
    | error fault => exact .inl (.renew built)
  | lookup | resolve | flags | dump => exact .inr trivial
  | amend | setVariable | unsetVariable => contradiction

namespace State

variable {st : State}

theorem answers_concat (st : State) (rs : List Request) (r : Request) :
    st.answers (rs ++ [r]) =
      st.answers rs ++ [r.answer (st.after rs).config (st.after rs).surroundings] := by
  induction rs generalizing st with
  | nil => rfl
  | cons first rest ih =>
    rw [List.cons_append, answers, ih]
    rfl

theorem next_of_fails (shows : st.Shows s) {r : Request} (fails : r.Fails st.surroundings) :
    st.next r = st := by
  cases fails with
  | @append spelling element noList =>
    unfold State.next
    dsimp only
    cases named : Setting.spelled? spelling with
    | none => rfl
    | some t =>
      have placed : st.holding.place? t = none := Kind.place?_eq_none (noList t named) _
      simp only [Option.bind_some, placed]
  | renew rejected =>
    unfold State.next
    dsimp only
    rw [st.store.build_eq shows.standard, rejected]
  | _ => rfl

theorem next_of_reads {r : Request} (reads : r.Reads) : st.next r = st := by
  cases r with
  | lookup | resolve | flags | dump => rfl
  | _ => exact absurd reads id

end State

/-- After any requests, a setting has the value of the last request that gave it one, or else that
of the beginning, and behind it what has been appended since. What is answered then depends on
these values and on the surroundings, which only changes of variables change. What reads, and
what is refused, changes nothing, and nothing ever changes the standard run options. -/
theorem yields_of_requests (s : Session) (rs : List Request) :
    (∀ t, Yields s t rs ((s.start.after rs).config.get t)) ∧
      (s.start.after rs).surroundings = around s.surroundings rs ∧
      (∀ r, s.answers (rs ++ [r]) = s.answers rs ++
        [r.answer (s.start.after rs).config (around s.surroundings rs)]) ∧
      (∀ r c failure, r.answer c (around s.surroundings rs) = .error failure →
        (s.start.after rs).next r = s.start.after rs) ∧
      (∀ r : Request, r.Fails (around s.surroundings rs) →
        (∃ failure, r.answer (s.start.after rs).config (around s.surroundings rs) =
          .error failure) ∧ (s.start.after rs).next r = s.start.after rs) ∧
      (∀ r : Request, r.Reads → (s.start.after rs).next r = s.start.after rs) ∧
      (∀ name value, ((s.start.after rs).next (.setVariable name value)).config =
          (s.start.after rs).config ∧
        ((s.start.after rs).next (.unsetVariable name)).config = (s.start.after rs).config) ∧
      (s.start.after rs).store.read Store.standard = Setting.standardRunOptions := by
  have shows := (State.shows_start s).after rs
  have surroundings : (s.start.after rs).surroundings = around s.surroundings rs :=
    shows.surroundings.trans (surroundings_foldl s rs)
  have fails {r : Request} (fails : r.Fails (around s.surroundings rs)) :
      (s.start.after rs).next r = s.start.after rs :=
    State.next_of_fails shows (surroundings ▸ fails)
  refine ⟨fun t => ?_, surroundings, fun r => ?_, fun r c failure refused => ?_, fun r h => ?_,
    fun r => State.next_of_reads, fun name value => ⟨rfl, rfl⟩, shows.standard⟩
  · rw [shows.config]
    exact yields_foldl s t rs
  · rw [← surroundings]
    exact s.start.answers_concat rs r
  · rcases Request.fails_of_error refused with h | reads
    · exact fails h
    · exact State.next_of_reads reads
  · exact ⟨h.exists_error _, fails h⟩

theorem yields_of_requests_of_frozen :
    let s : Session := ⟨.standard, {}⟩
    let rs : List Request :=
      [.append "RunOptions" "-v", .amend ⟨[("env_vars", .array [.string "A=1"])]⟩,
        .append "envVars" "B=2", .setVariable "BRUNO_EXECUTE_TAGS" "smoke"]
    let failure : Failure :=
      ⟨.violations [{ setting := "tags", problem := .frozen, given := .null }], []⟩
    (Request.assign "tags" .null).answer .standard (around s.surroundings rs) = .error failure ∧
      (s.start.after rs).next (.assign "tags" .null) = s.start.after rs ∧
      (s.start.after rs).config.get .runOptions = Setting.standardRunOptions ++ ["-v"] ∧
      (s.start.after rs).config.get .envVars = ["A=1", "B=2"] ∧
      (s.start.after rs).config.get .tags = "" ∧
      (s.start.after rs).store.read Store.standard = Setting.standardRunOptions := by
  intro s rs failure
  obtain ⟨-, -, -, refused, -, -, -, standard⟩ := yields_of_requests s rs
  exact ⟨rfl, refused (.assign "tags" .null) .standard failure rfl, rfl, rfl, rfl,
    standard⟩

end Session

end CollectionRun
