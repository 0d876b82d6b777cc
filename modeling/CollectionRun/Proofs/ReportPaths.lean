import CollectionRun.Proofs.RunOptions
import CollectionRun.Proofs.Template.Embedding
import Mathlib.Data.List.TakeWhile

/-! The standard run options put two reports into one folder, under the display name of the
collection. The name is what the collection begins with, up to a dot; it is missing where two
dots begin it. -/

namespace CollectionRun

namespace DisplayName

def undotted : List Char → List Char
  | '.' :: cs => cs
  | cs => cs

def underscored (cs : List Char) : List Char := cs.map fun c => if c = '/' then '_' else c

theorem underscore_eq_dot_iff (c : Char) : (if c = '/' then '_' else c) = '.' ↔ c = '.' := by
  by_cases slash : c = '/'
  · rw [if_pos slash, slash]
    decide
  · rw [if_neg slash]

theorem undotted_of_ne {c : Char} (ne : c ≠ '.') (rest : List Char) :
    undotted (c :: rest) = c :: rest := by
  unfold undotted
  split
  · next same => exact absurd (List.cons.inj same).1 ne
  · rfl

theorem ofChars_eq (cs : List Char) :
    ofChars cs = (underscored (undotted cs)).takeWhile (· ≠ '.') := by
  unfold ofChars
  rw [← underscored]
  cases cs with
  | nil => rfl
  | cons c rest =>
    obtain ⟨part, parts, cut⟩ := List.exists_cons_of_ne_nil
      (Text.splitAt_ne_nil '.' (underscored rest))
    have first := Text.head?_splitAt '.' (underscored rest)
    rw [cut, List.head?_cons, Option.some.injEq] at first
    by_cases dot : c = '.'
    · subst dot
      have shape : Text.splitAt '.' (underscored ('.' :: rest)) = [] :: part :: parts :=
        congrArg _ cut
      rw [shape]
      exact first
    · have letter := mt (underscore_eq_dot_iff c).mp dot
      have shape : Text.splitAt '.' (underscored (c :: rest)) =
          ((if c = '/' then '_' else c) :: part) :: parts := by
        rw [underscored, List.map_cons, Text.splitAt, if_neg letter, ← underscored, cut]
      rw [shape, undotted_of_ne dot, underscored, List.map_cons,
        List.takeWhile_cons_of_pos (by simpa using letter), ← underscored, ← first]

theorem slash_notMem_ofChars (cs : List Char) : '/' ∉ ofChars cs := by
  rw [ofChars_eq]
  intro member
  obtain ⟨c, -, same⟩ := List.mem_map.mp ((List.takeWhile_sublist _).mem member)
  by_cases slash : c = '/'
  · rw [if_pos slash] at same
    contradiction
  · rw [if_neg slash] at same
    contradiction

theorem dot_notMem_ofChars (cs : List Char) : '.' ∉ ofChars cs := by
  rw [ofChars_eq]
  intro member
  have passed := List.all_eq_true.mp List.all_takeWhile _ member
  simp at passed

theorem ofChars_of_notMem {cs : List Char} (slash : '/' ∉ cs) (dot : '.' ∉ cs) :
    ofChars cs = cs := by
  have bare : undotted cs = cs := by
    unfold undotted
    split
    · exact absurd List.mem_cons_self dot
    · rfl
  have same : underscored cs = cs.map id :=
    List.map_congr_left fun c member => if_neg (ne_of_mem_of_not_mem member slash)
  rw [ofChars_eq, bare, same, List.map_id]
  apply List.takeWhile_eq_self_iff.mpr
  intro c member
  simpa using ne_of_mem_of_not_mem member dot

theorem takeWhile_underscored_eq_nil_iff (cs : List Char) :
    (underscored cs).takeWhile (· ≠ '.') = [] ↔ ∀ c ∈ cs.head?, c = '.' := by
  cases cs with
  | nil => simp [underscored]
  | cons c rest =>
    rw [underscored, List.map_cons, List.takeWhile_cons, List.head?_cons]
    by_cases dot : c = '.'
    · simp [dot]
    · simp [dot, mt (underscore_eq_dot_iff c).mp dot]

/-- The name is missing where there is nothing to name, and where a dot follows a dot in front. -/
theorem ofChars_eq_nil_iff (cs : List Char) :
    ofChars cs = [] ↔ cs = [] ∨ cs = ['.'] ∨ ['.', '.'] <+: cs := by
  rw [ofChars_eq, takeWhile_underscored_eq_nil_iff]
  cases cs with
  | nil => simp [undotted]
  | cons c rest =>
    by_cases dot : c = '.'
    · subst dot
      cases rest with
      | nil => simp [undotted]
      | cons d rest => simp [undotted, List.cons_prefix_cons, eq_comm]
    · simp [undotted_of_ne dot, dot, List.cons_prefix_cons, Ne.symm dot]

variable (collection : String)

theorem toList_ofCollection : (ofCollection collection).toList = ofChars collection.toList :=
  String.toList_ofList

theorem ofCollection_eq_empty_iff {collection : String}
    (named : ∃ c ∈ collection.toList, c ≠ '.' ∧ c ≠ '/') :
    ofCollection collection = "" ↔ ['.', '.'] <+: collection.toList := by
  obtain ⟨c, member, dot, -⟩ := named
  have something : collection.toList ≠ [] := List.ne_nil_of_mem member
  have more : collection.toList ≠ ['.'] := by
    intro same
    rw [same, List.mem_singleton] at member
    exact dot member
  rw [← String.toList_inj, toList_ofCollection]
  constructor
  · intro missing
    exact ((ofChars_eq_nil_iff _).mp missing).resolve_left something |>.resolve_left more
  · intro dots
    exact (ofChars_eq_nil_iff _).mpr (.inr (.inr dots))

end DisplayName

namespace RunOptions

open Template

variable {context : Context}

theorem resolvesTo_plain {source : String}
    (plain : Text.occursIn openingBraces source.toList = false) :
    ResolvesTo context source source := by
  have braceless : ¬ openingBraces <:+: source.toList := by
    rw [← Text.occursIn_iff, plain]
    exact Bool.false_ne_true
  have read := (Layout.last source.toList braceless).reads standardName
  rw [Layout.chars, String.ofList_toList] at read
  refine ⟨_, read, ?_⟩
  rw [Template.render, Layout.nodes]
  exact (renderAll_textNode _ _ _).trans (congrArg Except.ok (String.ofList_toList))

theorem resolvesTo_field {before name after value : String}
    (plainBefore : ¬ openingBraces <:+: before.toList)
    (ends : before.toList.getLast? ≠ some '\x7b') (plainAfter : ¬ openingBraces <:+: after.toList)
    (isName : IsName name.toList) (given : (Value.context context).field? name = some (.text value)) :
    ResolvesTo context (embed before ("." ++ name) after) (before ++ value ++ after) := by
  let p : Template.Pipeline := ⟨⟨.field [name], []⟩, []⟩
  have written : (Operand.field [name]).WellFormed := .field (List.forall_mem_singleton.mpr isName)
  have shape : ("." ++ name).toList = (Item.operand (.field [name])).chars := by
    simp [Item.chars, Operand.text]
  have spelled : Spelled p.items ("." ++ name).toList := shape ▸ .last written
  have evaluated : p.eval context = .ok (.text value) := by
    show ((Value.context context).follow [name] >>= fun v => evalFrom context v []) = _
    rw [Value.follow, given]
    rfl
  obtain ⟨t, read, rendered⟩ := renders_embed plainBefore ends plainAfter spelled standardName
  exact ⟨t, read, rendered context value evaluated⟩

theorem resolvesTo_collection :
    ResolvesTo context "\x7b\x7b.BrunoCollection\x7d\x7d" context.collection := by
  have isName : IsName "BrunoCollection".toList :=
    ⟨'B', "runoCollection".toList, rfl, rfl, List.all_eq_true.mp rfl⟩
  have given : (Value.context context).field? "BrunoCollection" =
      some (.text context.collection) := by
    simp [Value.field?]
  have resolved : ResolvesTo context (embed "" ("." ++ "BrunoCollection") "")
      ("" ++ context.collection ++ "") :=
    resolvesTo_field (by decide) (by decide) (by decide) isName given
  rw [String.empty_append, String.append_empty] at resolved
  exact resolved

def reportPath (name extension : String) : String :=
  "target/bruno/TEST-" ++ name ++ ("." ++ extension)

theorem resolvesTo_report {extension source : String}
    (plain : ¬ openingBraces <:+: ("." ++ extension).toList)
    (shape : embed "target/bruno/TEST-" ("." ++ "CollectionDisplayName") ("." ++ extension) =
      source) :
    ResolvesTo context source (reportPath context.displayName extension) := by
  have plainBefore : ¬ openingBraces <:+: "target/bruno/TEST-".toList := by
    rw [← Text.occursIn_iff]
    decide
  have isName : IsName "CollectionDisplayName".toList :=
    ⟨'C', "ollectionDisplayName".toList, rfl, rfl, List.all_eq_true.mp rfl⟩
  have given : (Value.context context).field? "CollectionDisplayName" =
      some (.text context.displayName) := by
    simp [Value.field?]
  rw [← shape]
  exact resolvesTo_field plainBefore (by decide) plain isName given

theorem resolve_of_standard {c : Config} (standard : c.get .runOptions = Setting.standardRunOptions)
    (getenv : String → Option String) :
    let name := DisplayName.ofCollection (c.get .collection)
    resolve c getenv = .ok ["run", c.get .collection, "--reporter-junit", reportPath name "xml",
      "--reporter-html", reportPath name "html"] := by
  intro name
  have junit : ResolvesTo (c.templateContext getenv) _ (reportPath name "xml") :=
    resolvesTo_report (by decide) rfl
  have html : ResolvesTo (c.templateContext getenv) _ (reportPath name "html") :=
    resolvesTo_report (by decide) rfl
  unfold resolve
  rw [standard, resolveAll_eq_ok_iff]
  exact .cons (resolvesTo_plain rfl) (.cons resolvesTo_collection (.cons (resolvesTo_plain rfl)
    (.cons junit (.cons (resolvesTo_plain rfl) (.cons html .nil)))))

section

variable {name extension : String}

theorem splitOn_slash_reportPath (slash : '/' ∉ name.toList) (plain : '/' ∉ extension.toList) :
    (reportPath name extension).toList.splitOn '/' =
      ["target".toList, "bruno".toList, ("TEST-" ++ name ++ ("." ++ extension)).toList] := by
  have path : reportPath name extension =
      "target/bruno/" ++ ("TEST-" ++ name ++ ("." ++ extension)) := by
    have assoc (a b c d : String) : a ++ b ++ c ++ d = a ++ (b ++ c ++ d) := by
      rw [String.append_assoc, String.append_assoc, String.append_assoc]
    exact assoc "target/bruno/" "TEST-" name ("." ++ extension)
  have file : '/' ∉ ("TEST-" ++ name ++ ("." ++ extension)).toList := by
    simp only [String.toList_append, List.mem_append, not_or]
    exact ⟨⟨by decide, slash⟩, by decide, plain⟩
  have shape : (reportPath name extension).toList = "target/bruno/".toList ++ _ :=
    (congrArg String.toList path).trans String.toList_append
  rw [shape]
  generalize ("TEST-" ++ name ++ ("." ++ extension)).toList = last at file ⊢
  show ("target".toList ++ '/' :: ("bruno".toList ++ '/' :: last)).splitOn '/' = _
  rw [List.splitOn_append_cons_self_of_not_mem (by decide),
    List.splitOn_append_cons_self_of_not_mem (by decide), List.splitOn_eq_singleton file]

theorem splitOn_dot_reportPath (dot : '.' ∉ name.toList) (plain : '.' ∉ extension.toList) :
    (reportPath name extension).toList.splitOn '.' =
      [("target/bruno/TEST-" ++ name).toList, extension.toList] := by
  have stem : '.' ∉ ("target/bruno/TEST-" ++ name).toList := by
    rw [String.toList_append, List.mem_append, not_or]
    exact ⟨by decide, dot⟩
  have shape : (reportPath name extension).toList = _ ++ ("." ++ extension).toList :=
    String.toList_append
  have point : ("." ++ extension).toList = '.' :: extension.toList := String.toList_append
  rw [shape, point]
  generalize ("target/bruno/TEST-" ++ name).toList = front at stem ⊢
  rw [List.splitOn_append_cons_self_of_not_mem stem, List.splitOn_eq_singleton plain]

theorem reportPath_eq_iff {other : String} :
    reportPath name extension = reportPath other extension ↔ name = other := by
  unfold reportPath
  rw [String.append_left_inj, String.append_right_inj]

end

/-- The standard run options run the collection as it is written, whatever is in it, and write two
reports. Both are in one folder and are told apart by their extensions. The display name is what
the collection begins with up to a dot, one in front left out, and is its own display name. -/
theorem resolve_standard (c : Config) (getenv : String → Option String)
    (standard : c.get .runOptions = Setting.standardRunOptions) :
    let collection : String := c.get .collection
    let name := DisplayName.ofCollection collection
    resolve c getenv = .ok ["run", collection, "--reporter-junit", reportPath name "xml",
        "--reporter-html", reportPath name "html"] ∧
      name.toList = (DisplayName.underscored (DisplayName.undotted collection.toList)).takeWhile
        (· ≠ '.') ∧
      '/' ∉ name.toList ∧ '.' ∉ name.toList ∧ DisplayName.ofCollection name = name ∧
      ∀ extension ∈ ["xml", "html"],
        (reportPath name extension).toList.splitOn '/' =
          ["target".toList, "bruno".toList, ("TEST-" ++ name ++ ("." ++ extension)).toList] ∧
        (reportPath name extension).toList.splitOn '.' =
          [("target/bruno/TEST-" ++ name).toList, extension.toList] := by
  intro collection name
  have characters : name.toList = DisplayName.ofChars collection.toList :=
    DisplayName.toList_ofCollection collection
  have slash : '/' ∉ name.toList := by
    rw [characters]
    exact DisplayName.slash_notMem_ofChars _
  have dot : '.' ∉ name.toList := by
    rw [characters]
    exact DisplayName.dot_notMem_ofChars _
  have fixed : DisplayName.ofCollection name = name := by
    apply String.toList_inj.mp
    rw [DisplayName.toList_ofCollection, DisplayName.ofChars_of_notMem slash dot]
  refine ⟨resolve_of_standard standard getenv, characters.trans (DisplayName.ofChars_eq _), slash,
    dot, fixed, ?_⟩
  intro extension member
  have plain : '/' ∉ extension.toList ∧ '.' ∉ extension.toList := by
    rcases List.mem_cons.mp member with rfl | member
    · decide
    · obtain rfl := List.mem_singleton.mp member
      decide
  exact ⟨splitOn_slash_reportPath slash plain.1, splitOn_dot_reportPath dot plain.2⟩

theorem resolve_standard_of_climbing_template :
    let collection := "./../\x7b\x7b.Config\x7d\x7d/a.b"
    let c := Config.standard.set .collection collection
    c.get .runOptions = Setting.standardRunOptions ∧
      resolve c (fun _ => none) = .ok ["run", "./../\x7b\x7b.Config\x7d\x7d/a.b",
        "--reporter-junit", "target/bruno/TEST-_.xml", "--reporter-html",
        "target/bruno/TEST-_.html"] := by
  intro collection c
  have standard : c.get .runOptions = Setting.standardRunOptions := rfl
  have name : DisplayName.ofCollection collection = "_" := by decide
  have resolved := (resolve_standard c (fun _ => none) standard).1
  have same : c.get .collection = collection := Config.get_set_self _ _ _
  rw [same, name] at resolved
  exact ⟨standard, resolved⟩

/-- A collection of more than dots and slashes has no display name exactly if two dots begin it.
Then the standard run options name its reports after no collection at all. -/
theorem displayName_missing_iff (collection : String)
    (named : ∃ ch ∈ collection.toList, ch ≠ '.' ∧ ch ≠ '/') :
    (DisplayName.ofCollection collection = "" ↔ ['.', '.'] <+: collection.toList) ∧
      ∀ (c : Config) (getenv : String → Option String), c.get .collection = collection →
        c.get .runOptions = Setting.standardRunOptions →
        (resolve c getenv = .ok ["run", collection, "--reporter-junit", "target/bruno/TEST-.xml",
            "--reporter-html", "target/bruno/TEST-.html"] ↔ ['.', '.'] <+: collection.toList) := by
  have missing := DisplayName.ofCollection_eq_empty_iff named
  refine ⟨missing, ?_⟩
  intro c getenv given standard
  have resolved := resolve_of_standard standard getenv
  rw [given] at resolved
  rw [resolved, ← missing]
  constructor
  · intro same
    have reports := Except.ok.inj same
    simp only [List.cons.injEq, true_and] at reports
    exact reportPath_eq_iff.mp (reports.1 : _ = reportPath "" "xml")
  · intro empty
    rw [empty]
    rfl

theorem displayName_missing_iff_of_parent :
    let collection := "../x"
    let c := Config.standard.set .collection collection
    (∃ ch ∈ collection.toList, ch ≠ '.' ∧ ch ≠ '/') ∧
      DisplayName.ofCollection collection = "" ∧
      resolve c (fun _ => none) = .ok ["run", "../x", "--reporter-junit", "target/bruno/TEST-.xml",
        "--reporter-html", "target/bruno/TEST-.html"] := by
  intro collection c
  have named : ∃ ch ∈ collection.toList, ch ≠ '.' ∧ ch ≠ '/' := ⟨'x', by decide⟩
  have dots : ['.', '.'] <+: collection.toList := by decide
  obtain ⟨missing, reports⟩ := displayName_missing_iff collection named
  have same : c.get .collection = collection := Config.get_set_self _ _ _
  exact ⟨named, missing.mpr dots, (reports c (fun _ => none) same rfl).mpr dots⟩

theorem not_named_of_parent :
    ¬ ∀ collection : String, (∃ ch ∈ collection.toList, ch ≠ '.' ∧ ch ≠ '/') →
      DisplayName.ofCollection collection ≠ "" := by
  intro all
  have named : ∃ ch ∈ "../x".toList, ch ≠ '.' ∧ ch ≠ '/' := ⟨'x', by decide⟩
  exact all "../x" named (by decide)

end RunOptions

end CollectionRun
