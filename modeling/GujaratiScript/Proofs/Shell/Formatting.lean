import Mathlib
import GujaratiScript.Proofs.Shell.Sources
import GujaratiScript.Proofs.Source.Encoding

/-!
# Checking and formatting

* `Command.formatAll_check` : what a check of several files shows, and that it changes none;
* `Command.formatAll_format` : what formatting them shows, and which files it changes;
* `Command.Foretells`, `Command.check_foretells_format` : a check tells what formatting will do.
-/

namespace GujaratiScript

/-- The bytes of the canonical layout of the text that bytes stand for; without one they stay. -/
def reformatted (bytes : List UInt8) : List UInt8 :=
  match decode bytes with
  | .error _ => bytes
  | .ok text =>
    match formatSource text with
    | .error _ => bytes
    | .ok formatted => formatted.toUTF8.toList

/-- The files at some places are reformatted. -/
def Node.Change.reformatting (places : List (List String)) : Node.Change :=
  fun names bytes => if names ∈ places then reformatted bytes else bytes

/-- The texts of the status lines of one kind, in order. -/
def Event.reported (s : Status) (events : List Event) : List String :=
  events.filterMap fun
    | .status s' text => if s' = s then some text else none
    | _ => none

namespace Command

variable {files : Files} {path text formatted : String} {paths rest : List String}
  {failure : Failure}

/-! ## Single files -/

/-- Why a source file has no canonical layout. -/
def failure? (files : Files) (path : String) : Option Failure :=
  match revision files path with
  | .error failure => some failure
  | .ok _ => none

/-- Whether a source file has another layout than its canonical one. -/
def isUnformatted (files : Files) (path : String) : Bool :=
  match revision files path with
  | .error _ => false
  | .ok (text, formatted) => text ≠ formatted

theorem read_of_source (eq : source files path = .ok text) :
    ∃ bytes, files.read path = .ok bytes ∧ decode bytes = .ok text := by
  unfold source readSource at eq
  split at eq
  · cases eq
  split at eq
  · cases eq
  · rename_i bytes reads _ text' decodes
    cases eq
    exact ⟨bytes, reads, decodes⟩

/-- A source file with a canonical layout stands at some place; its bytes are those of its text. -/
theorem find?_of_revision (eq : revision files path = .ok (text, formatted)) :
    ∃ place bytes, files.find? path = .ok (place, .file bytes) ∧ decode bytes = .ok text ∧
      formatSource text = .ok formatted := by
  rw [revision] at eq
  split at eq
  · cases eq
  rename_i text' reads
  split at eq
  · cases eq
  rename_i formatted' formats
  cases eq
  obtain ⟨bytes, reads, decodes⟩ := read_of_source reads
  obtain ⟨place, found⟩ := Files.find?_of_read reads
  exact ⟨place, bytes, found, decodes, formats⟩

/-- What formatting makes of a source file depends on its bytes alone. -/
theorem revision_congr {files' : Files} (same : files'.read path = files.read path) :
    revision files' path = revision files path := by
  rw [revision, revision, source, source, same]

/-! ## Checking several files -/

/-- The source files before the first that has no canonical layout. -/
def reached (files : Files) (paths : List String) : List String :=
  paths.takeWhile fun path => (failure? files path).isNone

/-- The first of the source files that has no canonical layout, and all behind it. -/
def unreached (files : Files) (paths : List String) : List String :=
  paths.dropWhile fun path => (failure? files path).isNone

/-- Why formatting stops before all source files were reached, if it does. -/
def stop? (files : Files) (paths : List String) : Option Failure :=
  (unreached files paths).head?.bind (failure? files)

/-- The unformatted ones of the source files that are reached. -/
def unformatted (files : Files) (paths : List String) : List String :=
  (reached files paths).filter (isUnformatted files)

theorem failure?_eq_none (eq : revision files path = .ok (text, formatted)) :
    failure? files path = none := by
  rw [failure?, eq]

theorem failure?_eq_some (eq : revision files path = .error failure) :
    failure? files path = some failure := by
  rw [failure?, eq]

theorem reached_cons_of_ok (eq : revision files path = .ok (text, formatted)) :
    reached files (path :: rest) = path :: reached files rest := by
  rw [reached, List.takeWhile_cons, failure?_eq_none eq, Option.isNone_none, if_pos rfl, reached]

theorem reached_cons_of_error (eq : revision files path = .error failure) :
    reached files (path :: rest) = [] := by
  rw [reached, List.takeWhile_cons, failure?_eq_some eq, if_neg (by simp)]

theorem stop?_cons_of_ok (eq : revision files path = .ok (text, formatted)) :
    stop? files (path :: rest) = stop? files rest := by
  rw [stop?, unreached, List.dropWhile_cons, failure?_eq_none eq, Option.isNone_none, if_pos rfl,
    stop?, unreached]

theorem stop?_cons_of_error (eq : revision files path = .error failure) :
    stop? files (path :: rest) = some failure := by
  rw [stop?, unreached, List.dropWhile_cons, failure?_eq_some eq, if_neg (by simp)]
  exact failure?_eq_some eq

theorem unformatted_cons_of_ok (eq : revision files path = .ok (text, formatted)) :
    unformatted files (path :: rest) =
      if text = formatted then unformatted files rest else path :: unformatted files rest := by
  rw [unformatted, reached_cons_of_ok eq, List.filter_cons, isUnformatted, eq]
  simp only [ne_eq, decide_not, Bool.not_eq_true', decide_eq_false_iff_not, ite_not, unformatted]

theorem unformatted_cons_of_error (eq : revision files path = .error failure) :
    unformatted files (path :: rest) = [] := by
  rw [unformatted, reached_cons_of_error eq, List.filter_nil]

/-- What a check shows at its end, when `count` files were unformatted. -/
def verdict (stop : Option Failure) (count : Nat) : List Event :=
  match stop with
  | some failure => [failureNote failure]
  | none =>
    if count = 0 then [] else [.status .failed (toString count ++ " file(s) need formatting")]

/-- A check of several files changes none. It reports the unformatted ones, up to the first that has
no canonical layout. -/
theorem formatAll_check (files : Files) (changed : Nat) (paths : List String) :
    formatAll true files changed paths =
      ⟨if (stop? files paths).isNone ∧ changed + (unformatted files paths).length = 0 then 0 else 1,
        (unformatted files paths).map (.status .unformatted) ++
          verdict (stop? files paths) (changed + (unformatted files paths).length),
        files, false⟩ := by
  induction paths generalizing changed with
  | nil =>
    by_cases none : changed = 0
    · simp [formatAll, stop?, unreached, unformatted, reached, verdict, none]
    · simp [formatAll, stop?, unreached, unformatted, reached, verdict, none,
        Nat.pos_of_ne_zero none]
  | cons path rest ih =>
    rw [formatAll]
    cases eq : revision files path with
    | error failure => simp [stop?_cons_of_error eq, unformatted_cons_of_error eq, verdict]
    | ok revised =>
      obtain ⟨text, formatted⟩ := revised
      rw [stop?_cons_of_ok eq, unformatted_cons_of_ok eq]
      by_cases same : text = formatted
      · simp [same, ih]
      · simp [same, ih, Nat.add_assoc, Nat.add_comm 1]

/-! ## Formatting several files -/

/-- Where the unformatted files stand. -/
def places (files : Files) (paths : List String) : List (List String) :=
  (unformatted files paths).filterMap files.place?

theorem mem_of_mem_unformatted (mem : path ∈ unformatted files paths) : path ∈ paths :=
  (List.takeWhile_sublist _).mem (List.mem_of_mem_filter mem)

/-- What formatting a source file shows. -/
def outcome (files : Files) (path : String) : Event :=
  .status (if isUnformatted files path then .formatted else .unchanged) path

theorem outcome_of_revision (eq : revision files path = .ok (text, formatted)) :
    outcome files path = .status (if text = formatted then .unchanged else .formatted) path := by
  rw [outcome, isUnformatted, eq]
  simp

/-- One file is reformatted, and then some at other places. -/
theorem mapFiles_only_reformatting (tree : files.root.IsTree) {place : List String}
    {old : List UInt8} (found : files.find? path = .ok (place, .file old))
    {others : List (List String)} (away : place ∉ others) :
    (files.mapFiles (.only place (reformatted old))).mapFiles (.reformatting others) =
      files.mapFiles (.reformatting (place :: others)) := by
  rw [Files.mapFiles_mapFiles tree]
  refine congrArg (Files.mk · files.here) (Node.mapFiles_congr tree fun names bytes mem => ?_)
  by_cases here : names = place
  · subst here
    cases tree.eq_of_mem_walk mem (Files.mem_walk_of_find? found)
    simp [Node.Change.only, Node.Change.reformatting, away]
  · simp [Node.Change.only, Node.Change.reformatting, here]

theorem mapFiles_reformatting_nil (tree : files.root.IsTree) :
    files.mapFiles (.reformatting []) = files := by
  have same : Node.Change.reformatting [] = fun _ bytes => bytes := by
    funext names bytes
    simp [Node.Change.reformatting]
  rw [same, Files.mapFiles_same tree]

/-- The files `now` are `files` after some were changed, but not those at `paths`. -/
structure Spares (files now : Files) (paths : List String) : Prop where
  tree : now.root.IsTree
  place? : ∀ path, now.place? path = files.place? path
  read : ∀ path ∈ paths, now.read path = files.read path

/-- One of the files is written, and those that follow it stand at other places. -/
theorem Spares.write {now : Files} (spares : Spares files now (path :: rest)) {place : List String}
    (here : files.place? path = some place) (away : ∀ q ∈ rest, Apart files path q)
    (bytes : List UInt8) : Spares files (now.mapFiles (.only place bytes)) rest where
  tree := spares.tree.mapFiles _
  place? q := (Files.place?_mapFiles now _ q).trans (spares.place? q)
  read q mem := by
    rw [← spares.read q (List.mem_cons_of_mem path mem), Files.read_mapFiles, Files.read]
    rcases found : now.find? q with fault | ⟨place', bytes' | entries⟩
    · rfl
    · have ne : place' ≠ place := by
        rintro rfl
        refine away q mem place' here ?_
        rw [← spares.place? q, Files.place?_of_find? found]
      simp [Node.Change.only, ne]
    · rfl

/-- Formatting several files that are as they were shows what becomes of each, up to the first that
has no canonical layout, and reformats the unformatted ones among these. -/
theorem formatAll_of_spares {now : Files} (spares : Spares files now paths)
    (apart : paths.Pairwise (Apart files)) (changed : Nat) :
    formatAll false now changed paths =
      ⟨if (stop? files paths).isNone then 0 else 1,
        (reached files paths).map (outcome files) ++ ((stop? files paths).map failureNote).toList,
        now.mapFiles (.reformatting (places files paths)), false⟩ := by
  induction paths generalizing now changed with
  | nil =>
    simp [formatAll, stop?, unreached, reached, places, unformatted,
      mapFiles_reformatting_nil spares.tree]
  | cons path rest ih =>
    -- what was written so far is apart from this file, so it is read as it was at the beginning
    obtain ⟨away, apart'⟩ := List.pairwise_cons.1 apart
    have same := revision_congr (spares.read path List.mem_cons_self)
    rw [formatAll, same]
    cases eq : revision files path with
    | error failure =>
      simp [stop?_cons_of_error eq, reached_cons_of_error eq, unformatted_cons_of_error eq, places,
        mapFiles_reformatting_nil spares.tree]
    | ok revised =>
      obtain ⟨text, formatted⟩ := revised
      obtain ⟨place, old, found, decodes, formats⟩ := find?_of_revision (same.trans eq)
      have here : files.place? path = some place := by
        rw [← spares.place? path, Files.place?_of_find? found]
      rw [stop?_cons_of_ok eq, reached_cons_of_ok eq, places, unformatted_cons_of_ok eq,
        List.map_cons, outcome_of_revision eq]
      by_cases unchanged : text = formatted
      · have spares' : Spares files now rest :=
          ⟨spares.tree, spares.place?, fun q mem => spares.read q (List.mem_cons_of_mem path mem)⟩
        simp [unchanged, ih spares' apart', places]
      · have written : now.store path formatted.toUTF8.toList =
            now.mapFiles (.only place (reformatted old)) := by
          rw [Files.store_eq_mapFiles spares.tree found]
          simp [reformatted, decodes, formats]
        -- the rest leaves this file alone, so the changes may be joined
        have others : place ∉ places files rest := by
          intro mem
          obtain ⟨q, mem, there⟩ := List.mem_filterMap.1 mem
          exact away q (mem_of_mem_unformatted mem) place here there
        have later := ih (spares.write here away (reformatted old)) apart' (changed + 1)
        rw [mapFiles_only_reformatting spares.tree found others] at later
        simp only [if_neg unchanged, Bool.false_eq_true, if_false, written, later,
          List.filterMap_cons, here, places, List.cons_append, List.nil_append]

/-- Formatting several files. -/
theorem formatAll_format (tree : files.root.IsTree) (apart : paths.Pairwise (Apart files)) :
    formatAll false files 0 paths =
      ⟨if (stop? files paths).isNone then 0 else 1,
        (reached files paths).map (outcome files) ++ ((stop? files paths).map failureNote).toList,
        files.mapFiles (.reformatting (places files paths)), false⟩ :=
  formatAll_of_spares ⟨tree, fun _ => rfl, fun _ _ => rfl⟩ apart 0

/-! ## What is reported -/

theorem reported_check (stop : Option Failure) (count : Nat) (paths : List String) :
    Event.reported .unformatted (paths.map (.status .unformatted) ++ verdict stop count) = paths := by
  have rest : Event.reported .unformatted (verdict stop count) = [] := by
    rcases stop with _ | failure
    · by_cases none : count = 0 <;> simp [verdict, none, Event.reported]
    · simp [verdict, failureNote, Event.reported]
  rw [Event.reported] at rest ⊢
  rw [List.filterMap_append, rest, List.filterMap_map]
  simp

theorem reported_format (files : Files) (stop : Option Failure) (paths : List String) :
    Event.reported .formatted (paths.map (outcome files) ++ (stop.map failureNote).toList) =
      paths.filter (isUnformatted files) := by
  have rest : Event.reported .formatted (stop.map failureNote).toList = [] := by
    rcases stop with _ | failure <;> simp [failureNote, Event.reported]
  rw [Event.reported] at rest ⊢
  rw [List.filterMap_append, rest, List.filterMap_map, List.append_nil, ← List.filterMap_eq_filter]
  refine List.filterMap_congr fun path _ => ?_
  cases unformatted : isUnformatted files path <;> simp [outcome, unformatted, Option.guard]

/-! ## What is read afterwards -/

theorem revision_of_mem_unformatted (mem : path ∈ unformatted files paths) :
    ∃ text formatted, revision files path = .ok (text, formatted) ∧ text ≠ formatted := by
  have other := List.of_mem_filter mem
  rw [isUnformatted] at other
  split at other
  · cases other
  · rename_i text formatted eq
    exact ⟨text, formatted, eq, by simpa using other⟩

/-- An unformatted file gets the canonical layout of its text. -/
theorem read_of_mem_unformatted (mem : path ∈ unformatted files paths) :
    ∃ bytes text formatted, files.read path = .ok bytes ∧ decode bytes = .ok text ∧
      formatSource text = .ok formatted ∧ formatted ≠ text ∧
      (files.mapFiles (.reformatting (places files paths))).read path =
        .ok formatted.toUTF8.toList := by
  obtain ⟨text, formatted, eq, ne⟩ := revision_of_mem_unformatted mem
  obtain ⟨place, bytes, found, decodes, formats⟩ := find?_of_revision eq
  have here : place ∈ places files paths :=
    List.mem_filterMap.2 ⟨path, mem, Files.place?_of_find? found⟩
  refine ⟨bytes, text, formatted, ?_, decodes, formats, ne.symm, ?_⟩
  · rw [Files.read, found]
  · rw [Files.read_mapFiles, found]
    simp [Node.Change.reformatting, here, reformatted, decodes, formats]

instance : Std.Symm (Apart files) where
  symm _ _ apart place there here := apart place here there

/-- All other source files are left as they are. -/
theorem read_of_not_mem_unformatted (apart : paths.Pairwise (Apart files)) (mem : path ∈ paths)
    (formatted : path ∉ unformatted files paths) :
    (files.mapFiles (.reformatting (places files paths))).read path = files.read path := by
  rw [Files.read_mapFiles, Files.read]
  rcases found : files.find? path with fault | ⟨place, bytes | entries⟩
  · rfl
  · have away : place ∉ places files paths := by
      intro here
      obtain ⟨q, mem', there⟩ := List.mem_filterMap.1 here
      have ne : path ≠ q := by
        rintro rfl
        exact formatted mem'
      have apart' := apart.forall mem (mem_of_mem_unformatted mem') ne
      exact apart' place (Files.place?_of_find? found) there
    simp [Node.Change.reformatting, away]
  · rfl

/-- What was not reached is not among the unformatted files. -/
theorem not_mem_unformatted_of_mem_unreached (apart : paths.Pairwise (Apart files))
    (mem : path ∈ unreached files paths) : path ∉ unformatted files paths := by
  intro mem'
  obtain ⟨text, formatted, eq, -⟩ := revision_of_mem_unformatted mem'
  obtain ⟨place, bytes, found, -⟩ := find?_of_revision eq
  have here := Files.place?_of_find? found
  rw [← List.takeWhile_append_dropWhile (l := paths), List.pairwise_append] at apart
  exact apart.2.2 path (List.mem_of_mem_filter mem') path mem place here here

/-! ## What a check foretells -/

/-- What checking and formatting the source files at `paths` come to. -/
structure Foretells (files : Files) (paths : List String) (check format : Performance) : Prop where
  /-- A check changes no file. -/
  check_files : check.files = files
  /-- It reports the unformatted files up to the first that has no canonical layout, and then why
  that has none, or else how many it reported. -/
  check_events : check.events = (unformatted files paths).map (.status .unformatted) ++
    verdict (stop? files paths) (unformatted files paths).length
  /-- It fails if it reported a file or was stopped. -/
  check_code : check.code = if unformatted files paths = [] ∧ stop? files paths = none then 0 else 1
  /-- Formatting shows what becomes of the files up to the same one, and then why that has no
  canonical layout. -/
  format_events : format.events = (reached files paths).map (outcome files) ++
    ((stop? files paths).map failureNote).toList
  /-- It fails if it was stopped. -/
  format_code : format.code = if stop? files paths = none then 0 else 1
  /-- A check reports the files that formatting rewrites, in the same order. -/
  reported : Event.reported .unformatted check.events = Event.reported .formatted format.events
  /-- These are the source files whose bytes change. -/
  rewritten : ∀ path ∈ paths,
    path ∈ Event.reported .unformatted check.events ↔ format.files.read path ≠ files.read path
  /-- Their bytes become those of the canonical layout of the text that they were. -/
  layout : ∀ path ∈ Event.reported .unformatted check.events, ∃ bytes text formatted,
    files.read path = .ok bytes ∧ decode bytes = .ok text ∧ formatSource text = .ok formatted ∧
      format.files.read path = .ok formatted.toUTF8.toList
  /-- No other file of the whole tree changes. -/
  format_files : format.files = files.mapFiles (.reformatting (places files paths))
  /-- The file that has no canonical layout and all behind it stay as they are. -/
  unreached : ∀ path ∈ unreached files paths, format.files.read path = files.read path

theorem reported_formatAll_check (files : Files) (paths : List String) :
    Event.reported .unformatted (formatAll true files 0 paths).events =
      unformatted files paths := by
  rw [formatAll_check]
  exact reported_check _ _ _

/-- Checking several files foretells formatting them. -/
theorem foretells_formatAll (tree : files.root.IsTree) (apart : paths.Pairwise (Apart files)) :
    Foretells files paths (formatAll true files 0 paths) (formatAll false files 0 paths) where
  check_files := by rw [formatAll_check]
  check_events := by rw [formatAll_check, Nat.zero_add]
  check_code := by
    rw [formatAll_check]
    simp [and_comm]
  format_events := by rw [formatAll_format tree apart]
  format_code := by
    rw [formatAll_format tree apart]
    simp
  reported := by
    rw [reported_formatAll_check, formatAll_format tree apart]
    exact (reported_format files _ _).symm
  rewritten := by
    intro path mem
    rw [reported_formatAll_check, formatAll_format tree apart]
    constructor
    · intro unformatted'
      obtain ⟨bytes, text, formatted, reads, decodes, -, ne, reads'⟩ :=
        read_of_mem_unformatted unformatted'
      rw [reads, reads']
      -- the same bytes would be the same text, but a file is rewritten only where they differ
      intro eq
      rw [← Except.ok.inj eq, decode_toUTF8] at decodes
      exact ne (Except.ok.inj decodes)
    · intro differs
      by_contra formatted
      exact differs (read_of_not_mem_unformatted apart mem formatted)
  layout := by
    intro path mem
    rw [reported_formatAll_check] at mem
    rw [formatAll_format tree apart]
    obtain ⟨bytes, text, formatted, reads, decodes, formats, -, reads'⟩ :=
      read_of_mem_unformatted mem
    exact ⟨bytes, text, formatted, reads, decodes, formats, reads'⟩
  format_files := by rw [formatAll_format tree apart]
  unreached := by
    intro path mem
    rw [formatAll_format tree apart]
    exact read_of_not_mem_unformatted apart ((List.dropWhile_sublist _).mem mem)
      (not_mem_unformatted_of_mem_unreached apart mem)

/-- **A check foretells formatting.** If the path leads nowhere, or if the files below it cannot be
listed, both fail alike and change nothing. Otherwise both go through the same files, in the order
of their paths. -/
theorem check_foretells_format (files : Files) (path : String) (tree : files.root.IsTree) :
    match sourcesAt? files path with
    | none => ∀ check, formatAt files path check =
        ⟨1, [.status .failed ("'" ++ path ++ "' is not a file or directory")], files, false⟩
    | some (.error fault) => ∀ check, formatAt files path check =
        ⟨1, [failureNote (.system (some path) fault)], files, false⟩
    | some (.ok []) => ∀ check, formatAt files path check =
        ⟨0, [.status .warning "No .jsk files found"], files, false⟩
    | some (.ok paths) =>
        (paths.Pairwise fun p q => Path.le (Path.steps p) (Path.steps q) = true) ∧
          Foretells files paths (formatAt files path true) (formatAt files path false) := by
  split
  · rename_i nowhere
    intro check
    rw [formatAt, nowhere]
  · rename_i fault refused
    intro check
    rw [formatAt, refused]
  · rename_i sources
    intro check
    rw [formatAt, sources]
    rfl
  · rename_i paths notNone sources
    -- one path or many: both are the loop over all of them
    have runs (check : Bool) : formatAt files path check = formatAll check files 0 paths := by
      rw [formatAt, sources]
      cases paths with
      | nil => exact (notNone rfl).elim
      | cons _ _ => rfl
    rw [runs, runs]
    exact ⟨sources_sorted tree sources, foretells_formatAll tree (sources_apart tree sources)⟩

/-- An unformatted program, an empty file, and the same program again. -/
def threeFiles : Files :=
  ⟨.folder [⟨"a.jsk", .file "kem bhai aavjo bhai".toUTF8.toList⟩, ⟨"b.jsk", .file []⟩,
    ⟨"c.jsk", .file "kem bhai aavjo bhai".toUTF8.toList⟩], []⟩

/-- Of three files the first is rewritten, and the second stops both. -/
theorem check_foretells_format_three : threeFiles.root.IsTree ∧
    (formatAt threeFiles "." true).files = threeFiles ∧
    Event.reported .unformatted (formatAt threeFiles "." true).events = ["./a.jsk"] ∧
    (formatAt threeFiles "." false).files.read "./a.jsk" =
      .ok "kem bhai\naavjo bhai\n".toUTF8.toList ∧
    (formatAt threeFiles "." false).files.read "./c.jsk" =
      .ok "kem bhai aavjo bhai".toUTF8.toList := by
  have tree : threeFiles.root.IsTree := by
    refine .folder (by decide) (by decide) ?_
    simp [Node.IsTree.file]
  have sources : sourcesAt? threeFiles "." = some (.ok ["./a.jsk", "./b.jsk", "./c.jsk"]) := by cbv
  have foretells := check_foretells_format threeFiles "." tree
  rw [sources] at foretells
  obtain ⟨-, foretells⟩ := foretells
  have reported :
      Event.reported .unformatted (formatAt threeFiles "." true).events = ["./a.jsk"] := by
    rw [foretells.check_events, reported_check]
    decide +kernel
  refine ⟨tree, foretells.check_files, reported, ?_, ?_⟩
  · rw [foretells.format_files]
    decide +kernel
  · rw [foretells.unreached "./c.jsk" (by decide +kernel)]
    decide +kernel

end Command

end GujaratiScript
