import Mathlib
import ProgramSearch.Corpus.Load
import ProgramSearch.Proofs.Corpus.Layouts
import ProgramSearch.Proofs.Corpus.Windows
import ProgramSearch.Proofs.Database.Operations

/-!
# Loading windows of a corpus

Without a time limit, a load joins what the files of its window lead to, each by itself, in sorted
order. So the loads of two windows that join are the parts of the load of both.
-/
namespace ProgramSearch

namespace Database

/-- Shards of the right dimension are appended in order. -/
theorem foldlM_pushShard (db : Database) (groups : List (List Entry)) :
    (groups.map (Shard.ofEntries db.dimension)).foldlM pushShard db = .ok (db.extended groups) := by
  rw [extended_eq_stacked]
  exact pushShards_of_dimension (List.forall_mem_map.mpr fun _ _ => rfl)

end Database

namespace Corpus

variable {t : FileTree} {settings : LoadSettings}

/-- The entries of a file, as they are divided into shards. -/
def fileGroups (t : FileTree) (settings : LoadSettings) (path : String) : List (List Entry) :=
  match t.readBytes path with
  | .ok bytes => groupsOf settings.capacity
      (entriesOf settings.embeddingField settings.dimension (items path bytes).1)
  | .error _ => []

/-- A file that cannot be read leads to nothing. -/
theorem loadFile_of_unreadable {path : String} {fault : FileFault}
    (unreadable : t.readBytes path = .error fault) :
    loadFile t settings path = ⟨path, [], 0, 0, .failed⟩ := by
  rw [loadFile, unreadable]
  rfl

theorem shards_loadFile (t : FileTree) (settings : LoadSettings) (path : String) :
    (loadFile t settings path).shards =
      (fileGroups t settings path).map (.ofEntries settings.dimension) := by
  cases read : t.readBytes path with
  | error fault => rw [loadFile_of_unreadable read, fileGroups, read]; rfl
  | ok bytes => rw [loadFile_of_readBytes read, fileGroups, read]; rfl

theorem accepted_loadFile (t : FileTree) (settings : LoadSettings) (path : String) :
    (loadFile t settings path).accepted = (fileGroups t settings path).flatten.length := by
  cases read : t.readBytes path with
  | error fault => rw [loadFile_of_unreadable read, fileGroups, read]; rfl
  | ok bytes => rw [loadFile_of_readBytes read, fileGroups, read, groupsOf_flatten]; rfl

/-- A file from which no record is accepted leads to no shard. -/
theorem shards_of_accepted_eq_zero {path : String}
    (none : (loadFile t settings path).accepted = 0) : (loadFile t settings path).shards = [] := by
  cases read : t.readBytes path with
  | error fault => rw [loadFile_of_unreadable read]
  | ok bytes =>
    rw [loadFile_of_readBytes read] at none ⊢
    rw [outcomeOf, List.eq_nil_of_length_eq_zero none, groupsOf, List.map_nil]

theorem status_loadFile (t : FileTree) (settings : LoadSettings) (path : String) :
    (loadFile t settings path).status ≠ .notStarted := by
  cases read : t.readBytes path with
  | error fault => simp [loadFile_of_unreadable read]
  | ok bytes =>
    rw [loadFile_of_readBytes read, outcomeOf]
    split <;> simp

/-- A database joins what some files lead to, in order, and a report counts it. -/
structure Joins (t : FileTree) (settings : LoadSettings) (paths : List String)
    (loaded : LoadedCorpus) : Prop where
  shards : loaded.database.shards.toList =
    paths.flatMap fun path => (loadFile t settings path).shards
  records : loaded.report.recordsAccepted = loaded.database.size
  accepted : loaded.report.recordsAccepted =
    (paths.map fun path => (loadFile t settings path).accepted).sum
  skipped : loaded.report.recordsSkipped =
    (paths.map fun path => (loadFile t settings path).skipped).sum
  parsed : loaded.report.filesParsed =
    paths.countP fun path => (loadFile t settings path).status == .parsed
  failed : loaded.report.filesFailed =
    paths.countP fun path => (loadFile t settings path).status == .failed
  count : loaded.report.shards = loaded.database.shards.size
  finished : loaded.report.filesSkipped = 0 ∧ loaded.report.timedOut = false

/-- The database and the report of a load, also of one that fails because it finds no record. -/
def joined (t : FileTree) (settings : LoadSettings) (seen : Nat) (paths : List String) :
    LoadedCorpus :=
  let database := (Database.empty settings.dimension).extended
    (paths.flatMap (fileGroups t settings))
  ⟨database, reportOf seen (paths.map (loadFile t settings)) database.shards.size⟩

theorem shards_joined (t : FileTree) (settings : LoadSettings) (seen : Nat)
    (paths : List String) : (joined t settings seen paths).database.shards.toList =
      paths.flatMap fun path => (loadFile t settings path).shards := by
  simp [joined, Database.extended, Database.empty, List.map_flatMap, shards_loadFile]

theorem size_joined (t : FileTree) (settings : LoadSettings) (seen : Nat) (paths : List String) :
    (joined t settings seen paths).database.size =
      (paths.map fun path => (loadFile t settings path).accepted).sum := by
  simp only [joined, Database.extended, Database.empty, Nat.zero_add, accepted_loadFile]
  induction paths with
  | nil => rfl
  | cons path paths ih =>
    rw [List.flatMap_cons, List.flatten_append, List.length_append, ih, List.map_cons,
      List.sum_cons]

theorem joins_joined (t : FileTree) (settings : LoadSettings) (seen : Nat)
    (paths : List String) : Joins t settings paths (joined t settings seen paths) := by
  have hstarted : (paths.map (loadFile t settings)).countP
      (fun outcome => outcome.status == .notStarted) = 0 := by
    rw [List.countP_map, List.countP_eq_zero]
    exact fun path _ => by simpa using status_loadFile t settings path
  refine ⟨shards_joined t settings seen paths, ?_, ?_, ?_, ?_, ?_, rfl, hstarted, ?_⟩
  · rw [size_joined]
    simp [joined, reportOf, List.sum, Function.comp_def]
  · simp [joined, reportOf, List.sum, Function.comp_def]
  · simp [joined, reportOf, List.sum, Function.comp_def]
  · simp [joined, reportOf, List.countP_map, Function.comp_def]
  · simp [joined, reportOf, List.countP_map, Function.comp_def]
  · simp [joined, reportOf, hstarted]

/-- A load without a time limit, in closed form. -/
theorem readAll_eq {files : List String} (found : filesAt t settings.location = .ok files)
    (untimed : settings.timeLimit = none) :
    readAll t settings =
      let loaded := joined t settings files.length (settings.window.chosen files)
      if loaded.database.isEmpty then .error (.emptyCorpus settings.location) else .ok loaded := by
  have hread : readOrSkip t settings = loadFile t settings := by
    funext path
    rw [readOrSkip, untimed, if_neg (by decide)]
  have hshards (paths : List String) : (paths.map (loadFile t settings)).flatMap (·.shards) =
      (paths.flatMap (fileGroups t settings)).map (.ofEntries settings.dimension) := by
    simp only [List.flatMap_map, List.map_flatMap, shards_loadFile]
  let chosen := settings.window.chosen files
  have hpush : ((chosen.flatMap (fileGroups t settings)).map (.ofEntries settings.dimension)).foldlM
      Database.pushShard (.empty settings.dimension) =
        .ok (joined t settings files.length chosen).database :=
    Database.foldlM_pushShard (.empty settings.dimension) _
  have hfinished : (reportOf files.length (chosen.map (loadFile t settings))
      (joined t settings files.length chosen).database.shards.size).timedOut = false :=
    (joins_joined t settings files.length chosen).finished.2
  rw [readAll, discover, found, ok_bind, Window.cut_eq_chosen]
  simp only [pure_bind, hread, hshards, chosen] at hpush hfinished ⊢
  rw [hpush, ok_bind, hfinished, Bool.not_false, Bool.and_true]
  rfl

theorem isEmpty_joined {seen : Nat} {paths : List String} :
    (joined t settings seen paths).database.isEmpty = true ↔
      ∀ path ∈ paths, (loadFile t settings path).accepted = 0 := by
  rw [Database.isEmpty, beq_iff_eq, size_joined,
    List.sum_eq_zero_iff_forall_eq_nat, List.forall_mem_map]

/-- The counters of a load are the sums of those of two others. -/
structure Adds (left right whole : LoadReport) : Prop where
  parsed : whole.filesParsed = left.filesParsed + right.filesParsed
  failed : whole.filesFailed = left.filesFailed + right.filesFailed
  accepted : whole.recordsAccepted = left.recordsAccepted + right.recordsAccepted
  skipped : whole.recordsSkipped = left.recordsSkipped + right.recordsSkipped
  shards : whole.shards = left.shards + right.shards

theorem Joins.append {paths paths' : List String} {left right whole : LoadedCorpus}
    (hleft : Joins t settings paths left) (hright : Joins t settings paths' right)
    (hwhole : Joins t settings (paths ++ paths') whole) :
    whole.database.shards = left.database.shards ++ right.database.shards ∧
      Adds left.report right.report whole.report := by
  have hshards : whole.database.shards = left.database.shards ++ right.database.shards := by
    rw [← Array.toList_inj, Array.toList_append, hwhole.shards, List.flatMap_append, hleft.shards,
      hright.shards]
  refine ⟨hshards, ?_, ?_, ?_, ?_, ?_⟩
  · rw [hwhole.parsed, List.countP_append, hleft.parsed, hright.parsed]
  · rw [hwhole.failed, List.countP_append, hleft.failed, hright.failed]
  · rw [hwhole.accepted, List.map_append, List.sum_append, hleft.accepted, hright.accepted]
  · rw [hwhole.skipped, List.map_append, List.sum_append, hleft.skipped, hright.skipped]
  · rw [hwhole.count, hshards, Array.size_append, hleft.count, hright.count]

/-- The shards of a load; one that fails has none. -/
def loadedShards : Except Failure LoadedCorpus → List Shard
  | .ok loaded => loaded.database.shards.toList
  | .error _ => []

/-! ### Loads that differ in their windows -/

section Untimed

variable {files : List String} (found : Finds t settings.location files)
  (untimed : settings.timeLimit = none)
include found untimed

theorem readAll_over (window : Window) (threads : Nat) :
    readAll t { settings with window, threads } =
      let loaded := joined t settings files.length (window.chosen files)
      if loaded.database.isEmpty then .error (.emptyCorpus settings.location) else .ok loaded :=
  @readAll_eq t { settings with window, threads } files (finds_iff.mp found) untimed

theorem readAll_of_none_accepted {window : Window} (threads : Nat)
    (none : ∀ path ∈ window.chosen files, (loadFile t settings path).accepted = 0) :
    readAll t { settings with window, threads } = .error (.emptyCorpus settings.location) := by
  rw [readAll_over found untimed]
  exact if_pos (isEmpty_joined.mpr none)

theorem exists_readAll {window : Window} (threads : Nat) {path : String}
    (chosen : path ∈ window.chosen files) (accepted : (loadFile t settings path).accepted ≠ 0) :
    ∃ loaded, readAll t { settings with window, threads } = .ok loaded := by
  rw [readAll_over found untimed]
  exact ⟨_, if_neg fun hempty => accepted (isEmpty_joined.mp hempty path chosen)⟩

theorem joins_of_readAll {window : Window} {threads : Nat} {loaded : LoadedCorpus}
    (h : readAll t { settings with window, threads } = .ok loaded) :
    Joins t settings (window.chosen files) loaded ∧ loaded.report.filesSeen = files.length := by
  rw [readAll_over found untimed] at h
  dsimp only at h
  split at h
  · contradiction
  · obtain rfl := Except.ok.inj h
    exact ⟨joins_joined .., rfl⟩

theorem exists_accepted_of_readAll {window : Window} {threads : Nat} {loaded : LoadedCorpus}
    (h : readAll t { settings with window, threads } = .ok loaded) :
    ∃ path ∈ window.chosen files, (loadFile t settings path).accepted ≠ 0 := by
  by_contra hnone
  push Not at hnone
  rw [readAll_of_none_accepted found untimed threads hnone] at h
  contradiction

theorem loadedShards_over (window : Window) (threads : Nat) :
    loadedShards (readAll t { settings with window, threads }) =
      (window.chosen files).flatMap fun path => (loadFile t settings path).shards := by
  rw [readAll_over found untimed]
  dsimp only
  split
  · next hempty =>
    -- A load fails only where its files lead to no shards.
    refine (List.flatMap_eq_nil_iff.mpr fun path hpath => ?_).symm
    exact shards_of_accepted_eq_zero (isEmpty_joined.mp hempty path hpath)
  · exact shards_joined ..

/-- Without a time limit, a load joins what the files of its window lead to, each by itself, in
sorted order, whatever the order in which they are found and the number of threads, and it fails
exactly if no record is accepted. For windows that join, the shards of the first and those of the
second are the shards of both, and the counters add up. -/
theorem readAll_windows :
    (∀ (window : Window) (threads : Nat),
      (∀ loaded, readAll t { settings with window, threads } = .ok loaded →
        Joins t settings (window.chosen files) loaded ∧
          loaded.report.filesSeen = files.length) ∧
      ((∃ path ∈ window.chosen files, (loadFile t settings path).accepted ≠ 0) →
        ∃ loaded, readAll t { settings with window, threads } = .ok loaded) ∧
      ((∀ path ∈ window.chosen files, (loadFile t settings path).accepted = 0) →
        readAll t { settings with window, threads } = .error (.emptyCorpus settings.location))) ∧
    ∀ a b c : Nat, a ≤ b → b < c → ∀ threads threads' threads'' : Nat,
      let first := readAll t { settings with window := ⟨a, some b⟩, threads := threads }
      let second := readAll t { settings with window := ⟨b + 1, some c⟩, threads := threads' }
      let both := readAll t { settings with window := ⟨a, some c⟩, threads := threads'' }
      loadedShards both = loadedShards first ++ loadedShards second ∧
      ∀ left right, first = .ok left → second = .ok right →
        ∃ whole, both = .ok whole ∧
          whole.database.shards = left.database.shards ++ right.database.shards ∧
          Adds left.report right.report whole.report := by
  refine ⟨fun window threads => ⟨fun loaded h => joins_of_readAll found untimed h,
    fun ⟨path, hpath, haccepted⟩ => exists_readAll found untimed threads hpath haccepted,
    readAll_of_none_accepted found untimed threads⟩, ?_⟩
  intro a b c hab hbc threads threads' threads''
  have hchosen := Window.chosen_append (Nat.le_succ_of_le hab) (Nat.le_of_lt hbc) files
  refine ⟨?_, fun left right hleft hright => ?_⟩
  · simp only [loadedShards_over found untimed, ← hchosen, List.flatMap_append]
  · obtain ⟨path, hpath, haccepted⟩ := exists_accepted_of_readAll found untimed hleft
    obtain ⟨whole, hwhole⟩ := exists_readAll found untimed threads''
      (hchosen ▸ List.mem_append_left _ hpath) haccepted
    have hjoins := (joins_of_readAll found untimed hwhole).1
    rw [← hchosen] at hjoins
    exact ⟨whole, hwhole, (joins_of_readAll found untimed hleft).1.append
      (joins_of_readAll found untimed hright).1 hjoins⟩

end Untimed

/-! ### A directory with two files -/

/-- An array of a program and a value that is none. -/
def sampleFile : List UInt8 := Text.utf8 (arrayFile sampleTexts)

def sampleTree : FileTree :=
  ⟨[(["d"], .directory), (["d", "b.json"], .file sampleFile), (["d", "a.json"], .file sampleFile)]⟩

/-- The walk may come upon the two files in either order. -/
theorem finds_sampleTree : Finds sampleTree "d" ["d/a.json", "d/b.json"] := by
  have hroot : Path.ofString? "d" = some ["d"] := Path.IsName.ofString? (by decide)
  have hnode : sampleTree.find? "d" = some .directory := by
    rw [FileTree.find?, hroot]
    rfl
  have hcorpus : isCorpusFile "a.json" = true ∧ isCorpusFile "b.json" = true := by
    rw [isCorpusFile, isCorpusFile, extensionOf?, extensionOf?, splitOn_eq, splitOn_eq]
    decide +kernel
  have hbelow : filesBelow sampleTree ["d"] = [["b.json"], ["a.json"]] := by decide +kernel
  have hfiles : reachedFiles sampleTree ["d"] = [["b.json"], ["a.json"]] := by
    simp [reachedFiles, hbelow, hcorpus]
  have hfound : [["a.json"], ["b.json"]].Perm
      (reachedFiles sampleTree ((Path.ofString? "d").getD [])) := by
    rw [hroot, Option.getD_some, hfiles]
    exact .swap ..
  have hsorted : [["a.json"], ["b.json"]].mergeSort pathBefore = [["a.json"], ["b.json"]] :=
    List.mergeSort_of_pairwise (by decide)
  have hjoined : [["a.json"], ["b.json"]].map (join "d") = ["d/a.json", "d/b.json"] := by
    decide +kernel
  have hfinds := Finds.walk hnode hfound
  rwa [hsorted, hjoined] at hfinds

theorem accepted_sampleTree : ∀ path ∈ ["d/a.json", "d/b.json"],
    (loadFile sampleTree (flatSettings "d") path).accepted = 1 := by
  have hread (path name : String) (parts : Path.ofString? path = some ["d", name])
      (file : sampleTree.node? ["d", name] = some (.file sampleFile))
      (named : Path.namesDirectory path = false) (delimited : isLineDelimited path = false) :
      (loadFile sampleTree (flatSettings "d") path).accepted = 1 := by
    have read : sampleTree.readBytes path = .ok sampleFile := by
      rw [FileTree.readBytes, FileTree.find?, parts, Option.bind_some, file, named]
      rfl
    rw [loadFile_of_readBytes read, items, delimited]
    rfl
  have hparts : Path.ofString? "d/a.json" = some ["d", "a.json"] ∧
      Path.ofString? "d/b.json" = some ["d", "b.json"] := by
    rw [Path.ofString?, Path.ofString?, splitOn_eq, splitOn_eq]
    decide +kernel
  have hdelimited : isLineDelimited "d/a.json" = false ∧ isLineDelimited "d/b.json" = false := by
    rw [isLineDelimited, isLineDelimited, extensionOf?, extensionOf?, splitOn_eq, splitOn_eq]
    decide +kernel
  have hnamed : Path.namesDirectory "d/a.json" = false ∧
      Path.namesDirectory "d/b.json" = false := by
    decide +kernel
  simp only [List.forall_mem_cons]
  exact ⟨hread _ "a.json" hparts.1 rfl hnamed.1 hdelimited.1,
    hread _ "b.json" hparts.2 rfl hnamed.2 hdelimited.2, List.forall_mem_nil _⟩

/-- Each file is loaded by a window of its own, and both by one. -/
theorem readAll_windows_sample :
    Finds sampleTree "d" ["d/a.json", "d/b.json"] ∧ (flatSettings "d").timeLimit = none ∧
    (∃ left right whole,
      readAll sampleTree { flatSettings "d" with window := ⟨1, some 1⟩, threads := 2 } =
        .ok left ∧
      readAll sampleTree { flatSettings "d" with window := ⟨2, some 2⟩, threads := 1 } =
        .ok right ∧
      readAll sampleTree { flatSettings "d" with window := ⟨1, some 2⟩, threads := 0 } =
        .ok whole ∧
      whole.database.size = 2 ∧
      whole.database.shards = left.database.shards ++ right.database.shards ∧
      Adds left.report right.report whole.report) ∧
    readAll sampleTree { flatSettings "d" with window := ⟨3, none⟩, threads := 2 } =
      .error (.emptyCorpus "d") := by
  have untimed : (flatSettings "d").timeLimit = none := rfl
  obtain ⟨hloads, hwindows⟩ := readAll_windows finds_sampleTree untimed
  have hone (path : String) (hpath : path ∈ ["d/a.json", "d/b.json"]) :
      (loadFile sampleTree (flatSettings "d") path).accepted ≠ 0 := by
    rw [accepted_sampleTree path hpath]
    decide
  obtain ⟨left, hleft⟩ := (hloads ⟨1, some 1⟩ 2).2.1
    ⟨"d/a.json", List.mem_singleton.mpr rfl, hone _ (by decide)⟩
  obtain ⟨right, hright⟩ := (hloads ⟨2, some 2⟩ 1).2.1
    ⟨"d/b.json", List.mem_singleton.mpr rfl, hone _ (by decide)⟩
  obtain ⟨whole, hwhole, hshards, hadds⟩ :=
    (hwindows 1 1 2 (by decide) (by decide) 2 1 0).2 left right hleft hright
  have hjoins := ((hloads ⟨1, some 2⟩ 0).1 whole hwhole).1
  have haccepted := List.map_congr_left accepted_sampleTree
  refine ⟨finds_sampleTree, untimed, ⟨left, right, whole, hleft, hright, hwhole, ?_, hshards,
    hadds⟩, (hloads ⟨3, none⟩ 2).2.2 nofun⟩
  exact hjoins.records.symm.trans (hjoins.accepted.trans (congrArg List.sum haccepted))

end Corpus
end ProgramSearch
